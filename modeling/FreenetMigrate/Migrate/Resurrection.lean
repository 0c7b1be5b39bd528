import FreenetMigrate.Import.Enumeration
import FreenetMigrate.Migrate.AntiRollback

namespace FreenetMigrate.Migrate

open Calls Journal SecretStore

variable {Store : Type} [SecretStore Store] {store kept final : Store}
  {policy : SecretSelectionPolicy} {key : Fixed 32}

structure Keeps (key : Fixed 32) (store kept : Store) : Prop where
  done : ∀ p : DelegateKey, p.bytes = key →
    getSecret kept (predDoneMarker p) = getSecret store (predDoneMarker p)
  wip : ∀ p : DelegateKey, p.bytes = key →
    getSecret kept (predWipMarker p) = getSecret store (predWipMarker p)
  older : ∀ name, DONE_PREFIX <+: name → getSecret kept name = getSecret store name

theorem Keeps.refl (store : Store) : Keeps key store store :=
  ⟨fun _ _ => rfl, fun _ _ => rfl, fun _ _ => rfl⟩

theorem Keeps.trans (first : Keeps key store kept) (second : Keeps key kept final) :
    Keeps key store final :=
  ⟨fun p same => (second.done p same).trans (first.done p same),
    fun p same => (second.wip p same).trans (first.wip p same),
    fun name older => (second.older name older).trans (first.older name older)⟩

theorem AppEdit.keeps (edited : AppEdit store kept) : Keeps key store kept :=
  ⟨fun p _ => edited _ (isMarker_markerKey p (.done true)),
    fun p _ => edited _ (isMarker_markerKey p (.inProgress true)),
    fun _ older => edited _ (isMarker_of_done older)⟩

section Calls

variable [ExactSecretStore Store]

def Harmless (key : Fixed 32) : Request → Prop
  | .recordMarker predecessor _ => predecessor.bytes ≠ key
  | .writeSecret item => isMarker item.key = false
  | _ => True

theorem keeps_of_setSecret {name value : Bytes}
    (apart : (∀ p : DelegateKey, p.bytes = key → predDoneMarker p ≠ name ∧ predWipMarker p ≠ name) ∧
      ¬ DONE_PREFIX <+: name) : Keeps key store (setSecret store name value).2 := by
  refine ⟨?_, ?_, ?_⟩
  · intro p about
    exact ExactSecretStore.getSecret_other store name value _ (apart.1 p about).1
  · intro p about
    exact ExactSecretStore.getSecret_other store name value _ (apart.1 p about).2
  · intro other older
    refine ExactSecretStore.getSecret_other store name value other ?_
    rintro rfl
    exact apart.2 older

theorem keeps_of_recordMarker {predecessor : DelegateKey} (marker : MigrationMarker)
    (apart : predecessor.bytes ≠ key) :
    Keeps key store (SecretStoreIo.recordMarker store predecessor marker).2 := by
  unfold SecretStoreIo.recordMarker
  simp only
  split
  · exact .refl store
  · apply keeps_of_setSecret
    cases marker with
    | inProgress sawData =>
      refine ⟨fun p about => ⟨predDoneMarker_ne_predWipMarker _ _, ?_⟩,
        not_done_prefix_predWipMarker _⟩
      intro same
      exact apart ((predWipMarker_eq_iff.mp same).symm.trans about)
    | done hadData =>
      refine ⟨fun p about => ⟨?_, (predDoneMarker_ne_predWipMarker _ _).symm⟩,
        not_done_prefix_predDoneMarker _⟩
      intro same
      exact apart ((predDoneMarker_eq_iff.mp same).symm.trans about)

theorem keeps_of_writeSecret {item : RecoveredSecret} (own : isMarker item.key = false) :
    Keeps key store (SecretStoreIo.writeSecret store item).2 := by
  have reserved : ∀ name, isMarker name = true → name ≠ item.key := by
    rintro name marker rfl
    rw [own] at marker
    cases marker
  unfold SecretStoreIo.writeSecret
  split
  · exact .refl store
  · refine keeps_of_setSecret ⟨fun p _ => ⟨?_, ?_⟩, ?_⟩
    · exact reserved _ (isMarker_markerKey p (.done true))
    · exact reserved _ (isMarker_markerKey p (.inProgress true))
    · intro older
      exact reserved _ (isMarker_of_done older) rfl

theorem keeps_of_call {request : Request} {answer : Answer request}
    (harmless : Harmless key request) (call : soleWorld store request answer final) :
    Keeps key store final := by
  rcases soleWorld_cases call with rfl | ⟨predecessor, marker, rfl, rfl⟩ | ⟨item, rfl, rfl⟩
  · exact .refl _
  · exact keeps_of_recordMarker marker harmless
  · exact keeps_of_writeSecret harmless

end Calls

section Closing

def Refused : (request : Request) → Answer request → Prop
  | .recordMarker predecessor marker, answer =>
    answer = .error (SecretStoreIo.writeFailed (SecretStoreIo.markerKey predecessor marker))
  | .writeSecret item, answer => answer = .failed (SecretStoreIo.writeFailed item.key) .retryable
  | _, _ => False

/-- A successor over a secret store that refuses what writes it likes and that the app edits before
    any call, where each call leaves the store as is allowed after what was there before the edit. -/
def editWorld (allowed : Store → Store → Prop) : World Request Answer Store :=
  fun before request answer after => allowed before after ∧ ∃ edited, AppEdit before edited ∧
    (soleWorld edited request answer after ∨ Refused request answer ∧ after = edited)

variable {allowed : Store → Store → Prop}

theorem editWorld_alone {request : Request} {answer : Answer request} (within : allowed store final)
    (call : soleWorld store request answer final) : editWorld allowed store request answer final :=
  ⟨within, store, .refl store, .inl call⟩

theorem editWorld_total (quiet : ∀ store, allowed store store) (store : Store) (request : Request) :
    ∃ answer after, editWorld allowed store request answer after := by
  have refused : ∀ {answer : Answer request}, Refused request answer →
      ∃ answer after, editWorld allowed store request answer after :=
    fun refused => ⟨_, store, quiet store, store, .refl store, .inr ⟨refused, rfl⟩⟩
  cases request with
  | recordMarker | writeSecret => exact refused rfl
  | _ => exact ⟨_, store, editWorld_alone (quiet store) (soleWorld_storeHandler (fun _ => []) store _)⟩

theorem keeps_of_editWorld [ExactSecretStore Store] {request : Request} {answer : Answer request}
    (harmless : Harmless key request) (call : editWorld allowed store request answer final) :
    Keeps key store final := by
  obtain ⟨-, edited, edit, call | ⟨-, rfl⟩⟩ := call
  · exact edit.keeps.trans (keeps_of_call harmless call)
  · exact edit.keeps

/-- A way for one delegate key to be closed: no harmless call opens it, and it reads as a completion
    marker of some kind with every generation it may be listed with. -/
structure Closes (world : World Request Answer Store) (key : Fixed 32) (listed : UInt32 → Prop)
    (kind : Bool → Prop) (closed : Store → Prop) : Prop where
  keeps {store final : Store} {request : Request} {answer : Answer request}
    (harmless : Harmless key request) (call : world store request answer final) :
    closed store → closed final
  reads {store : Store} (closed : closed store) {predecessor : DelegateKey}
    (about : predecessor.bytes = key) {generation : UInt32} (among : listed generation) :
    ∃ hadData, kind hadData ∧ SecretStoreIo.migrationMarker store
      ⟨predecessor, generation, .atOrAboveGeneration⟩ = some (.done hadData)

/-- A predecessor whose own completion marker is stored, and not contradicted. -/
def OwnSeal (store : Store) (predecessor : DelegateKey) : Prop :=
  (getSecret store (predDoneMarker predecessor)).isSome ∧
    emptySealContradicted store predecessor = false

theorem OwnSeal.keeps {p : DelegateKey} (own : OwnSeal store p) (keeps : Keeps p.bytes store kept) :
    OwnSeal kept p := by
  unfold OwnSeal emptySealContradicted
  rw [keeps.done p rfl, keeps.wip p rfl]
  exact own

theorem OwnSeal.reads {p q : DelegateKey} {value : Bytes} (own : OwnSeal store p)
    (stored : getSecret store (predDoneMarker p) = some value) (about : q.bytes = p.bytes)
    (generation : UInt32) (bridge : LegacyBridge) :
    SecretStoreIo.migrationMarker store ⟨q, generation, bridge⟩ =
      some (.done (value != PRED_DONE_MARKER_VALUE_EMPTY)) := by
  have upheld := own.2
  unfold emptySealContradicted at upheld
  unfold SecretStoreIo.migrationMarker emptySealContradicted
  rw [predDoneMarker_eq_iff.mpr about, predWipMarker_eq_iff.mpr about, upheld, stored]
  rfl

theorem closes_own [ExactSecretStore Store] (p : DelegateKey) (value : Bytes) :
    Closes (editWorld allowed) p.bytes (fun _ => True)
      (· = (value != PRED_DONE_MARKER_VALUE_EMPTY))
      fun store => OwnSeal store p ∧ getSecret store (predDoneMarker p) = some value := by
  constructor
  · rintro store final request answer harmless call ⟨own, stored⟩
    have keeps := keeps_of_editWorld harmless call
    exact ⟨own.keeps keeps, (keeps.done p rfl).trans stored⟩
  · rintro store ⟨own, stored⟩ predecessor about generation -
    exact ⟨_, rfl, own.reads stored about generation _⟩

theorem mem_completedGenerations {generation : UInt32} :
    generation ∈ completedGenerations store ↔
      ∃ name ∈ listSecrets store DONE_PREFIX, DONE_PREFIX <+: name ∧
        parseU32 (name.drop DONE_PREFIX.length) = some generation := by
  simp only [completedGenerations, List.mem_filterMap]
  constructor
  · rintro ⟨name, listed, parsed⟩
    split at parsed
    · rename_i starts
      exact ⟨name, listed, List.isPrefixOf_iff_prefix.mp starts, parsed⟩
    · cases parsed
  · rintro ⟨name, listed, starts, parsed⟩
    exact ⟨name, listed, by rw [if_pos (List.isPrefixOf_iff_prefix.mpr starts)]; exact parsed⟩

theorem legacyGenerationMigrated_iff {generation : UInt32} :
    legacyGenerationMigrated store generation = true ↔
      ∃ newer ∈ completedGenerations store, generation ≤ newer := by
  unfold legacyGenerationMigrated newestCompletedGeneration
  cases found : (completedGenerations store).max? with
  | none =>
    have empty := List.max?_eq_none_iff.mp found
    simp [empty]
  | some newest =>
    obtain ⟨member, greatest⟩ := List.max?_eq_some_iff.mp found
    constructor
    · intro below
      exact ⟨newest, member, by simpa using below⟩
    · rintro ⟨newer, among, below⟩
      have bound := below.trans (greatest newer among)
      simpa using bound

theorem held_setSecret [ExactSecretStore Store] (store : Store) (key value : Bytes) {name : Bytes}
    (held : (getSecret store name).isSome) : (getSecret (setSecret store key value).2 name).isSome := by
  by_cases same : name = key
  · subst same
    rcases getSecret_setSecret_cases store name value with now | ⟨-, before⟩
    · rw [now]
      rfl
    · rw [before]
      exact held
  · rw [ExactSecretStore.getSecret_other store key value name same]
    exact held

/-- No key of the crate's that is held is ever taken away. -/
theorem held_of_editWorld [ExactSecretStore Store] {request : Request} {answer : Answer request}
    (call : editWorld allowed store request answer final) {name : Bytes}
    (reserved : isMarker name = true) (held : (getSecret store name).isSome) :
    (getSecret final name).isSome := by
  obtain ⟨-, edited, edit, call⟩ := call
  rw [← edit name reserved] at held
  rcases call with call | ⟨-, rfl⟩
  · rcases soleWorld_cases call with rfl | ⟨predecessor, marker, rfl, rfl⟩ | ⟨item, rfl, rfl⟩
    · exact held
    · unfold SecretStoreIo.recordMarker
      simp only
      split
      · exact held
      · exact held_setSecret _ _ _ held
    · unfold SecretStoreIo.writeSecret
      split
      · exact held
      · exact held_setSecret _ _ _ held
  · exact held

/-- Every generation that the completion markers of the older import cover stays covered, as far as
    the store enumerates them. -/
def KeepsSeals (before after : Store) : Prop :=
  ∀ generation, legacyGenerationMigrated before generation = true →
    legacyGenerationMigrated after generation = true

theorem KeepsSeals.refl (store : Store) : KeepsSeals store store := fun _ => id

/-- Where a store enumerates all that it holds, nothing that is done to it takes a seal away. -/
theorem keepsSeals_of_lawful [LawfulSecretStore Store] {request : Request} {answer : Answer request}
    (call : editWorld allowed store request answer final) : KeepsSeals store final := by
  intro generation covered
  rw [legacyGenerationMigrated_iff] at covered ⊢
  obtain ⟨newer, among, below⟩ := covered
  obtain ⟨name, listed, starts, parsed⟩ := mem_completedGenerations.mp among
  have held := (SoundSecretStore.held_of_listed store DONE_PREFIX name listed).2
  have stays := held_of_editWorld call (isMarker_of_done starts) held
  have still := LawfulSecretStore.listed_of_held final DONE_PREFIX name starts stays
  exact ⟨newer, mem_completedGenerations.mpr ⟨name, still, starts, parsed⟩, below⟩

/-- A delegate key without an own marker, whose listed generations the older import completed. -/
structure Bridged (p : DelegateKey) (listed : UInt32 → Prop) (store : Store) : Prop where
  unsealed : getSecret store (predDoneMarker p) = none
  covered : ∀ generation, listed generation → legacyGenerationMigrated store generation = true

/-- A bridged seal closes its delegate key where nothing takes the seals away. -/
theorem closes_bridged [ExactSecretStore Store]
    (seals : ∀ {before after : Store}, allowed before after → KeepsSeals before after)
    (p : DelegateKey) (listed : UInt32 → Prop) :
    Closes (editWorld allowed) p.bytes listed (· = true) (Bridged p listed) := by
  constructor
  · intro store final request answer harmless call bridged
    have keeps := keeps_of_editWorld harmless call
    exact ⟨(keeps.done p rfl).trans bridged.unsealed,
      fun generation among => seals call.1 generation (bridged.covered generation among)⟩
  · intro store bridged predecessor about generation among
    refine ⟨true, rfl, ?_⟩
    have covered := bridged.covered generation among
    unfold SecretStoreIo.migrationMarker emptySealContradicted
    rw [predDoneMarker_eq_iff.mpr about, bridged.unsealed]
    simp [covered]

end Closing

variable {allowed : Store → Store → Prop} {listed : UInt32 → Prop} {kind : Bool → Prop}
  {closed : Store → Prop}

section Row

variable {s s' : Store} {state state' : WalkState Unit} {row : DelegateKey × UInt32}
  {events : History}

theorem read_marker {marker : Option MigrationMarker}
    (opens : Opens noObserver .newestSnapshotWins (editWorld allowed) s state row marker s') :
    marker = SecretStoreIo.migrationMarker s' ⟨row.1, row.2, .atOrAboveGeneration⟩ := by
  obtain ⟨-, edited, -, ⟨answered, rfl⟩ | ⟨refused, -⟩⟩ := opens.read
  · exact Except.ok.inj answered
  · exact refused.elim

theorem Closes.opens (closes : Closes (editWorld allowed) key listed kind closed) (holds : closed s)
    (about : row.1.bytes = key) (among : listed row.2) {marker : Option MigrationMarker}
    (opens : Opens noObserver .newestSnapshotWins (editWorld allowed) s state row marker s') :
    ∃ hadData, kind hadData ∧ marker = some (.done hadData) := by
  have after : closed s' := closes.keeps (by trivial) opens.read holds
  obtain ⟨hadData, of, read⟩ := closes.reads after about among
  exact ⟨hadData, of, (read_marker opens).trans read⟩

theorem Closes.not_asked (closes : Closes (editWorld allowed) key listed kind closed) (holds : closed s)
    (about : row.1.bytes = key) (among : listed row.2) {asked : Asked} {calls : History} :
    ¬ AskedOn noObserver .newestSnapshotWins (editWorld allowed) s state row calls asked := by
  intro on
  obtain ⟨s₁, opens⟩ := on.opened
  obtain ⟨hadData, -, read⟩ := closes.opens holds about among opens
  exact on.unsealed_plain hadData read

theorem Closes.row_reads (closes : Closes (editWorld allowed) key listed kind closed) (holds : closed s)
    (about : row.1.bytes = key) (among : listed row.2)
    (runs : RowRuns noObserver .newestSnapshotWins (editWorld allowed) s state row events s' state') :
    Only JournalCall events := by
  rcases runs.reads_or_asks with reads | ⟨asked, on⟩
  · exact reads
  · exact absurd on (closes.not_asked holds about among)

/-- A row whose completion marker reads data-bearing ends a newest-snapshot walk. -/
theorem Closes.row_ends (closes : Closes (editWorld allowed) key listed (· = true) closed)
    (holds : closed s) (about : row.1.bytes = key) (among : listed row.2)
    (runs : RowRuns noObserver .newestSnapshotWins (editWorld allowed) s state row events s' state') :
    state'.terminated = true := by
  have refuted : ∀ {asked calls},
      AskedOn noObserver .newestSnapshotWins (editWorld allowed) s state row calls asked →
        state'.terminated = true := fun on => absurd on (closes.not_asked holds about among)
  cases runs with
  | superseded | unreadable | dataSeal | flagRefused => rfl
  | journalResolved live resolved => cases resolved
  | emptySeal opens unknown =>
    obtain ⟨_, rfl, read⟩ := closes.opens holds about among opens
    cases read
  | silent asks => exact refuted asks.on
  | short exports | importFlagRefused exports | shortAfterFlag exports => exact refuted exports.on
  | beginRefused engages | notReadBack engages => exact refuted engages.on
  | offered begins => exact refuted begins.on

theorem RowCall.harmless {request : Request} (call : RowCall row.1 request)
    (other : row.1.bytes ≠ key) : Harmless key request := by
  cases request with
  | recordMarker predecessor marker =>
    intro same
    exact other (call ▸ same)
  | writeSecret item => exact call.2
  | _ => trivial

theorem JournalCall.harmless {request : Request} (call : JournalCall request) :
    Harmless key request := by
  cases request with
  | recordMarker | writeSecret => exact call.elim
  | _ => trivial

end Row

section Walk

variable {s s' : Store} {state state' : WalkState Unit} {visits : List Visit}

theorem Closes.steps (closes : Closes (editWorld allowed) key listed kind closed) {events : History}
    (steps : Steps (editWorld allowed) s events s') (harmless : Only (Harmless key) events)
    (holds : closed s) : closed s' :=
  steps.frame harmless (fun _ _ _ _ allowed call kept => closes.keeps allowed call kept) holds

/-- Every visit leaves a closed key closed, and only reads for that key itself. -/
theorem Closes.visited (closes : Closes (editWorld allowed) key listed kind closed) (holds : closed s)
    (run : Visits noObserver .newestSnapshotWins (editWorld allowed) s state visits s' state')
    (numbered : ∀ visit ∈ visits, visit.row.1.bytes = key → listed visit.row.2) :
    ∀ visit ∈ visits, Only (Harmless key) visit.calls ∧ Only (RowCall visit.row.1) visit.calls ∧
      (visit.row.1.bytes = key → Only JournalCall visit.calls) := by
  induction run with
  | nil => simp
  | @cons s s₁ _ state state₁ _ visit visits round pushed rest ih =>
    have runs := rowRuns_of_executes round
    have calls := runs.calls quiet_noObserver
    have reads : visit.row.1.bytes = key → Only JournalCall visit.calls := fun about =>
      closes.row_reads holds about (numbered visit (List.mem_cons_self ..) about) runs
    have harmless : Only (Harmless key) visit.calls := by
      by_cases about : visit.row.1.bytes = key
      · exact (reads about).mono fun _ => JournalCall.harmless
      · exact calls.mono fun _ call => call.harmless about
    intro other member
    rcases List.mem_cons.mp member with rfl | member
    · exact ⟨harmless, calls, reads⟩
    · exact ih (closes.steps round.steps harmless holds)
        (fun visit among => numbered visit (List.mem_cons_of_mem _ among)) other member

/-- From the visit of a key closed with data on, no visit offers anything. -/
theorem Closes.visits_end (closes : Closes (editWorld allowed) key listed (· = true) closed)
    (holds : closed s)
    (run : Visits noObserver .newestSnapshotWins (editWorld allowed) s state visits s' state')
    (numbered : ∀ visit ∈ visits, visit.row.1.bytes = key → listed visit.row.2)
    {before after : List Visit} {visit : Visit} (split : visits = before ++ visit :: after)
    (about : visit.row.1.bytes = key) : ∀ other ∈ visit :: after, ¬ other.Offers := by
  induction run generalizing before with
  | nil => simp at split
  | @cons s s₁ _ state state₁ _ first rest' round pushed rest ih =>
    have runs := rowRuns_of_executes round
    cases before with
    | nil =>
      obtain ⟨rfl, rfl⟩ := List.cons.inj split
      have among := numbered first (List.mem_cons_self ..) about
      have ended := closes.row_ends holds about among runs
      rintro other member ⟨item, answer, offered⟩
      rcases List.mem_cons.mp member with rfl | later
      · exact closes.row_reads holds about among runs _ offered
      · rw [visits_after_end rest ended other later] at offered
        cases offered
    | cons head before =>
      obtain ⟨rfl, tail⟩ := List.cons.inj split
      have whole := closes.visited holds (.cons round pushed rest) numbered
      have harmless := (whole first (List.mem_cons_self ..)).1
      exact ih (closes.steps round.steps harmless holds)
        (fun visit among => numbered visit (List.mem_cons_of_mem _ among)) tail

end Walk

def Lists (key : Fixed 32) (listed : UInt32 → Prop) (lineage : List DelegateLineageEntry) : Prop :=
  ∀ e ∈ lineage, e.delegateKey = key → listed e.generation

structure SnapshotRun (allowed : Store → Store → Prop) (lineage : List DelegateLineageEntry)
    (store : Store) (events : History) (visits : List Visit) : Prop where
  visited : ∃ ended, ∃ outcome : WalkState Unit,
    Visits noObserver .newestSnapshotWins (editWorld allowed) store (.start ()) visits ended outcome
  ordered : InNewestOrder lineage (visits.map Visit.row)
  calls : events <+: (visits.map Visit.calls).flatten

theorem Closes.run (closes : Closes (editWorld allowed) key listed kind closed)
    (quiet : ∀ store, allowed store store) (holds : closed store)
    {lineage : List DelegateLineageEntry} (numbered : Lists key listed lineage) {events : History}
    (run : Reaches (editWorld allowed) store (migrateDelegateSecrets lineage .newestSnapshotWins) events
      final) :
    closed final ∧ ∃ visits : List Visit, SnapshotRun allowed lineage store events visits ∧
      (∀ visit ∈ visits, Only (RowCall visit.row.1) visit.calls ∧
        (visit.row.1.bytes = key → Only JournalCall visit.calls)) ∧
      ∀ visit ∈ visits, visit.row.1.bytes = key → listed visit.row.2 := by
  obtain ⟨visits, more, ended, outcome, ordered, same, visited⟩ :=
    visits_of_reaches (editWorld_total quiet) run
  have among : ∀ visit ∈ visits, visit.row.1.bytes = key → listed visit.row.2 := by
    intro visit member about
    have listedRow := ordered.perm.mem_iff.mp (List.mem_map_of_mem member)
    obtain ⟨e, member, row⟩ := List.mem_map.mp listedRow
    rw [← row] at about ⊢
    exact numbered e member about
  have facts := closes.visited holds visited among
  have harmless : Only (Harmless key) (events ++ more) := by
    rw [same]
    intro event member
    obtain ⟨visit, among, within⟩ := mem_visitCalls.mp member
    exact (facts visit among).1 event within
  exact ⟨closes.steps run.steps (only_append.mp harmless).1 holds, visits,
    ⟨⟨ended, outcome, visited⟩, ordered, ⟨more, same⟩⟩, fun visit member => (facts visit member).2,
    among⟩

/-- Any use of one successor store under the newest-snapshot policy: runs over any lineages, cut
    short or not, and the app's own edits. -/
inductive Uses (allowed : Store → Store → Prop) :
    Store → List (List DelegateLineageEntry) → Store → Prop
  | nil (store : Store) : Uses allowed store [] store
  | edit {store edited final : Store} {lineages : List (List DelegateLineageEntry)}
      (edit : AppEdit store edited) (within : allowed store edited)
      (rest : Uses allowed edited lineages final) : Uses allowed store lineages final
  | run {store after final : Store} {lineage : List DelegateLineageEntry} {events : History}
      {lineages : List (List DelegateLineageEntry)}
      (run : Reaches (editWorld allowed) store (migrateDelegateSecrets lineage .newestSnapshotWins) events
        after)
      (rest : Uses allowed after lineages final) : Uses allowed store (lineage :: lineages) final

theorem Closes.uses (closes : Closes (editWorld allowed) key listed kind closed)
    (quiet : ∀ store, allowed store store) {lineages : List (List DelegateLineageEntry)}
    (history : Uses allowed store lineages final)
    (numbered : ∀ lineage ∈ lineages, Lists key listed lineage) (holds : closed store) :
    closed final := by
  induction history with
  | nil => exact holds
  | @edit store edited _ _ edit within rest ih =>
    -- An edit is what comes before a call that does nothing.
    have read : editWorld allowed store .loadJournal (.ok none) edited :=
      ⟨within, edited, edit, .inl rfl⟩
    exact ih numbered (closes.keeps (by trivial) read holds)
  | run run rest ih =>
    have after := (closes.run quiet holds (numbered _ (List.mem_cons_self ..)) run).1
    exact ih (fun lineage among => numbered lineage (List.mem_cons_of_mem _ among)) after

def CallsOn (key : Fixed 32) : Request → Prop
  | .probeVerdict predecessor => predecessor.bytes = key
  | .fetchSecrets predecessor => predecessor.bytes = key
  | .writeSecret item => item.predecessor.bytes = key
  | _ => False

theorem JournalCall.not_callsOn {request : Request} (call : JournalCall request) :
    ¬ CallsOn key request := by
  intro on
  cases request <;> first | exact call | exact on

theorem RowCall.key_of_callsOn {request : Request} {asked : DelegateKey}
    (call : RowCall asked request) (on : CallsOn key request) : asked.bytes = key := by
  cases request with
  | probeVerdict | fetchSecrets =>
    rw [← call]
    exact on
  | writeSecret item =>
    rw [← call.1]
    exact on
  | _ => exact on.elim

/-- A data-bearing reading comes from an own marker, or from a bridged one. -/
theorem closed_of_read {predecessor : DelegateKey} {generation : UInt32}
    (read : SecretStoreIo.migrationMarker store ⟨predecessor, generation, .atOrAboveGeneration⟩ =
      some (.done true)) :
    (OwnSeal store predecessor ∧ ∃ value, getSecret store (predDoneMarker predecessor) = some value ∧
      (value != PRED_DONE_MARKER_VALUE_EMPTY) = true) ∨
    Bridged predecessor (fun listed => legacyGenerationMigrated store listed = true) store := by
  rcases SecretStoreIo.migrationMarker_cases store ⟨predecessor, generation, .atOrAboveGeneration⟩ with
    ⟨-, other⟩ | ⟨upheld, value, stored, same⟩ | ⟨unsealed, -⟩
  · rw [read] at other
    cases other
  · rw [read] at same
    have data : (value != PRED_DONE_MARKER_VALUE_EMPTY) = true := by simpa using same.symm
    exact .inl ⟨⟨by rw [stored]; rfl, upheld⟩, value, stored, data⟩
  · exact .inr ⟨unsealed, fun _ => id⟩

/-- Once a predecessor reads as completed with data, no later run that lists it offers anything of
    it or of what comes after it: by its own completion marker whatever is done to the store, by a
    bridged one where that takes no seal out of the enumeration and the lineages list the predecessor
    under generations that the seal covers. And a predecessor with its own completion marker is never
    asked and never written from again. -/
theorem no_resurrection [ExactSecretStore Store] (quiet : ∀ store, allowed store store)
    {lineages : List (List DelegateLineageEntry)} {lineage : List DelegateLineageEntry} {later : Store}
    {events : History} (history : Uses allowed store lineages later)
    (run : Reaches (editWorld allowed) later (migrateDelegateSecrets lineage .newestSnapshotWins) events
      final) :
    (∀ g : DelegateLineageEntry,
      SecretStoreIo.migrationMarker store
        ⟨lineageKey g, g.generation, .atOrAboveGeneration⟩ = some (.done true) →
      (OwnSeal store (lineageKey g) ∨
        (∀ before after : Store, allowed before after → KeepsSeals before after) ∧
        ∀ listing ∈ lineage :: lineages,
          Lists g.delegateKey (fun listed => legacyGenerationMigrated store listed = true) listing) →
      ∃ visits : List Visit, SnapshotRun allowed lineage later events visits ∧
        ∀ before visit after, visits = before ++ visit :: after →
          visit.row.1.bytes = g.delegateKey → ∀ other ∈ visit :: after, ¬ other.Offers) ∧
    ∀ p : DelegateKey, OwnSeal store p → Only (fun request => ¬ CallsOn p.bytes request) events := by
  have ends : ∀ {key listed} {closed : Store → Prop},
      Closes (editWorld allowed) key listed (· = true) closed → closed store →
      (∀ listing ∈ lineage :: lineages, Lists key listed listing) →
      ∃ visits : List Visit, SnapshotRun allowed lineage later events visits ∧
        ∀ before visit after, visits = before ++ visit :: after →
          visit.row.1.bytes = key → ∀ other ∈ visit :: after, ¬ other.Offers := by
    intro key listed closed closes holds numbered
    have still := closes.uses quiet history
      (fun listing among => numbered listing (List.mem_cons_of_mem _ among)) holds
    obtain ⟨-, visits, snapshot, -, among⟩ :=
      closes.run quiet still (numbered lineage (List.mem_cons_self ..)) run
    obtain ⟨ended, outcome, visited⟩ := snapshot.visited
    exact ⟨visits, snapshot, fun before visit after split about =>
      closes.visits_end still visited among split about⟩
  constructor
  · intro g read stable
    rcases closed_of_read read with ⟨own, value, stored, data⟩ | bridged
    · have closes : Closes (editWorld allowed) _ _ _ _ := closes_own (lineageKey g) value
      rw [data] at closes
      exact ends closes ⟨own, stored⟩ fun _ _ _ _ _ => trivial
    · rcases stable with own | ⟨seals, covered⟩
      · rw [OwnSeal, bridged.unsealed] at own
        cases own.1
      · exact ends (closes_bridged (seals _ _) (lineageKey g) _) bridged covered
  · intro p own
    obtain ⟨value, stored⟩ := Option.isSome_iff_exists.mp own.1
    have closes : Closes (editWorld allowed) _ _ _ _ := closes_own p value
    have still := closes.uses quiet history (fun _ _ _ _ _ => trivial) ⟨own, stored⟩
    obtain ⟨-, visits, snapshot, calls, -⟩ := closes.run quiet still (fun _ _ _ => trivial) run
    intro event member on
    obtain ⟨visit, among, within⟩ := mem_visitCalls.mp (snapshot.calls.subset member)
    obtain ⟨own, reads⟩ := calls visit among
    by_cases about : visit.row.1.bytes = p.bytes
    · exact (reads about _ within).not_callsOn on
    · exact about ((own _ within).key_of_callsOn on)

/-- A predecessor of generation 2 that holds one secret, over one of generation 1 that holds it too. -/
def sampleExports (_ : DelegateKey) : List SecretPair := [([1], [2])]

def sampleImport : Migration (List PredecessorMigration) :=
  migrateDelegateSecrets [sampleEntry 2] .newestSnapshotWins

def sampleStore : MemStore := (sampleImport.run (storeHandler sampleExports) ⟨[], []⟩).2.1

def sampleDeleted : MemStore := sampleStore.keep (· != [1])

def sampleRerun : Migration (List PredecessorMigration) :=
  migrateDelegateSecrets [sampleEntry 1, sampleEntry 2] .newestSnapshotWins

theorem sampleDeleted_edit : AppEdit sampleStore sampleDeleted := by
  intro key reserved
  apply MemStore.getSecret_keep
  rw [bne_iff_ne]
  rintro rfl
  revert reserved
  decide

def bridgedStore : MemStore := ⟨[(doneMarker 2, ascii "1")], []⟩

theorem reaches_alone {Store : Type} [SecretStore Store] {allowed : Store → Store → Prop}
    (exports : DelegateKey → List SecretPair)
    (within : ∀ store request, allowed store (storeHandler exports store request).2) (start : Store)
    (program : Migration (List PredecessorMigration)) :
    Reaches (editWorld allowed) start program (program.run (storeHandler exports) start).1
      (program.run (storeHandler exports) start).2.1 :=
  (executes_run (fun store request => editWorld_alone (within store request)
    (soleWorld_storeHandler exports store request)) start).reaches

theorem keepsSeals_storeHandler {Store : Type} [SecretStore Store] [LawfulSecretStore Store]
    (exports : DelegateKey → List SecretPair) (store : Store) (request : Request) :
    KeepsSeals store (storeHandler exports store request).2 := by
  have call : editWorld (fun _ _ => True) store request _ _ :=
    editWorld_alone trivial (soleWorld_storeHandler exports store request)
  exact keepsSeals_of_lawful call

theorem no_resurrection_deleted :
    (∃ visits : List Visit,
      SnapshotRun (fun _ _ => True) [sampleEntry 1, sampleEntry 2] sampleDeleted
        (sampleRerun.run (storeHandler sampleExports) sampleDeleted).1 visits ∧
      ∀ before visit after, visits = before ++ visit :: after →
        visit.row.1.bytes = (sampleEntry 2).delegateKey →
          ∀ other ∈ visit :: after, ¬ other.Offers) ∧
    Only (fun request => ¬ CallsOn (sampleEntry 2).delegateKey request)
      (sampleRerun.run (storeHandler sampleExports) sampleDeleted).1 ∧
    ∃ visits : List Visit,
      SnapshotRun KeepsSeals [sampleEntry 1, sampleEntry 2] bridgedStore
        (sampleRerun.run (storeHandler sampleExports) bridgedStore).1 visits ∧
      ∀ before visit after, visits = before ++ visit :: after →
        visit.row.1.bytes = (sampleEntry 2).delegateKey →
          ∀ other ∈ visit :: after, ¬ other.Offers := by
  have own : OwnSeal sampleStore (lineageKey (sampleEntry 2)) := by
    unfold OwnSeal
    decide +kernel
  have history : Uses (fun _ _ => True) sampleStore [] sampleDeleted :=
    .edit sampleDeleted_edit trivial (.nil _)
  have facts := no_resurrection (fun _ => trivial) history
    (reaches_alone sampleExports (fun _ _ => trivial) sampleDeleted sampleRerun)
  have bridged := no_resurrection KeepsSeals.refl (.nil bridgedStore)
    (reaches_alone sampleExports (keepsSeals_storeHandler sampleExports) bridgedStore sampleRerun)
  have covered : ∀ listing ∈ [[sampleEntry 1, sampleEntry 2]], Lists (sampleEntry 2).delegateKey
      (fun listed => legacyGenerationMigrated bridgedStore listed = true) listing := by
    intro listing member e listed about
    obtain rfl := List.mem_singleton.mp member
    rcases List.mem_pair.mp listed with rfl | rfl
    · exact absurd about (by decide)
    · decide +kernel
  exact ⟨facts.1 (sampleEntry 2) (by decide +kernel) (.inl own), facts.2 _ own,
    bridged.1 (sampleEntry 2) (by decide +kernel) (.inr ⟨fun _ _ => id, covered⟩)⟩

section LostSeals

/-- A scope that the host enumerates from the key registered last. -/
structure RecentScope where
  scope : HostScope

instance : SecretStore RecentScope where
  listSecrets recent start :=
    (recent.scope.registered.reverse.take HOST_ENUMERATION_CAP).filter fun key => start.isPrefixOf key
  getSecret recent key := recent.scope.values key
  hasSecret recent key := (recent.scope.values key).isSome
  setSecret recent key value := (true, ⟨recent.scope.set key value⟩)

theorem RecentScope.listSecrets_nil (recent : RecentScope) :
    listSecrets recent [] = recent.scope.registered.reverse.take HOST_ENUMERATION_CAP :=
  List.filter_eq_self.mpr fun _ _ => rfl

instance : HostSecretStore RecentScope where
  hasSecret_eq _ _ := rfl
  getSecret_other _ _ _ _ differs := if_neg differs
  getSecret_set _ _ _ _ := if_pos rfl
  getSecret_refused _ _ _ refused := by cases refused
  length_listSecrets recent := by
    rw [RecentScope.listSecrets_nil]
    exact List.length_take_le _ _
  held_of_listed recent key listed := by
    rw [RecentScope.listSecrets_nil] at listed
    exact (recent.scope.registers key).mp (List.mem_reverse.mp (List.mem_of_mem_take listed))
  listed_of_held recent key short held := by
    rw [RecentScope.listSecrets_nil, List.length_take] at short
    rw [RecentScope.listSecrets_nil, List.take_of_length_le (by omega), List.mem_reverse]
    exact (recent.scope.registers key).mpr held
  listSecrets_eq recent start := by
    rw [RecentScope.listSecrets_nil]
    rfl

def markedBefore (marker : Bytes) (apps : List Bytes) : RecentScope where
  scope :=
    { registered := marker :: apps
      values key := if key = marker then some (ascii "1") else if key ∈ apps then some [] else none
      registers key := by
        by_cases own : key = marker
        · simp [own]
        · by_cases held : key ∈ apps <;> simp [own, held] }

variable {apps : List Bytes} {marker : Bytes}

theorem markedBefore_edit (plain : ∀ key ∈ apps, isMarker key = false) :
    AppEdit (markedBefore marker []) (markedBefore marker apps) := by
  intro key reserved
  have free : key ∉ apps := by
    intro app
    rw [plain key app] at reserved
    cases reserved
  change (if key = marker then some (ascii "1") else if key ∈ apps then some [] else none) =
    if key = marker then some (ascii "1") else if key ∈ [] then some [] else none
  rw [if_neg free, if_neg List.not_mem_nil]

/-- As many of the app's keys as the host enumerates hide the marker before them. -/
theorem markedBefore_unseen (many : apps.length = HOST_ENUMERATION_CAP)
    (plain : ∀ key ∈ apps, isMarker key = false) (generation : UInt32) :
    legacyGenerationMigrated (markedBefore marker apps) generation = false := by
  have enumerated : listSecrets (markedBefore marker apps) [] = apps.reverse := by
    rw [RecentScope.listSecrets_nil]
    change (marker :: apps).reverse.take HOST_ENUMERATION_CAP = _
    rw [List.reverse_cons, ← many, ← List.length_reverse, List.take_left]
  have unlisted : listSecrets (markedBefore marker apps) DONE_PREFIX = [] := by
    rw [HostSecretStore.listSecrets_eq, enumerated, List.filter_eq_nil_iff]
    intro key app starts
    have reserved := isMarker_of_done (List.isPrefixOf_iff_prefix.mp starts)
    rw [plain key (List.mem_reverse.mp app)] at reserved
    cases reserved
  unfold legacyGenerationMigrated newestCompletedGeneration completedGenerations
  rw [unlisted]
  rfl

theorem markedBefore_free {key : Bytes} (other : key ≠ marker) (free : key ∉ apps) :
    getSecret (markedBefore marker apps) key = none := by
  change (if key = marker then some (ascii "1") else if key ∈ apps then some [] else none) = none
  rw [if_neg other, if_neg free]

/-- Hidden, the marker no longer bridges a predecessor that has no marker of its own. -/
theorem migrationMarker_unseen (many : apps.length = HOST_ENUMERATION_CAP)
    (plain : ∀ key ∈ apps, isMarker key = false) (generation : UInt32) (p : DelegateKey) :
    SecretStoreIo.migrationMarker (markedBefore (doneMarker generation) apps)
      ⟨p, generation, .atOrAboveGeneration⟩ = none := by
  have free : ∀ own : MigrationMarker, getSecret (markedBefore (doneMarker generation) apps)
      (SecretStoreIo.markerKey p own) = none := by
    intro own
    apply markedBefore_free
    · intro same
      have starts : DONE_PREFIX <+: SecretStoreIo.markerKey p own :=
        same ▸ List.prefix_append DONE_PREFIX _
      cases own with
      | inProgress => exact not_done_prefix_predWipMarker p starts
      | done => exact not_done_prefix_predDoneMarker p starts
    · intro app
      have reserved := isMarker_markerKey p own
      rw [plain _ app] at reserved
      cases reserved
  have done : getSecret _ (predDoneMarker p) = none := free (.done true)
  have wip : getSecret _ (predWipMarker p) = none := free (.inProgress true)
  unfold SecretStoreIo.migrationMarker emptySealContradicted
  simp only [done, wip, markedBefore_unseen many plain generation]
  rfl

/-- A run that reads no marker of its one predecessor writes what that exports. -/
theorem reaches_write {e : DelegateLineageEntry} {store : RecentScope} {key value : Bytes}
    (own : isMarker key = false) (free : getSecret store key = none)
    (unread : SecretStoreIo.migrationMarker store
      ⟨lineageKey e, e.generation, .atOrAboveGeneration⟩ = none) :
    ∃ events final, Reaches (editWorld (fun _ _ => True)) store
        (migrateDelegateSecrets [e] .newestSnapshotWins) events final ∧
      ⟨.writeSecret ⟨lineageKey e, e.generation, key, value, false⟩, .written⟩ ∈ events ∧
      getSecret final key = some value := by
  let world : World Request Answer RecentScope := editWorld fun _ _ => True
  let begun : RecentScope := ⟨store.scope.set (predWipMarker (lineageKey e)) PRED_DONE_MARKER_VALUE_DATA⟩
  let landed : RecentScope := ⟨begun.scope.set key value⟩
  let item : RecoveredSecret := ⟨lineageKey e, e.generation, key, value, false⟩
  have read : world store
      (.migrationMarker ⟨lineageKey e, e.generation, .atOrAboveGeneration⟩) (.ok none) store :=
    editWorld_alone trivial ⟨congrArg Except.ok unread.symm, rfl⟩
  have probed : world store (.probeVerdict (lineageKey e)) (.ok .executable) store :=
    editWorld_alone trivial rfl
  have fetched : world store (.fetchSecrets (lineageKey e)) (.ok [(key, value)]) store :=
    editWorld_alone trivial rfl
  have intent : world store (.recordMarker (lineageKey e) (.inProgress true)) (.ok ()) begun :=
    editWorld_alone trivial rfl
  have apart : key ≠ predWipMarker (lineageKey e) := by
    rintro rfl
    have reserved := isMarker_markerKey (lineageKey e) (.inProgress true)
    change isMarker (predWipMarker (lineageKey e)) = true at reserved
    rw [own] at reserved
    cases reserved
  have absent : hasSecret begun key = false := by
    rw [ExactSecretStore.hasSecret_eq]
    change (if key = predWipMarker (lineageKey e) then _ else getSecret store key).isSome = false
    rw [if_neg apart, free]
    rfl
  have written : world begun (.writeSecret item) .written landed := by
    apply editWorld_alone trivial
    change (ItemWrite.written, landed) = SecretStoreIo.writeSecret begun item
    unfold SecretStoreIo.writeSecret
    rw [if_neg (by rw [absent]; exact Bool.false_ne_true)]
    rfl
  have offered : offerable noObserver [(key, value)] = [(key, value)] := by
    simp [offerable, own, noObserver]
  have judged : judgeExport noObserver .newestSnapshotWins (.start ())
      ⟨lineageKey e, e.generation, none, false, false⟩ [(key, value)] =
      beginImport .newestSnapshotWins (.start ()) ⟨lineageKey e, e.generation, none, false, false⟩
        [(key, value)] true := by
    unfold judgeExport
    rw [offered]
    rfl
  have judging : Reaches world store
      ((judgeExport noObserver .newestSnapshotWins (.start ())
        ⟨lineageKey e, e.generation, none, false, false⟩ [(key, value)] >>= pure) >>= fun outcome =>
          pure outcome.results)
      [⟨.recordMarker (lineageKey e) (.inProgress true), .ok ()⟩, ⟨.writeSecret item, .written⟩]
      landed := by
    rw [judged]
    exact .call intent (.call written (.here _ _))
  exact ⟨_, landed, .call read (.call probed (.call fetched judging)), by simp [item], if_pos rfl⟩

/-- The older import completed generation 5 here, and an import of generation 4 had begun after that
    one's export was once empty. -/
def relistedStore : MemStore :=
  ⟨[(doneMarker 5, ascii "1"),
    (predDoneMarker (lineageKey (sampleEntry 4)), PRED_DONE_MARKER_VALUE_EMPTY),
    (predWipMarker (lineageKey (sampleEntry 4)), PRED_DONE_MARKER_VALUE_DATA)], []⟩

def relistedImport : Migration (List PredecessorMigration) :=
  migrateDelegateSecrets [{ sampleEntry 5 with generation := 9 }, sampleEntry 5, sampleEntry 4]
    .newestSnapshotWins

def olderExports (p : DelegateKey) : List SecretPair :=
  if p = lineageKey (sampleEntry 4) then [([1], [2])] else []

/-- Two predecessors that read as completed with data, by a marker of the older import alone. The app
    then fills what the host enumerates, and the first one's secret is written again; and the second
    one is listed under a later generation too, exports nothing there, and what comes after it is
    written. -/
theorem bridged_seal_lost :
    (∃ store edited : RecentScope, AppEdit store edited ∧
      SecretStoreIo.migrationMarker store ⟨lineageKey (sampleEntry 2), 2, .atOrAboveGeneration⟩ =
        some (.done true) ∧
      getSecret edited [1] = none ∧
      ∃ events final, Reaches (editWorld (fun _ _ => True)) edited
          (migrateDelegateSecrets [sampleEntry 2] .newestSnapshotWins) events final ∧
        ⟨.writeSecret ⟨lineageKey (sampleEntry 2), 2, [1], [2], false⟩, .written⟩ ∈ events ∧
        getSecret final [1] = some [2]) ∧
    SecretStoreIo.migrationMarker relistedStore ⟨lineageKey (sampleEntry 5), 5, .atOrAboveGeneration⟩ =
      some (.done true) ∧
    getSecret relistedStore [1] = none ∧
    ∃ events final, Reaches (editWorld KeepsSeals) relistedStore relistedImport events final ∧
      .writeSecret ⟨lineageKey (sampleEntry 4), 4, [1], [2], true⟩ ∈ events.map Event.request ∧
      getSecret final [1] = some [2] := by
  have free : getSecret (markedBefore (doneMarker 2) appKeys) [1] = none :=
    markedBefore_free (by decide) not_mem_appKeys
  refine ⟨⟨markedBefore (doneMarker 2) [], markedBefore (doneMarker 2) appKeys,
    markedBefore_edit not_isMarker_appKeys, by decide +kernel, free, ?_⟩, by decide +kernel,
    by decide +kernel, ?_⟩
  · exact reaches_write (by decide) free
      (migrationMarker_unseen length_appKeys not_isMarker_appKeys _ _)
  · refine ⟨_, _, reaches_alone olderExports (keepsSeals_storeHandler olderExports) relistedStore
      relistedImport, ?_, ?_⟩
    · decide +kernel
    · decide +kernel

end LostSeals

end FreenetMigrate.Migrate
