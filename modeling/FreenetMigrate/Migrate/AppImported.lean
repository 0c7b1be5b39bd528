import FreenetMigrate.Journal.Cbor
import FreenetMigrate.Migrate.AntiRollback
import FreenetMigrate.Migrate.Reachable

namespace FreenetMigrate.Migrate

open Calls Journal MigrationJournal

section EmptySeal

variable {s s' : Successor} {key : Fixed 32}

/-- A completion that says the predecessor held nothing, and that no import contradicts. -/
structure EmptySeal (key : Fixed 32) (s : Successor) : Prop where
  done : s.done key = some false
  unstarted : s.wip key ≠ some true

theorem EmptySeal.marker {query : MarkerQuery} (sealed : EmptySeal key s)
    (about : query.predecessor.bytes = key) : s.marker query = some (.done false) := by
  unfold Successor.marker
  rw [about, sealed.done]
  cases wip : s.wip key with
  | none => rfl
  | some sawData =>
    cases sawData with
    | false => rfl
    | true => exact absurd wip sealed.unstarted

theorem emptySeal_of_own {key : DelegateKey} {generation : UInt32}
    (own : s.own key generation = some (.done false)) : EmptySeal key.bytes s := by
  unfold Successor.own Successor.marker at own
  simp only at own
  cases done : s.done key.bytes with
  | none =>
    rw [done] at own
    simp only at own
    split at own
    · cases own
    · cases wip : s.wip key.bytes <;> simp [wip] at own
  | some hadData =>
    rw [done] at own
    cases hadData with
    | true => cases own
    | false =>
      refine ⟨done, ?_⟩
      intro started
      rw [started] at own
      cases own

end EmptySeal

section Shows

variable {predecessor : DelegateKey} {newer : Fixed 32 → Prop} {journal stored : MigrationJournal}
  {binding : JournalBinding}

/-- What a journal shows of an import that the app announced: it is under way, and nothing says that
    a newer predecessor held data. -/
structure Shows (predecessor : DelegateKey) (newer : Fixed 32 → Prop) (journal : MigrationJournal) :
    Prop where
  listed : (journal.state predecessor.bytes).isSome
  underway : HasTrait Underway journal predecessor.bytes
  dataless : ∀ key, newer key → HasTrait Dataless journal key

theorem Shows.rebind (shows' : Shows predecessor newer journal) (binding : JournalBinding) :
    Shows predecessor newer (journal.rebind binding) where
  listed := by
    rw [state_rebind, Option.isSome_map]
    exact shows'.listed
  underway := shows'.underway.rebind trait_underway binding
  dataless key among := (shows'.dataless key among).rebind trait_dataless binding

theorem Shows.mergeStored (ours : Shows predecessor newer journal)
    (theirs : Shows predecessor newer stored) (binding : JournalBinding) :
    Shows predecessor newer (journal.mergeStored stored (some binding)) where
  listed := by
    obtain ⟨state, found⟩ := Option.isSome_iff_exists.mp theirs.listed
    rw [state_mergeStored, found]
    rfl
  underway := ours.underway.mergeStored trait_underway theirs.underway binding
  dataless key among := (ours.dataless key among).mergeStored trait_dataless (theirs.dataless key among) binding

theorem Shows.markImportStarted (shows' : Shows predecessor newer journal) {other : DelegateKey}
    (generation : UInt32) (apart : other.bytes ≠ predecessor.bytes) (older : ¬ newer other.bytes) :
    Shows predecessor newer (journal.markImportStarted other generation).1 where
  listed := by
    rw [state_markImportStarted, if_neg apart]
    exact shows'.listed
  underway := shows'.underway.markImportStarted generation fun same => absurd same apart
  dataless key among := (shows'.dataless key among).markImportStarted generation
    fun same => absurd (same ▸ among) older

theorem Shows.flag {watch : JournalWatch} (shows' : Shows predecessor newer watch.journal)
    (apart : ¬ newer predecessor.bytes) (generation : UInt32) (items : Option UInt32) :
    Shows predecessor newer (watch.flag predecessor generation items).1 where
  listed := by
    rw [JournalWatch.state_flag, if_pos rfl]
    rfl
  underway := by
    intro state found
    rw [JournalWatch.state_flag, if_pos rfl] at found
    obtain rfl := Option.some.inj found
    obtain ⟨before, held⟩ := Option.isSome_iff_exists.mp shows'.listed
    have underway := shows'.underway before held
    refine underway_flagState ?_
    intro resolution same
    rw [current_of_state held] at same
    rw [same] at underway
    exact underway.elim
  dataless key among := by
    refine (shows'.dataless key among).of_state ?_
    rw [JournalWatch.state_flag, if_neg]
    rintro rfl
    exact apart among

structure Beside (predecessor : DelegateKey) (newer : Fixed 32 → Prop) (journal : MigrationJournal) :
    Prop where
  unlisted : journal.state predecessor.bytes = none
  dataless : ∀ key, newer key → HasTrait Dataless journal key

theorem Beside.mergeStored (beside : Beside predecessor newer journal)
    (theirs : Shows predecessor newer stored) (binding : JournalBinding) :
    Shows predecessor newer (journal.mergeStored stored (some binding)) where
  listed := by
    obtain ⟨state, found⟩ := Option.isSome_iff_exists.mp theirs.listed
    rw [state_mergeStored, found]
    rfl
  underway := by
    refine HasTrait.mergeStored trait_underway ?_ theirs.underway binding
    intro state found
    rw [beside.unlisted] at found
    cases found
  dataless key among :=
    (beside.dataless key among).mergeStored trait_dataless (theirs.dataless key among) binding

theorem Beside.markImportStarted (beside : Beside predecessor newer journal) {other : DelegateKey}
    (generation : UInt32) (apart : other.bytes ≠ predecessor.bytes) (older : ¬ newer other.bytes) :
    Beside predecessor newer (journal.markImportStarted other generation).1 where
  unlisted := by
    rw [state_markImportStarted, if_neg apart]
    exact beside.unlisted
  dataless key among := (beside.dataless key among).markImportStarted generation
    fun same => absurd (same ▸ among) older

theorem Beside.record (beside : Beside predecessor newer journal) {other : DelegateKey}
    (generation : UInt32) {outcome : RunOutcome} (apart : other.bytes ≠ predecessor.bytes)
    (said : newer other.bytes → outcome = .resolved .noData) :
    Beside predecessor newer (journal.record other generation outcome) where
  unlisted := by
    rw [state_record, if_neg apart]
    exact beside.unlisted
  dataless key among := by
    refine (beside.dataless key among).record generation ?_
    intro same
    have current := (beside.dataless key among).current ⟨rfl, rfl⟩
    obtain rfl := said (same ▸ among)
    exact trait_dataless.merge current (by cases journal.current key <;> rfl)

theorem beside_newPending {entries : List DelegateLineageEntry}
    (unlisted : ∀ e ∈ entries, e.delegateKey ≠ predecessor.bytes) :
    Beside predecessor newer (newPending entries) where
  unlisted := by
    cases found : (newPending entries).state predecessor.bytes with
    | none => rfl
    | some state =>
      obtain ⟨-, e, member, same⟩ := state_newPending found
      exact absurd same (unlisted e member)
  dataless key _ := hasTrait_newPending ⟨rfl, rfl⟩ entries key

end Shows

def Answered : (request : Request) → Answer request → Prop
  | .migrationMarker _, .error _ => False
  | .recordMarker _ _, .error _ => False
  | .loadJournal, .error _ => False
  | .storeJournal _, .error _ => False
  | _, _ => True

def answeringWorld : World Request Answer Successor := fun before request answer after =>
  Answered request answer ∧ successorWorld before request answer after

section Announced

variable [Ciborium] {policy : SecretSelectionPolicy} {predecessor : DelegateKey}
  {generation : UInt32} {newer : Fixed 32 → Prop} {s s' : Successor}

structure Announced (policy : SecretSelectionPolicy) (predecessor : DelegateKey)
    (generation : UInt32) (newer : Fixed 32 → Prop) (s : Successor) : Prop where
  stored : ∃ journal, storedJournal s.journal = some journal ∧ Shows predecessor newer journal
  intent : s.marker ⟨predecessor, generation, policy.legacyBridge⟩ = some (.inProgress true)
  sealed : ∀ key, newer key → EmptySeal key s

omit [Ciborium] in
theorem answered_marker {query : MarkerQuery} {answer : Answer (.migrationMarker query)}
    (made : answeringWorld s (.migrationMarker query) answer s') :
    answer = .ok (s.marker query) ∧ s' = s := by
  cases answer with
  | error e => exact made.1.elim
  | ok marker => exact ⟨congrArg Except.ok made.2.1, made.2.2⟩

theorem Announced.stores {merged : MigrationJournal} {answer : Except String Unit}
    [LawfulCiborium] (announced : Announced policy predecessor generation newer s)
    (shows' : Shows predecessor newer merged)
    (made : answeringWorld s (.storeJournal merged.encode) answer s') :
    Announced policy predecessor generation newer s' ∧ answer = .ok () := by
  cases answer with
  | error e => exact made.1.elim
  | ok =>
    obtain rfl : s' = { s with journal := some merged.encode } := made.2
    exact ⟨⟨⟨merged, storedJournal_encode merged, shows'⟩, announced.intent,
      fun key among => ⟨(announced.sealed key among).done, (announced.sealed key among).unstarted⟩⟩, rfl⟩

variable {world : World Request Answer Successor} [LawfulCiborium]

theorem guarded_announced
    (refines : ∀ {s request answer s'}, world s request answer s' → answeringWorld s request answer s') :
    JournalGuarded world (Announced policy predecessor generation newer) (Shows predecessor newer)
      False where
  quiet := by
    intro s request answer s' announced made read
    rw [still_of_read (refines made).2 read]
    exact announced
  known := by
    intro s answer s' announced made
    obtain ⟨journal, found, -⟩ := announced.stored
    left
    cases answer with
    | error e => exact (refines made).1.elim
    | ok loaded =>
      obtain rfl : loaded = s.journal := (refines made).2.1
      obtain ⟨bytes, held, decoded⟩ := decode_of_storedJournal found
      exact ⟨bytes, journal, congrArg Except.ok held, decoded⟩
  loads := by
    intro s bytes s' stored announced made decoded
    obtain ⟨journal, found, shows'⟩ := announced.stored
    obtain same : some bytes = s.journal := (refines made).2.1
    rw [← same, storedJournal_of_decode decoded] at found
    obtain rfl := Option.some.inj found
    exact shows'
  stores := by
    intro s merged answer s' shows' announced made
    obtain ⟨kept, answered⟩ := announced.stores shows' (refines made)
    exact ⟨kept, .inl answered⟩
  merges := fun binding ours theirs => ours.mergeStored theirs binding
  rebuilds := False.elim

section Start

variable (refines : ∀ {s request answer s'}, world s request answer s' → answeringWorld s request answer s')

include refines

omit [LawfulCiborium] in
/-- A stored resolution is checked against an own marker: no newer one starts an import. -/
theorem announced_checkEntry {progress : StartProgress} (e : DelegateLineageEntry)
    (shows' : Shows predecessor newer progress.journal) :
    (checkEntry progress e).Secures world (Announced policy predecessor generation newer)
      fun progress => Shows predecessor newer progress.journal := by
  unfold checkEntry
  simp only
  split
  · rename_i unresolved
    have apart : e.delegateKey ≠ predecessor.bytes := by
      intro same
      obtain ⟨state, found⟩ := Option.isSome_iff_exists.mp shows'.listed
      have underway := shows'.underway state found
      unfold resolvedWithoutData at unresolved
      rw [entry_state, lineageKey_bytes, same, found] at unresolved
      cases state with
      | pending => cases unresolved
      | resolved => exact underway.elim
    refine secures_call ?_
    intro s answer s' announced made
    obtain ⟨rfl, rfl⟩ := answered_marker (refines made)
    refine ⟨announced, ?_⟩
    simp only
    split
    · rename_i started
      refine secures_pure (shows'.markImportStarted e.generation apart ?_)
      intro among
      have empty : s'.marker ⟨lineageKey e, e.generation, .exactGenerationOnly⟩ =
          some (.done false) := (announced.sealed e.delegateKey among).marker rfl
      rw [empty] at started
      cases started
    · exact secures_pure shows'
  · exact secures_pure shows'

omit [LawfulCiborium] in
theorem announced_seedEntry {journal : MigrationJournal} (e : DelegateLineageEntry)
    (apart : e.delegateKey ≠ predecessor.bytes) (beside : Beside predecessor newer journal) :
    (seedEntry policy journal e).run.Secures world (Announced policy predecessor generation newer)
      (Either (Beside predecessor newer) fun _ => False) := by
  refine secures_run_call ?_
  intro s answer s' announced made
  obtain ⟨rfl, rfl⟩ := answered_marker (refines made)
  refine ⟨announced, ?_⟩
  by_cases among : newer e.delegateKey
  · rw [(announced.sealed e.delegateKey among).marker (lineageKey_bytes e)]
    exact secures_run_pure (beside.record e.generation apart fun _ => rfl)
  · split
    · exact secures_run_pure (beside.markImportStarted e.generation apart among)
    · exact secures_run_pure (beside.record e.generation apart fun _ => rfl)
    · split
      · refine secures_run_call ?_
        intro s answer s' announced made
        obtain ⟨rfl, rfl⟩ := answered_marker (refines made)
        refine ⟨announced, ?_⟩
        refine secures_run_pure ?_
        unfold seedSealed
        split
        · exact beside.record e.generation apart fun among' => absurd among' among
        · exact beside.markImportStarted e.generation apart among
        · exact beside.record e.generation apart fun among' => absurd among' among
      · exact secures_run_pure (beside.record e.generation apart fun among' => absurd among' among)
    · exact secures_run_pure beside
    · rename_i failed
      cases failed

theorem announced_start {predecessors : List DelegateLineageEntry} {binding : JournalBinding} :
    (startJournal predecessors policy binding).run.Secures world
      (Announced policy predecessor generation newer)
      (Either (fun found => Shows predecessor newer found.1.journal) fun _ => False) := by
  refine secures_startJournal (guarded_announced refines)
    (fun e _ progress shows' => announced_checkEntry refines e shows') ?_
  intro journal shows'
  have unlisted : ∀ e ∈ predecessors.filter (fun e => (journal.entry (lineageKey e)).isNone),
      e.delegateKey ≠ predecessor.bytes := by
    intro e member same
    have absent := (List.mem_filter.mp member).2
    have listed := shows'.listed
    rw [← entry_state, Option.isSome_map] at listed
    have sameEntry : journal.entry (lineageKey e) = journal.entry predecessor :=
      congrArg (journal.entries[·]?) same
    rw [sameEntry, Option.isNone_iff_eq_none] at absent
    rw [absent] at listed
    cases listed
  refine (secures_run_foldlM _ (beside_newPending unlisted)
    fun e member _ beside => announced_seedEntry refines e (unlisted e member) beside).mono ?_
  intro result met
  cases result with
  | error => exact met
  | ok seeded => exact Beside.mergeStored met shows' binding

end Start

section Rows

variable {binding : JournalBinding} {predecessors : List DelegateLineageEntry} {journalKey : Bytes}
  {state : WalkState JournalWatch}

omit [LawfulCiborium] in
/-- Nothing a walk holds says that a newer predecessor held data: its empty seal is believed. -/
theorem announced_newer
    (refines : ∀ {s request answer s'}, world s request answer s' → answeringWorld s request answer s')
    {row : DelegateKey × UInt32} (among : newer row.1.bytes) (live : state.terminated = false)
    (shows' : Shows predecessor newer state.observed.journal) :
    (walkRow (journalObserver journalKey binding predecessors policy) policy state row).Secures world
      (Announced policy predecessor generation newer) fun state =>
        state.terminated = false ∧ Shows predecessor newer state.observed.journal := by
  have dataless := shows'.dataless row.1.bytes among
  have unresolved : (journalObserver journalKey binding predecessors policy).resolvedWithData
      state.observed row.1 = none := by
    simp only [journalObserver, JournalWatch.resolvedWithData, JournalWatch.stateOf, entry_state]
    cases found : state.observed.journal.state row.1.bytes with
    | none => rfl
    | some held =>
      cases held with
      | pending => rfl
      | resolved r =>
        have empty : r.isDataBearing = false := dataless _ found
        simp [empty]
  have unstarted : state.observed.importStarted row.1 = false := by
    unfold JournalWatch.importStarted JournalWatch.stateOf
    rw [entry_state]
    split
    · rename_i found
      cases (dataless _ found).1
    · rfl
  have uncounted : state.observed.journal.itemsSeen row.1 = 0 := by
    unfold MigrationJournal.itemsSeen
    rw [entry_state]
    split
    · rename_i found
      exact (dataless _ found).2
    · rfl
  have unknown : knownData (journalObserver journalKey binding predecessors policy) state row.1 =
      false := by
    simp only [knownData, journalObserver, unstarted, uncounted]
    rfl
  unfold walkRow
  simp only [live, Bool.false_eq_true, if_false, unresolved]
  refine secures_call ?_
  intro s answer s' announced made
  obtain ⟨rfl, rfl⟩ := answered_marker (refines made)
  refine ⟨announced, ?_⟩
  rw [(announced.sealed row.1.bytes among).marker rfl]
  simp only [heedMarker, unknown, Bool.not_false, Bool.or_true, if_true, alreadyMigrated,
    Bool.false_eq_true, if_false]
  refine secures_pure ⟨?_, shows'⟩
  cases policy <;> rfl

/-- The walk asks the predecessor whose import was announced. -/
theorem announced_reached
    (refines : ∀ {s request answer s'}, world s request answer s' → answeringWorld s request answer s')
    (unasked : ∀ {s answer s'}, ¬ world s (.probeVerdict predecessor) answer s')
    (apart : ¬ newer predecessor.bytes) (live : state.terminated = false)
    (shows' : Shows predecessor newer state.observed.journal) :
    (walkRow (journalObserver journalKey binding predecessors policy) policy state
      (predecessor, generation)).Secures world (Announced policy predecessor generation newer)
        fun _ => False := by
  obtain ⟨held, found⟩ := Option.isSome_iff_exists.mp shows'.listed
  have underway := shows'.underway held found
  have unresolved : (journalObserver journalKey binding predecessors policy).resolvedWithData
      state.observed predecessor = none := by
    simp only [journalObserver, JournalWatch.resolvedWithData, JournalWatch.stateOf, entry_state, found]
    cases held with
    | pending => rfl
    | resolved => exact underway.elim
  have asks : ∀ state : WalkState JournalWatch, ∀ asked : Asked, asked.key = predecessor →
      (askPredecessor (journalObserver journalKey binding predecessors policy) policy state
        asked).Secures world (Announced policy predecessor generation newer) fun _ => False := by
    rintro state asked rfl
    exact secures_call fun _ _ _ _ made => absurd made unasked
  unfold walkRow
  simp only [live, Bool.false_eq_true, if_false, unresolved]
  refine secures_call ?_
  intro s answer s' announced made
  obtain ⟨rfl, rfl⟩ := answered_marker (refines made)
  refine ⟨announced, ?_⟩
  rw [announced.intent]
  simp only [heedMarker, flagKnownData, Bool.true_or, if_true]
  have told : ((journalObserver journalKey binding predecessors policy).beforeImport state.observed
      predecessor generation none).Secures world (Announced policy predecessor generation newer)
        fun told => told.1 = .ok () := by
    simp only [journalObserver]
    split
    · exact secures_pure rfl
    · refine secures_bind (secures_storeMerged (guarded_announced refines)
        (shows'.flag apart generation none) _) ?_
      rintro ⟨stored, after⟩ ⟨-, rfl | impossible⟩
      · exact secures_pure rfl
      · exact impossible.elim
  refine secures_bind told ?_
  rintro ⟨flagged, observed⟩ rfl
  exact asks _ _ rfl

end Rows

end Announced

section Walk

variable {predecessors : List DelegateLineageEntry} {policy : SecretSelectionPolicy}

def newerKeys (predecessors : List DelegateLineageEntry) (generation : UInt32) (key : Fixed 32) :
    Prop :=
  ∃ newer ∈ predecessors, generation < newer.generation ∧ newer.delegateKey = key

/-- A lineage lists an entry once, and no other with its generation or its delegate key. -/
def ListedAlone (predecessors : List DelegateLineageEntry) (e : DelegateLineageEntry) : Prop :=
  ∃ before after, predecessors = before ++ e :: after ∧ ∀ other ∈ before ++ after,
    other.delegateKey ≠ e.delegateKey ∧ other.generation ≠ e.generation

/-- One row stands for a predecessor that is listed alone, and the rows before it are newer. -/
theorem newestFirst_split {e : DelegateLineageEntry} (alone : ListedAlone predecessors e) :
    ∃ newer older, newestFirst predecessors = newer ++ (lineageKey e, e.generation) :: older ∧
      (∀ row ∈ newer, newerKeys predecessors e.generation row.1.bytes) ∧
      ∀ row ∈ newer ++ older, row.1.bytes ≠ e.delegateKey := by
  obtain ⟨before, after, rfl, apart⟩ := alone
  have ordered := newestFirst_ordered (before ++ e :: after)
  have here : (lineageKey e, e.generation) ∈ newestFirst (before ++ e :: after) :=
    ordered.perm.mem_iff.mpr (List.mem_map_of_mem (by simp))
  obtain ⟨newer, older, split⟩ := List.append_of_mem here
  have perm := ordered.perm
  rw [split, List.map_append, List.map_cons] at perm
  have rest := (List.perm_middle.symm.trans (perm.trans List.perm_middle)).cons_inv
  rw [← List.map_append] at rest
  have among : ∀ row ∈ newer ++ older, ∃ other ∈ before ++ after,
      (lineageKey other, other.generation) = row := by
    intro row member
    exact List.mem_map.mp (rest.mem_iff.mp member)
  have sorted := ordered.newest
  rw [split] at sorted
  refine ⟨newer, older, split, ?_, ?_⟩
  · intro row member
    obtain ⟨other, inside, rfl⟩ := among row (List.mem_append_left _ member)
    have noOlder := (List.pairwise_append.mp sorted).2.2 _ member _ (List.mem_cons_self ..)
    have listed : other ∈ before ++ e :: after :=
      List.perm_middle.mem_iff.mpr (List.mem_cons_of_mem _ inside)
    exact ⟨other, listed, lt_of_le_of_ne noOlder (apart other inside).2.symm, rfl⟩
  · intro row member same
    obtain ⟨other, inside, rfl⟩ := among row member
    exact (apart other inside).1 same

theorem ListedAlone.newer_apart {e newer : DelegateLineageEntry} (alone : ListedAlone predecessors e)
    (member : newer ∈ predecessors) (later : e.generation < newer.generation) :
    newer.delegateKey ≠ e.delegateKey := by
  obtain ⟨before, after, rfl, apart⟩ := alone
  rcases List.mem_cons.mp (List.perm_middle.mem_iff.mp member) with rfl | inside
  · exact absurd later (lt_irrefl _)
  · exact (apart newer inside).1

variable [Ciborium] [LawfulCiborium] {s s' : Successor} {events : History} {journalKey : Bytes}
  {importRevision : UInt32} {report : JournaledMigrationReport}

omit [LawfulCiborium] in
theorem announced_of_shown {journal : MigrationJournal} {e : DelegateLineageEntry}
    (stored : storedJournal s.journal = some journal)
    (shown : ∃ state, journal.state e.delegateKey = some state ∧ Underway state)
    (intent : s.marker ⟨lineageKey e, e.generation, policy.legacyBridge⟩ = some (.inProgress true))
    (dataless : ∀ newer ∈ predecessors, e.generation < newer.generation →
      HasTrait Dataless journal newer.delegateKey)
    (empty : ∀ newer ∈ predecessors, e.generation < newer.generation →
      s.own (lineageKey newer) newer.generation = some (.done false)) :
    Announced policy (lineageKey e) e.generation (newerKeys predecessors e.generation) s := by
  obtain ⟨state, held, underway⟩ := shown
  refine ⟨⟨journal, stored, ?_, ?_, ?_⟩, intent, ?_⟩
  · rw [lineageKey_bytes, held]
    rfl
  · intro other same
    rw [lineageKey_bytes, held] at same
    exact Option.some.inj same ▸ underway
  · rintro key ⟨newer, member, later, rfl⟩
    exact dataless newer member later
  · rintro key ⟨newer, member, later, rfl⟩
    exact emptySeal_of_own (empty newer member later)

/-- A walk that is answered asks the predecessor whose import the app announced. -/
theorem probes_of_announced {e : DelegateLineageEntry} (alone : ListedAlone predecessors e)
    (announced : Announced policy (lineageKey e) e.generation (newerKeys predecessors e.generation) s)
    (run : Executes answeringWorld s
      (migrateDelegateSecretsJournaled journalKey importRevision predecessors policy) events s' report) :
    (∃ event ∈ events, event.request = .probeVerdict (lineageKey e)) ∧
      .superseded (lineageKey e) e.generation ∉ report.report := by
  obtain ⟨newer, older, split, newest, others⟩ := newestFirst_split alone
  have apart : ¬ newerKeys predecessors e.generation (lineageKey e).bytes := by
    rintro ⟨other, member, later, same⟩
    exact alone.newer_apart member later same
  obtain ⟨starting, s₁, found, rest, rfl, start, afterStart⟩ := executes_bind.mp run
  obtain ⟨announced₁, told⟩ := (announced_start id).executes start announced
  cases found with
  | error err => exact told.elim
  | ok found =>
    obtain ⟨started, checks⟩ := found
    obtain ⟨storing, s₂, ⟨established, journal⟩, more, rfl, establishing, afterStore⟩ :=
      executes_bind.mp afterStart
    obtain ⟨announced₂, shows', stored⟩ :=
      (secures_establish (guarded_announced id) told).executes establishing announced₁
    obtain rfl : established = .ok () := stored.resolve_right id
    obtain ⟨walking, s₃, outcome, ending, rfl, walked, concluded⟩ := executes_bind.mp afterStore
    obtain ⟨visits, rows, rfl, results, visited⟩ := visits_of_walk walked
    obtain ⟨before, others', rfl, sameNewer, sameRest⟩ := List.map_eq_append_iff.mp (rows.trans split)
    obtain ⟨visit, after, rfl, sameRow, sameOlder⟩ := List.map_eq_cons_iff.mp sameRest
    obtain ⟨s₄, state₄, s₅, state₅, walkedNewer, round, pushed, -⟩ := visited.split
    have reached : Announced policy (lineageKey e) e.generation (newerKeys predecessors e.generation) s₄ ∧
        state₄.terminated = false ∧
        Shows (lineageKey e) (newerKeys predecessors e.generation) state₄.observed.journal := by
      refine walkedNewer.invariant (fun s state => Announced policy (lineageKey e) e.generation
        (newerKeys predecessors e.generation) s ∧ state.terminated = false ∧
          Shows (lineageKey e) (newerKeys predecessors e.generation) state.observed.journal) ?_
        ⟨announced₂, rfl, shows'.rebind _⟩
      rintro s₁ s₂ state₁ state₂ visit' member step ⟨announced, live, shows'⟩
      have among := newest visit'.row (sameNewer ▸ List.mem_map_of_mem member)
      exact (announced_newer id among live shows').executes step announced
    obtain ⟨announced₄, live, shows₄⟩ := reached
    rw [sameRow] at round
    refine ⟨?_, ?_⟩
    · rcases round.until_or (fun request => request = .probeVerdict (lineageKey e)) with
        ⟨event, member, asked⟩ | unasked
      · refine ⟨event, ?_, asked⟩
        simp only [List.mem_append, mem_visitCalls]
        exact .inr (.inr (.inl ⟨visit, by simp, member⟩))
      · exact ((announced_reached (fun made => made.2) (fun made => made.1 rfl) apart live
          shows₄).executes unasked announced₄).2.elim
    · have reported : report.report = outcome.results := by
        cases concludes_of_executes concluded <;> rfl
      rw [reported, results]
      intro superseded
      obtain ⟨visit', member, same⟩ := List.mem_map.mp superseded
      obtain ⟨s₆, state₆, s₇, state₇, runs, pushed'⟩ := visited.visited member
      obtain ⟨report', alone, key, -⟩ := runs.reports
      rw [report_unique alone pushed', same] at key
      rcases List.mem_append.mp member with member | member
      · refine others visit'.row (List.mem_append_left _ ?_) (congrArg DelegateKey.bytes key).symm
        exact sameNewer ▸ List.mem_map_of_mem member
      · rcases List.mem_cons.mp member with rfl | member
        · rw [same] at pushed
          rw [(rowRuns_of_executes round).ended_of_superseded pushed] at live
          cases live
        · refine others visit'.row (List.mem_append_right _ ?_) (congrArg DelegateKey.bytes key).symm
          exact sameOlder ▸ List.mem_map_of_mem member

end Walk

section Note

def ShowsData : JournalState → Prop
  | .pending _ flag _ _ _ => flag = .started
  | .resolved r => r.isDataBearing = true

theorem not_showsData {state : JournalState} (dataless : Dataless state) :
    ¬ ShowsData state := by
  cases state with
  | pending attempts flag =>
    obtain ⟨rfl, -⟩ := dataless
    exact ImportFlag.noConfusion
  | resolved r =>
    have empty : r.isDataBearing = false := dataless
    rw [ShowsData, empty]
    exact Bool.noConfusion

/-- Where items are accounted for, a generation that holds no snapshot held no data. -/
theorem dataless_of_unheld {journal : MigrationJournal} (accounts : Accounts journal)
    {newer : DelegateLineageEntry} (unheld : holdsSnapshot journal newer = false) :
    HasTrait Dataless journal newer.delegateKey := by
  intro state found
  have accounted := accounts _ state found
  unfold holdsSnapshot at unheld
  rw [entry_state, lineageKey_bytes, found] at unheld
  cases state with
  | resolved r => exact unheld
  | pending attempts flag rejected absentStreak itemsSeen =>
    simp only [Bool.or_eq_false_iff, beq_eq_false_iff_ne, decide_eq_false_iff_not] at unheld
    obtain ⟨unstarted, unrejected⟩ := unheld
    rcases accounted with started | uncounted | rejects
    · exact absurd started unstarted
    · refine ⟨?_, uncounted⟩
      cases flag with
      | none => rfl
      | started => exact absurd rfl unstarted
    · exact absurd rejects unrejected

variable [Ciborium] [LawfulCiborium] {s s' : Successor} {events : History}
  {predecessors : List DelegateLineageEntry} {predecessor : DelegateKey}
  {policy : SecretSelectionPolicy} {importRevision : UInt32} {items : Option UInt32}
  {result : Except JournalError AppImport}

/-- An import of the app's own is flagged only where a walk would import: nothing newer holds data,
    and under the plain snapshot policy everything newer has answered that it holds nothing. Where
    the import is complete or not the app's to make, nothing is written. -/
theorem app_import_flagged_where_walk_imports (reachable : Reachable s)
    (run : Executes successorWorld s
      (noteAppImportStarted predecessors predecessor policy importRevision items).run events s' result) :
    (result = .ok .flagged → ∃ e journal,
      (predecessors.find? fun e => decide (lineageKey e = predecessor)) = some e ∧
      storedJournal s'.journal = some journal ∧
      (∃ state, journal.state predecessor.bytes = some state ∧ Underway state) ∧
      s'.own predecessor e.generation = some (.inProgress true) ∧
      (isSnapshot policy = true → ∀ newer ∈ predecessors, e.generation < newer.generation →
        newer.delegateKey ≠ predecessor.bytes →
        (∀ state, journal.state newer.delegateKey = some state → ¬ ShowsData state) ∧
          s'.own (lineageKey newer) newer.generation ≠ some (.inProgress true) ∧
          s'.own (lineageKey newer) newer.generation ≠ some (.done true)) ∧
      (policy = .newestSnapshotWins →
        (∀ newer ∈ predecessors, e.generation < newer.generation →
          newer.delegateKey ≠ predecessor.bytes →
          s'.own (lineageKey newer) newer.generation = some (.done false)) ∧
        (ListedAlone predecessors e →
          ∀ journalKey importRevision walking s'' report,
            Executes answeringWorld s' (migrateDelegateSecretsJournaled journalKey importRevision
              predecessors policy) walking s'' report →
            (∃ event ∈ walking, event.request = .probeVerdict predecessor) ∧
              .superseded predecessor e.generation ∉ report.report))) ∧
    ((result = .ok .alreadyImported ∨ ∃ why, result = .error (.notImportable why)) → s' = s) := by
  rcases note_cases run with ⟨same, other⟩ | ⟨e, held, among, found, clear, done⟩
  · exact ⟨fun flagged => absurd flagged other, fun _ => same⟩
  · refine ⟨?_, ?_⟩
    · rintro rfl
      rcases done with ⟨-, flags⟩ | ⟨err, failed, -⟩
      · obtain ⟨journal, stored, shown, traits⟩ := flags.stored
        obtain rfl : lineageKey e = predecessor := by simpa using List.find?_some among
        have unsealed : s'.marker ⟨lineageKey e, e.generation, policy.legacyBridge⟩ ≠
            some (.done true) := by
          rw [flags.intent]
          simp
        have intent := (Successor.own_of_marker unsealed).trans flags.intent
        have accounts := accounting_of_reachable reachable held found
        have unmoved : ∀ newer : DelegateLineageEntry, newer.delegateKey ≠ (lineageKey e).bytes →
            s'.own (lineageKey newer) newer.generation = s.own (lineageKey newer) newer.generation := by
          intro newer apart
          have same : SameMarker (lineageKey newer).bytes s s' := flags.others _ apart.symm
          exact same.own newer.generation
        have dataless : isSnapshot policy = true → ∀ newer ∈ predecessors,
            e.generation < newer.generation → newer.delegateKey ≠ (lineageKey e).bytes →
            HasTrait Dataless journal newer.delegateKey := by
          intro snapshot newer member later apart
          exact traits trait_dataless _ apart.symm
            (dataless_of_unheld accounts (clear snapshot newer member later).1)
        refine ⟨e, journal, among, stored, shown, intent, ?_, ?_⟩
        · intro snapshot newer member later apart
          rw [unmoved newer apart]
          have passable := (clear snapshot newer member later).2
          refine ⟨?_, passable.notStarted, passable.notSealed⟩
          intro state held
          exact not_showsData (dataless snapshot newer member later apart state held)
        · rintro rfl
          have empty : ∀ newer ∈ predecessors, e.generation < newer.generation →
              newer.delegateKey ≠ (lineageKey e).bytes →
              s'.own (lineageKey newer) newer.generation = some (.done false) := by
            intro newer member later apart
            rw [unmoved newer apart]
            exact (clear rfl newer member later).2.answered rfl
          refine ⟨empty, ?_⟩
          intro alone journalKey importRevision walking s'' report walked
          refine probes_of_announced alone (announced_of_shown stored shown
            flags.intent ?_ ?_) walked
          · intro newer member later
            exact dataless rfl newer member later (alone.newer_apart member later)
          · intro newer member later
            exact empty newer member later (alone.newer_apart member later)
      · cases failed
    · rintro (complete | ⟨why, refused⟩)
      · rcases done with ⟨flagged, -⟩ | ⟨err, failed, -⟩
        · rw [complete] at flagged
          cases flagged
        · rw [complete] at failed
          cases failed
      · rcases done with ⟨flagged, -⟩ | ⟨err, failed, importable⟩
        · rw [refused] at flagged
          cases flagged
        · rw [refused] at failed
          exact absurd (Except.error.inj failed).symm (importable why)

omit [Ciborium] [LawfulCiborium] in
theorem answeringWorld_contractHandler (s : Successor) (request : Request) :
    answeringWorld s request (contractHandler (fun _ => true) s request).1
      (contractHandler (fun _ => true) s request).2 := by
  refine ⟨?_, successorWorld_contractHandler (fun _ => true) s request⟩
  cases request <;> trivial

end Note

section Samples

open scoped Cbor

def sealedSuccessor (done : Fixed 32 → Option Bool) : Successor := ⟨done, fun _ => none, [], none⟩

def announce (lineage : List DelegateLineageEntry) (predecessor : DelegateKey) (s : Successor) :
    Successor × History × Successor × Except JournalError AppImport :=
  let begun := (beginMigrationJournal lineage .newestSnapshotWins 0).run.run
    (contractHandler fun _ => true) s
  (begun.2.1, (noteAppImportStarted lineage predecessor .newestSnapshotWins 0 none).run.run
    (contractHandler fun _ => true) begun.2.1)

theorem reachable_announce (lineage : List DelegateLineageEntry) (predecessor : DelegateKey)
    (done : Fixed 32 → Option Bool) :
    Reachable (announce lineage predecessor (sealedSuccessor done)).1 := by
  have begins : Executes successorWorld (sealedSuccessor done)
      (beginMigrationJournal lineage .newestSnapshotWins 0).run _
        (announce lineage predecessor (sealedSuccessor done)).1 _ :=
    executes_run (successorWorld_contractHandler fun _ => true) _
  exact ⟨sealedSuccessor done, rfl, .single (.begins begins.reaches)⟩

theorem executes_announce (lineage : List DelegateLineageEntry) (predecessor : DelegateKey)
    (s : Successor) :
    Executes successorWorld (announce lineage predecessor s).1
      (noteAppImportStarted lineage predecessor .newestSnapshotWins 0 none).run
      (announce lineage predecessor s).2.1 (announce lineage predecessor s).2.2.1
      (announce lineage predecessor s).2.2.2 :=
  executes_run (successorWorld_contractHandler fun _ => true) _

theorem app_import_flagged_past_empty_seal :
    let lineage := [sampleEntry 1, sampleEntry 2]
    let noted := (announce lineage (lineageKey (sampleEntry 1)) (sealedSuccessor fun key =>
      if key = (sampleEntry 2).delegateKey then some false else none)).2
    noted.2.2 = .ok .flagged ∧
      noted.2.1.own (lineageKey (sampleEntry 2)) 2 = some (.done false) ∧
      ∀ journalKey importRevision walking s'' report, Executes answeringWorld noted.2.1
        (migrateDelegateSecretsJournaled journalKey importRevision lineage .newestSnapshotWins) walking
          s'' report →
        (∃ event ∈ walking, event.request = .probeVerdict (lineageKey (sampleEntry 1))) ∧
          .superseded (lineageKey (sampleEntry 1)) 1 ∉ report.report := by
  intro lineage noted
  have flagged : noted.2.2 = .ok .flagged := by decide +kernel
  obtain ⟨e, journal, among, -, -, -, -, plain⟩ :=
    (app_import_flagged_where_walk_imports (reachable_announce lineage _ _)
      (executes_announce lineage _ _)).1 flagged
  obtain rfl : sampleEntry 1 = e := Option.some.inj among
  obtain ⟨empty, probed⟩ := plain rfl
  refine ⟨flagged, empty (sampleEntry 2) (by decide) (by decide) (by decide), ?_⟩
  exact probed ⟨[], [sampleEntry 2], rfl, by decide⟩

/-- A predecessor listed again under a newer generation shows that import itself; and one of the same
    generation listed before it is asked first, and supersedes it. -/
theorem app_import_flagged_under_repeats :
    let again : DelegateLineageEntry := { sampleEntry 1 with generation := 2 }
    let beside : DelegateLineageEntry := { sampleEntry 2 with generation := 1 }
    let first := announce [sampleEntry 1, again] (lineageKey (sampleEntry 1))
      (sealedSuccessor fun _ => some false)
    let second := announce [beside, sampleEntry 1] (lineageKey (sampleEntry 1))
      (sealedSuccessor fun _ => none)
    let walked := (migrateDelegateSecretsJournaled MIGRATION_JOURNAL_KEY 0 [beside, sampleEntry 1]
      .newestSnapshotWins).run (contractHandler fun _ => true) second.2.2.1
    (Reachable first.1 ∧
      Executes successorWorld first.1 (noteAppImportStarted [sampleEntry 1, again]
        (lineageKey (sampleEntry 1)) .newestSnapshotWins 0 none).run first.2.1 first.2.2.1
          (.ok .flagged) ∧
      first.2.2.1.own (lineageKey again) again.generation = some (.inProgress true)) ∧
    Reachable second.1 ∧
      Executes successorWorld second.1 (noteAppImportStarted [beside, sampleEntry 1]
        (lineageKey (sampleEntry 1)) .newestSnapshotWins 0 none).run second.2.1 second.2.2.1
          (.ok .flagged) ∧
      Executes answeringWorld second.2.2.1 (migrateDelegateSecretsJournaled MIGRATION_JOURNAL_KEY 0
        [beside, sampleEntry 1] .newestSnapshotWins) walked.1 walked.2.1 walked.2.2 ∧
      (∀ event ∈ walked.1, event.request ≠ .probeVerdict (lineageKey (sampleEntry 1))) ∧
      .superseded (lineageKey (sampleEntry 1)) 1 ∈ walked.2.2.report := by
  intro again beside first second walked
  have flaggedFirst : first.2.2.2 = .ok .flagged := by decide +kernel
  have flaggedSecond : second.2.2.2 = .ok .flagged := by decide +kernel
  refine ⟨⟨reachable_announce .., ?_, by decide +kernel⟩, reachable_announce .., ?_,
    executes_run answeringWorld_contractHandler _, by decide +kernel, by decide +kernel⟩
  · rw [← flaggedFirst]
    exact executes_announce ..
  · rw [← flaggedSecond]
    exact executes_announce ..

end Samples

end FreenetMigrate.Migrate
