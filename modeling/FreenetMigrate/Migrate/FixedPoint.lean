import FreenetMigrate.Import.Sticky

namespace FreenetMigrate.Migrate

open Calls SecretStore

def PredecessorMigration.pending : PredecessorMigration → Bool
  | .unresponsive _ _ _ => true
  | .incomplete _ _ _ _ => true
  | .writerUnavailable _ _ _ => true
  | _ => false

def isComplete (predecessors : List PredecessorMigration) : Bool :=
  !predecessors.any fun row => row.pending

theorem isComplete_iff {predecessors : List PredecessorMigration} :
    isComplete predecessors = true ↔ ∀ row ∈ predecessors, row.pending = false := by
  unfold isComplete
  rw [Bool.not_eq_true', List.any_eq_false]
  simp only [Bool.not_eq_true]

def queryOf (policy : SecretSelectionPolicy) (row : DelegateKey × UInt32) : MarkerQuery :=
  ⟨row.1, row.2, policy.legacyBridge⟩

variable {Store : Type} [SecretStore Store] {store kept final : Store} {p : DelegateKey}
  {policy : SecretSelectionPolicy}

section Markers

theorem reads_of_hadData {data : Bool} (own : predecessorMigrationHadData store p = some data)
    {query : MarkerQuery} (about : query.predecessor.bytes = p.bytes) :
    SecretStoreIo.migrationMarker store query = some (.done data) := by
  have done := predDoneMarker_eq_iff.mpr about
  have wip := predWipMarker_eq_iff.mpr about
  have same : emptySealContradicted store query.predecessor = emptySealContradicted store p := by
    unfold emptySealContradicted
    rw [done, wip]
  unfold predecessorMigrationHadData at own
  rcases SecretStoreIo.migrationMarker_cases store query with
    ⟨contradicted, -⟩ | ⟨upheld, value, found, read⟩ | ⟨missing, -⟩
  · rw [← same, contradicted] at own
    cases own
  · rw [← same, upheld, ← done, found] at own
    rw [read, ← Option.some.inj own]
  · rw [← done, missing] at own
    split at own <;> cases own

theorem hadData_of_reads_empty {query : MarkerQuery}
    (read : SecretStoreIo.migrationMarker store query = some (.done false)) :
    predecessorMigrationHadData store query.predecessor = some false := by
  unfold predecessorMigrationHadData
  rcases SecretStoreIo.migrationMarker_cases store query with
    ⟨-, other⟩ | ⟨upheld, value, found, other⟩ | ⟨-, other | other⟩
  · rw [read] at other
    cases other
  · rw [read] at other
    injection other with other
    injection other with other
    rw [upheld, found, Option.map_some, ← other]
    rfl
  · rw [read] at other
    cases other
  · rw [read] at other
    cases found : getSecret store (predWipMarker query.predecessor) with
    | none =>
      rw [found] at other
      cases other
    | some value =>
      rw [found] at other
      cases other

theorem Keeps.hadData (keeps : Keeps p.bytes store kept) :
    predecessorMigrationHadData kept p = predecessorMigrationHadData store p := by
  unfold predecessorMigrationHadData emptySealContradicted
  rw [keeps.done p rfl, keeps.wip p rfl]

variable [ExactSecretStore Store]

theorem Keeps.migrationMarker_exact {generation : UInt32} (keeps : Keeps p.bytes store kept) :
    SecretStoreIo.migrationMarker kept ⟨p, generation, .exactGenerationOnly⟩ =
      SecretStoreIo.migrationMarker store ⟨p, generation, .exactGenerationOnly⟩ := by
  have exact' : legacyGenerationMigratedExact kept generation =
      legacyGenerationMigratedExact store generation := by
    unfold legacyGenerationMigratedExact
    rw [ExactSecretStore.hasSecret_eq, ExactSecretStore.hasSecret_eq,
      keeps.older (doneMarker generation) (List.prefix_append ..)]
  unfold SecretStoreIo.migrationMarker emptySealContradicted
  rw [keeps.done p rfl, keeps.wip p rfl, exact']

omit [ExactSecretStore Store] in
theorem recorded_cases {marker : MigrationMarker}
    (recorded : ((.ok () : Except String Unit), final) =
      SecretStoreIo.recordMarker store p marker) :
    (marker = .inProgress false ∧ SawData p store) ∨
      ((setSecret store (SecretStoreIo.markerKey p marker) (SecretStoreIo.markerValue marker)).1 = true ∧
        final = (setSecret store (SecretStoreIo.markerKey p marker)
          (SecretStoreIo.markerValue marker)).2) := by
  unfold SecretStoreIo.recordMarker at recorded
  simp only at recorded
  split at recorded
  · rename_i kept
    obtain ⟨rfl, flagged⟩ := kept
    exact .inl ⟨rfl, sawData_iff.mpr flagged⟩
  · have stored := congrArg Prod.fst recorded
    simp only at stored
    split at stored
    · rename_i accepted
      exact .inr ⟨accepted, congrArg Prod.snd recorded⟩
    · cases stored

theorem hadData_of_recorded {data : Bool}
    (recorded : ((.ok () : Except String Unit), final) =
      SecretStoreIo.recordMarker store p (.done data))
    (unflagged : data = false → ¬ SawData p store) :
    predecessorMigrationHadData final p = some data := by
  rcases recorded_cases recorded with ⟨other, -⟩ | ⟨accepted, rfl⟩
  · cases other
  · have found : getSecret (setSecret store (SecretStoreIo.markerKey p (.done data))
        (SecretStoreIo.markerValue (.done data))).2 (predDoneMarker p) = _ :=
      ExactSecretStore.getSecret_set _ _ _ accepted
    have wip : getSecret (setSecret store (SecretStoreIo.markerKey p (.done data))
        (SecretStoreIo.markerValue (.done data))).2 (predWipMarker p) = _ :=
      ExactSecretStore.getSecret_other _ _ _ _ (predDoneMarker_ne_predWipMarker p p).symm
    unfold predecessorMigrationHadData emptySealContradicted
    rw [found, wip]
    cases data with
    | true => rfl
    | false =>
      have clean := unflagged rfl
      rw [sawData_iff, Bool.not_eq_true] at clean
      rw [clean, Bool.and_false]
      rfl

theorem unflagged_of_recorded
    (recorded : ((.ok () : Except String Unit), final) =
      SecretStoreIo.recordMarker store p (.inProgress false))
    (unflagged : ¬ SawData p store) : ¬ SawData p final := by
  rcases recorded_cases recorded with ⟨-, flagged⟩ | ⟨accepted, rfl⟩
  · exact absurd flagged unflagged
  · rintro ⟨value, found, full⟩
    have stored := ExactSecretStore.getSecret_set _ _ _ accepted
    rw [show predWipMarker p = SecretStoreIo.markerKey p (.inProgress false) from rfl, stored] at found
    exact full (Option.some.inj found).symm

end Markers

section FirstRun

variable {s s' : Store} {state state' : WalkState Unit} {row : DelegateKey × UInt32}
  {asked : Asked} {items secrets : List SecretPair} {sawData : Bool} {events : History}
  {observed : Unit}

theorem Asks.still (asks : Asks noObserver policy soleWorld s state row asked events s' observed) :
    s' = s := by
  cases asks with
  | fresh opens => exact opens.read.2
  | flagged opens unsealed prior told =>
    obtain ⟨-, rfl, -⟩ := told_plain told
    exact opens.read.2

theorem Exports.still
    (exports : Exports noObserver policy soleWorld s state row asked secrets events s' observed) :
    s' = s := by
  cases exports with
  | mk asks probed fetched => exact (Eq.trans fetched probed).trans asks.still

theorem Engages.still
    (engages : Engages noObserver policy soleWorld s state row asked items sawData events s' observed) :
    s' = s := by
  cases engages with
  | nothing exports => exact exports.still
  | data exports nonempty told =>
    obtain ⟨-, rfl, -⟩ := told_plain told
    exact exports.still

theorem AskedOn.marker_sole {calls : History}
    (on : AskedOn noObserver policy soleWorld s state row calls asked) :
    asked.marker = SecretStoreIo.migrationMarker s (queryOf policy row) := by
  obtain ⟨s₁, opens⟩ := on.opened
  exact Except.ok.inj opens.read.1

theorem Engages.unflagged
    (engages : Engages noObserver policy soleWorld s state row asked items false events s' observed) :
    items = [] ∧ ¬ SawData row.1 s := by
  have marker := engages.on.marker_sole
  have unsealed := engages.on.unsealed_plain
  have known := engages.on.prior_plain
  cases engages with
  | nothing exports empty noPrior =>
    refine ⟨rfl, ?_⟩
    intro saw
    rcases saw.reads row.2 policy.legacyBridge with flagged | done
    · rw [noPrior, marker, queryOf, flagged] at known
      simp at known
    · exact unsealed true (marker.trans done)

variable [ExactSecretStore Store]

theorem hadData_of_completed {offering : Offering} {s₁ s₂ s₃ : Store} {rounds : List History}
    {withheldKeys : List Bytes}
    (begins : Begins noObserver policy soleWorld s state row asked items sawData events s₁ observed)
    (offers : Iterates soleWorld (offerItem asked withheldKeys) s₁ .start items rounds s₂ offering)
    (flushed : soleWorld s₂ (.flushPredecessor asked.key) (.ok ()) s₃)
    (recorded : soleWorld s₃ (.recordMarker asked.key (.done sawData)) (.ok ()) s') :
    predecessorMigrationHadData s' row.1 = some sawData := by
  obtain ⟨-, rfl⟩ := flushed
  have key := begins.on.key
  rw [key] at recorded
  refine hadData_of_recorded recorded ?_
  rintro rfl
  cases begins with
  | unsealed engages begun noSeal =>
    obtain ⟨rfl, unflagged⟩ := engages.unflagged
    cases offers
    rw [engages.still, key] at begun
    exact unflagged_of_recorded begun unflagged
  | overSeal engages begun emptySeal => exact absurd emptySeal (engages.on.unsealed_plain false)

theorem keeps_others
    (round : Executes soleWorld s (walkRow noObserver policy state row) events s' state')
    {key : Fixed 32} (other : row.1.bytes ≠ key) : Keeps key s s' := by
  have harmless : Only (Harmless key) events :=
    ((rowRuns_of_executes round).calls quiet_noObserver).mono fun _ call => call.harmless other
  exact round.steps.frame harmless (fun _ _ _ _ allowed call kept =>
    kept.trans (keeps_of_call allowed call)) (.refl s)

/-- What a row that leaves nothing to be done was: after the end, found complete, or completed. -/
theorem complete_row {report : PredecessorMigration}
    (round : Executes soleWorld s (walkRow noObserver policy state row) events s' state')
    (pushed : state'.results = state.results ++ [report]) (complete : report.pending = false) :
    (state.terminated = true ∧ s' = s ∧ state'.terminated = true) ∨
      (state.terminated = false ∧ ∃ data,
        SecretStoreIo.migrationMarker s (queryOf policy row) = some (.done data) ∧ s' = s ∧
        state'.terminated = policy.dataBearingIsAuthoritative data) ∨
      state.terminated = false ∧ ∃ data, (∀ held, SecretStoreIo.migrationMarker s (queryOf policy row) ≠ some (.done held)) ∧
        predecessorMigrationHadData s' row.1 = some data ∧
        state'.terminated = policy.dataBearingIsAuthoritative data ∧
        ∀ key, row.1.bytes ≠ key → Keeps key s s' := by
  have runs := rowRuns_of_executes round
  have finished : ∀ reported, state'.results = state.results ++ [reported] →
      reported.pending = false := by
    intro reported pushes
    rw [report_unique pushes pushed]
    exact complete
  cases runs with
  | superseded terminated => exact .inl ⟨terminated, rfl, rfl⟩
  | journalResolved live resolved => cases resolved
  | emptySeal opens =>
    exact .inr (.inl ⟨opens.live, false, (Except.ok.inj opens.read.1).symm, opens.read.2, rfl⟩)
  | @dataSeal bridged _ _ _ opens checked =>
    obtain ⟨-, rfl, rfl⟩ := executes_pure.mp checked
    exact .inr (.inl ⟨opens.live, true, (Except.ok.inj opens.read.1).symm, opens.read.2, rfl⟩)
  | unreadable | flagRefused | silent | short | importFlagRefused | shortAfterFlag | beginRefused
    | notReadBack => cases finished _ rfl
  | @offered asked items sawData _ _ _ _ _ _ _ _ _ begins offers completes =>
    cases completes with
    | flushFailed | unclean | sealRefused => cases finished _ rfl
    | completed flushed clean recorded =>
      refine .inr (.inr ⟨begins.on.live, sawData, ?_, hadData_of_completed begins offers flushed recorded,
        rfl, fun key other => keeps_others round other⟩)
      intro held read
      exact begins.on.unsealed_plain held (begins.on.marker_sole.trans read)

/-- What rows that leave nothing to be done keep: own completion markers, and with the exact bridge
    whatever is read as complete. -/
structure Persists (policy : SecretSelectionPolicy) (store final : Store) : Prop where
  own : ∀ p data, predecessorMigrationHadData store p = some data →
    predecessorMigrationHadData final p = some data
  read : policy = .unionAllGenerations → ∀ row,
    (∃ data, SecretStoreIo.migrationMarker store (queryOf policy row) = some (.done data)) →
      ∃ data, SecretStoreIo.migrationMarker final (queryOf policy row) = some (.done data)

omit [ExactSecretStore Store] in
theorem Persists.refl (store : Store) : Persists policy store store :=
  ⟨fun _ _ => id, fun _ _ => id⟩

omit [ExactSecretStore Store] in
theorem Persists.trans {middle : Store} (first : Persists policy store middle)
    (second : Persists policy middle final) : Persists policy store final :=
  ⟨fun p data own => second.own p data (first.own p data own),
    fun union row read => second.read union row (first.read union row read)⟩

theorem persists_of_complete {report : PredecessorMigration}
    (round : Executes soleWorld s (walkRow noObserver policy state row) events s' state')
    (pushed : state'.results = state.results ++ [report]) (complete : report.pending = false) :
    Persists policy s s' := by
  rcases complete_row round pushed complete with
    ⟨-, rfl, -⟩ | ⟨-, -, -, rfl, -⟩ | ⟨-, data, unsealed, sealed', -, keeps⟩
  · exact .refl _
  · exact .refl _
  · constructor
    · intro p held own
      by_cases same : row.1.bytes = p.bytes
      · exact absurd (reads_of_hadData own same) (unsealed held)
      · rw [(keeps p.bytes same).hadData]
        exact own
    · rintro rfl other ⟨held, read⟩
      by_cases same : row.1.bytes = other.1.bytes
      · exact ⟨data, reads_of_hadData sealed' same.symm⟩
      · exact ⟨held, (keeps other.1.bytes same).migrationMarker_exact.trans read⟩

omit [ExactSecretStore Store] in
/-- A reading the walk goes on from is one it goes on from again. -/
theorem Persists.goes_on {data : Bool} (persists : Persists policy store final)
    (read : SecretStoreIo.migrationMarker store (queryOf policy row) = some (.done data))
    (goesOn : policy.dataBearingIsAuthoritative data = false) :
    ∃ again, SecretStoreIo.migrationMarker final (queryOf policy row) = some (.done again) ∧
      policy.dataBearingIsAuthoritative again = false := by
  by_cases union : policy = .unionAllGenerations
  · obtain ⟨again, read⟩ := persists.read union row ⟨data, read⟩
    rw [union]
    exact ⟨again, union ▸ read, rfl⟩
  · rw [authoritative_of_snapshot union] at goesOn
    subst goesOn
    have own := persists.own _ _ (hadData_of_reads_empty read)
    exact ⟨false, reads_of_hadData own rfl, authoritative_of_snapshot union false⟩

def Replays (policy : SecretSelectionPolicy) (store : Store) :
    Bool → List (DelegateKey × UInt32) → Prop
  | _, [] => True
  | true, _ :: _ => True
  | false, row :: rest => ∃ data,
    SecretStoreIo.migrationMarker store (queryOf policy row) = some (.done data) ∧
      Replays policy store (policy.dataBearingIsAuthoritative data) rest

omit [ExactSecretStore Store] in
theorem replays_of_ended (rows : List (DelegateKey × UInt32)) : Replays policy store true rows := by
  cases rows <;> trivial

theorem replays_of_visits {visits : List Visit}
    (run : Visits noObserver policy soleWorld s state visits s' state')
    (complete : ∀ visit ∈ visits, visit.report.pending = false) :
    (state.terminated = true → s' = s) ∧ Persists policy s s' ∧
      Replays policy s' state.terminated (visits.map Visit.row) := by
  induction run with
  | nil s state => exact ⟨fun _ => rfl, .refl s, trivial⟩
  | @cons s s₁ s' state state₁ state' visit visits round pushed _ ih =>
    have now := complete visit (List.mem_cons_self ..)
    obtain ⟨ended, later, replays⟩ := ih fun other member =>
      complete other (List.mem_cons_of_mem _ member)
    have persists := (persists_of_complete round pushed now).trans later
    -- What was read or recorded at this row is read again in the end.
    have again : ∀ data, state₁.terminated = policy.dataBearingIsAuthoritative data →
        SecretStoreIo.migrationMarker s₁ (queryOf policy visit.row) = some (.done data) →
          Replays policy s' false (visit.row :: visits.map Visit.row) := by
      intro data terminated read
      cases goesOn : policy.dataBearingIsAuthoritative data with
      | true =>
        rw [goesOn] at terminated
        refine ⟨data, ?_, ?_⟩
        · rw [ended terminated]
          exact read
        · rw [goesOn]
          exact replays_of_ended _
      | false =>
        obtain ⟨held, read, goesOn'⟩ := later.goes_on read goesOn
        refine ⟨held, read, ?_⟩
        rw [goesOn', ← goesOn, ← terminated]
        exact replays
    rcases complete_row round pushed now with
      ⟨before, rfl, after⟩ | ⟨live, data, read, rfl, terminated⟩ |
      ⟨live, data, -, own, terminated, -⟩
    · refine ⟨fun _ => ended after, persists, ?_⟩
      rw [before]
      exact replays_of_ended _
    · refine ⟨fun before => ?_, persists, ?_⟩
      · rw [live] at before
        cases before
      · rw [live]
        exact again data terminated read
    · refine ⟨fun before => ?_, persists, ?_⟩
      · rw [live] at before
        cases before
      · rw [live]
        exact again data terminated (reads_of_hadData own rfl)

end FirstRun

section SecondRun

variable {s s' : Store} {state state' : WalkState Unit} {row : DelegateKey × UInt32} {events : History}

def MarkerRead : Request → Prop
  | .migrationMarker _ => True
  | _ => False

def PredecessorMigration.closed : PredecessorMigration → Prop
  | .alreadyMigrated _ _ => True
  | .superseded _ _ => True
  | _ => False

theorem row_replays {data : Bool} {report : PredecessorMigration} (live : state.terminated = false)
    (read : SecretStoreIo.migrationMarker s (queryOf policy row) = some (.done data))
    (runs : RowRuns noObserver policy soleWorld s state row events s' state')
    (pushed : state'.results = state.results ++ [report]) :
    Only MarkerRead events ∧ s' = s ∧ report.closed ∧ state'.withheldKeys = state.withheldKeys ∧
      state'.terminated = policy.dataBearingIsAuthoritative data := by
  have reported : ∀ {other}, state'.results = state.results ++ [other] → other.closed →
      report.closed := by
    intro other pushes closed
    rw [report_unique pushed pushes]
    exact closed
  have refuted : ∀ {asked calls},
      ¬ AskedOn noObserver policy soleWorld s state row calls asked := by
    intro asked calls on
    exact on.unsealed_plain data (on.marker_sole.trans read)
  cases runs with
  | superseded terminated =>
    rw [live] at terminated
    cases terminated
  | journalResolved live resolved => cases resolved
  | unreadable live unresolved failed => cases failed.1
  | emptySeal opens =>
    have same := (Except.ok.inj opens.read.1).trans read
    obtain rfl : false = data := by
      injection same with same
      injection same
    exact ⟨by simp [MarkerRead], opens.read.2, reported rfl trivial, rfl, rfl⟩
  | @dataSeal bridged _ _ _ opens checked =>
    obtain ⟨rfl, rfl, rfl⟩ := executes_pure.mp checked
    have same := (Except.ok.inj opens.read.1).trans read
    obtain rfl : true = data := by
      injection same with same
      injection same
    exact ⟨by simp [MarkerRead], opens.read.2, reported rfl trivial, rfl, rfl⟩
  | flagRefused opens unsealed prior told =>
    obtain ⟨-, -, other⟩ := told_plain told
    cases other
  | silent asks => exact absurd asks.on refuted
  | short exports | importFlagRefused exports | shortAfterFlag exports =>
    exact absurd exports.on refuted
  | beginRefused engages | notReadBack engages => exact absurd engages.on refuted
  | offered begins => exact absurd begins.on refuted

theorem row_ended {report : PredecessorMigration} (ended : state.terminated = true)
    (round : Executes soleWorld s (walkRow noObserver policy state row) events s' state')
    (pushed : state'.results = state.results ++ [report]) :
    events = [] ∧ s' = s ∧ report.closed ∧ state'.terminated = true := by
  obtain ⟨key, generation⟩ := row
  unfold walkRow at round
  simp only [ended, if_true] at round
  obtain ⟨rfl, rfl, rfl⟩ := executes_pure.mp round
  have same := List.singleton_inj.mp (List.append_cancel_left pushed)
  rw [← same]
  exact ⟨rfl, rfl, trivial, rfl⟩

theorem visits_replay {visits : List Visit}
    (run : Visits noObserver policy soleWorld s state visits s' state')
    (replays : Replays policy s state.terminated (visits.map Visit.row)) :
    s' = s ∧ ∀ visit ∈ visits, Only MarkerRead visit.calls ∧ visit.report.closed := by
  induction run with
  | nil => simp
  | @cons s s₁ s' state state₁ state' visit visits round pushed _ ih =>
    have first : Only MarkerRead visit.calls ∧ s₁ = s ∧ visit.report.closed ∧
        Replays policy s state₁.terminated (visits.map Visit.row) := by
      cases live : state.terminated with
      | true =>
        obtain ⟨noCalls, same, closed, still⟩ := row_ended live round pushed
        rw [noCalls, still]
        exact ⟨only_nil, same, closed, replays_of_ended _⟩
      | false =>
        rw [live] at replays
        obtain ⟨data, read, rest⟩ := replays
        obtain ⟨reads, same, closed, -, terminated⟩ :=
          row_replays live read (rowRuns_of_executes round) pushed
        rw [terminated]
        exact ⟨reads, same, closed, rest⟩
    obtain ⟨reads, rfl, closed, rest⟩ := first
    obtain ⟨same, others⟩ := ih rest
    refine ⟨same, ?_⟩
    intro other member
    rcases List.mem_cons.mp member with rfl | later
    · exact ⟨reads, closed⟩
    · exact others other later

end SecondRun

/-- A run over a complete migration changes nothing: it makes no call but to read markers, leaves
    the store as it is, and reports every predecessor as already migrated or superseded. -/
theorem complete_is_fixed [ExactSecretStore Store] {predecessors : List DelegateLineageEntry}
    {start : Store} {events again : History} {report report' : List PredecessorMigration}
    (first : Executes soleWorld start (migrateDelegateSecrets predecessors policy) events store report)
    (complete : isComplete report = true)
    (second : Executes soleWorld store (migrateDelegateSecrets predecessors policy) again final
      report') :
    Only MarkerRead again ∧ final = store ∧ (∀ row ∈ report', row.closed) ∧
      isComplete report' = true := by
  obtain ⟨visits, state, rows, -, rfl, visited⟩ := visits_of_migrate first
  obtain ⟨visits', state', rows', rfl, rfl, visited'⟩ := visits_of_migrate second
  have finished : ∀ visit ∈ visits, visit.report.pending = false := by
    intro visit member
    exact isComplete_iff.mp complete _ (List.mem_map_of_mem member)
  obtain ⟨-, -, replays⟩ := replays_of_visits visited finished
  rw [rows, ← rows'] at replays
  obtain ⟨same, closed⟩ := visits_replay visited' replays
  have closedRows : ∀ row ∈ visits'.map Visit.report, row.closed := by
    intro row member
    obtain ⟨visit, among, rfl⟩ := List.mem_map.mp member
    exact (closed visit among).2
  refine ⟨?_, same, closedRows, isComplete_iff.mpr ?_⟩
  · intro event member
    obtain ⟨visit, among, within⟩ := mem_visitCalls.mp member
    exact (closed visit among).1 event within
  · intro row member
    have closed := closedRows row member
    cases row <;> first | rfl | exact closed.elim

def sampleMigrated : MemStore := (sampleRerun.run (storeHandler sampleExports) ⟨[], []⟩).2.1

theorem complete_is_fixed_sample :
    let second := sampleRerun.run (storeHandler fun _ => [([1], [3])]) sampleMigrated
    Only MarkerRead second.1 ∧ second.2.1 = sampleMigrated ∧ isComplete second.2.2 = true := by
  have facts := complete_is_fixed
    (executes_run (soleWorld_storeHandler sampleExports) (⟨[], []⟩ : MemStore))
    (show isComplete (sampleRerun.run (storeHandler sampleExports) (⟨[], []⟩ : MemStore)).2.2 = true by
      decide +kernel)
    (executes_run (soleWorld_storeHandler fun _ => [([1], [3])]) sampleMigrated)
  exact ⟨facts.1, facts.2.1, facts.2.2.2⟩

end FreenetMigrate.Migrate
