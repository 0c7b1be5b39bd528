import FreenetMigrate.Migrate.Justified

namespace FreenetMigrate.Migrate

open Calls Journal MigrationJournal

structure WalkState.Untouched {Observed : Type} (state : WalkState Observed) (key : Fixed 32) :
    Prop where
  bridged : key ∉ state.bridged
  doneWithData : key ∉ state.doneWithData
  journalResolved : state.journalResolved.lookup key = none

structure SameSets {Observed : Type} (key : Fixed 32) (state state' : WalkState Observed) : Prop where
  bridged : key ∈ state'.bridged ↔ key ∈ state.bridged
  doneWithData : key ∈ state'.doneWithData ↔ key ∈ state.doneWithData
  journalResolved : state'.journalResolved.lookup key = state.journalResolved.lookup key

section Sets

variable {State Observed : Type} {world : World Request Answer State} {s s' : State}
  {observer : WalkObserver Observed} {policy : SecretSelectionPolicy}
  {state state' : WalkState Observed} {row : DelegateKey × UInt32} {events : History}
  {key : Fixed 32}

theorem SameSets.of_untouched (same : SameSets key state state') (untouched : state.Untouched key) :
    state'.Untouched key :=
  ⟨fun member => untouched.bridged (same.bridged.mp member),
    fun member => untouched.doneWithData (same.doneWithData.mp member),
    same.journalResolved.trans untouched.journalResolved⟩

theorem Completes.sameSets {asked : Asked} {sawData : Bool} {offering : Offering}
    (completes : Completes policy world s state asked sawData offering events s' state')
    (key : Fixed 32) : SameSets key state state' := by
  cases completes <;> exact ⟨Iff.rfl, Iff.rfl, rfl⟩

theorem RowRuns.sameSets (runs : RowRuns observer policy world s state row events s' state')
    (other : row.1.bytes ≠ key) : SameSets key state state' := by
  have apart : key ≠ row.1.bytes := fun same => other same.symm
  cases runs with
  | journalResolved =>
    refine ⟨Iff.rfl, Iff.rfl, ?_⟩
    simp only [WalkState.push, List.lookup_cons, beq_false_of_ne apart]
  | @dataSeal bridged =>
    cases bridged with
    | true =>
      refine ⟨?_, Iff.rfl, rfl⟩
      simp [WalkState.push, apart]
    | false =>
      refine ⟨Iff.rfl, ?_, rfl⟩
      simp [WalkState.push, apart]
  | offered begins offers completes =>
    have same := completes.sameSets key
    exact ⟨same.bridged, same.doneWithData, same.journalResolved⟩
  | _ => exact ⟨Iff.rfl, Iff.rfl, rfl⟩

end Sets

def SealUnread (policy : SecretSelectionPolicy) (calls : History) (row : DelegateKey × UInt32) :
    Prop :=
  ⟨.migrationMarker ⟨row.1, row.2, policy.legacyBridge⟩, .ok (some (.done true))⟩ ∈ calls ∧
    ∃ err, ⟨.migrationMarker ⟨row.1, row.2, .exactGenerationOnly⟩, .error err⟩ ∈ calls

def Reports (s : Successor) (state : WalkState JournalWatch) (journalKey : Bytes) (calls : History)
    (row : DelegateKey × UInt32) : PredecessorMigration → Prop
  | .imported _ _ _ => s.own row.1 row.2 = some (.done true)
  | .noData _ _ => s.own row.1 row.2 = some (.done false)
  | .alreadyMigrated _ _ => state.journalResolved.lookup row.1.bytes = none →
      row.1.bytes ∉ state.bridged →
      (row.1.bytes ∈ state.doneWithData ∧ s.own row.1 row.2 = some (.done true)) ∨
        (row.1.bytes ∉ state.doneWithData ∧ s.own row.1 row.2 = some (.done false))
  | .incomplete _ _ tally failure =>
      rejectionsOnly tally failure = true → TakenBut journalKey calls row.1
  | _ => True

structure Settled (binding : JournalBinding) (policy : SecretSelectionPolicy) (journalKey : Bytes)
    (s : Successor) (state : WalkState JournalWatch) (calls : History)
    (row : DelegateKey × UInt32) (report : PredecessorMigration) : Prop where
  resolved : ∀ resolution, state.journalResolved.lookup row.1.bytes = some resolution →
    Copied binding state.observed.journal row.1.bytes
  bridged : row.1.bytes ∈ state.bridged → gaveNone report = false ∧
    policy.legacyBridge = .atOrAboveGeneration ∧ (s.NewerSeal row.2 ∨ SealUnread policy calls row)
  reports : Reports s state journalKey calls row report

section Row

variable [Ciborium] {binding : JournalBinding} {s s' : Successor} {events calls : History}
  {journalKey : Bytes} {predecessors : List DelegateLineageEntry} {policy : SecretSelectionPolicy}
  {state state' : WalkState JournalWatch} {row other : DelegateKey × UInt32}
  {report : PredecessorMigration}

theorem Settled.elsewhere
    (settled : Settled binding policy journalKey s state calls row report)
    (round : Executes successorWorld s
      (walkRow (journalObserver journalKey binding predecessors policy) policy state other) events s'
      state')
    (apart : other.1.bytes ≠ row.1.bytes) (holds : state.observed.journal.HoldsUnder binding) :
    Settled binding policy journalKey s' state' calls row report := by
  have runs := rowRuns_of_executes round
  have sets := runs.sameSets apart
  have same := sameMarker_of_round round apart
  refine ⟨?_, ?_, ?_⟩
  · intro resolution found
    rw [sets.journalResolved] at found
    exact (settled.resolved resolution found).grow runs.grows holds
  · intro member
    obtain ⟨answered, above, newer | unread⟩ := settled.bridged (sets.bridged.mp member)
    · refine ⟨answered, above, .inl ?_⟩
      rw [Successor.NewerSeal, same.seals]
      exact newer
    · exact ⟨answered, above, .inr unread⟩
  · have before := settled.reports
    cases report with
    | imported | noData =>
      simp only [Reports, same.own] at before ⊢
      exact before
    | alreadyMigrated =>
      simp only [Reports, same.own, sets.journalResolved, sets.bridged, sets.doneWithData] at before ⊢
      exact before
    | incomplete => exact before
    | unresponsive | writerUnavailable | superseded => trivial

omit [Ciborium] in
/-- A completion that was recorded is read back, unless it says empty over data that was seen. -/
theorem own_of_completed {key : DelegateKey} {hadData : Bool} (generation : UInt32)
    (recorded : successorWorld s (.recordMarker key (.done hadData)) (.ok ()) s')
    (agrees : hadData = false → s.wip key.bytes ≠ some true) :
    s'.own key generation = some (.done hadData) := by
  have done : s'.done key.bytes = some hadData ∧
      (hadData = false → s'.wip key.bytes ≠ some true) := by
    rcases recorded with rfl | rfl
    · exact ⟨Function.update_self .., agrees⟩
    · exact ⟨Function.update_self .., fun _ => by simp [Successor.setWip]⟩
  unfold Successor.own Successor.marker
  simp only [done.1]
  cases hadData with
  | true => rfl
  | false =>
    have quiet := done.2 rfl
    rcases found : s'.wip key.bytes with _ | (_ | _)
    · rfl
    · rfl
    · exact absurd found quiet

omit [Ciborium] in
theorem read_of_bridged {key : DelegateKey} {generation : UInt32}
    (run : Executes successorWorld s (sealIsBridged key generation policy) events s' true) :
    ∃ answer, events = [⟨.migrationMarker ⟨key, generation, .exactGenerationOnly⟩, answer⟩] ∧
      successorWorld s (.migrationMarker ⟨key, generation, .exactGenerationOnly⟩) answer s' ∧
      answer ≠ .ok (some (.done true)) := by
  unfold sealIsBridged at run
  split at run
  · obtain ⟨-, -, other⟩ := executes_pure.mp run
    cases other
  · obtain ⟨answer, s₁, rest, rfl, read, heeded⟩ := executes_call.mp run
    split at heeded
    · obtain ⟨-, -, other⟩ := executes_pure.mp heeded
      cases other
    · rename_i notOwn
      obtain ⟨rfl, rfl, -⟩ := executes_pure.mp heeded
      exact ⟨answer, rfl, read, fun same => notOwn same⟩

omit [Ciborium] in
theorem copied_of_resolvedWithData {watch : JournalWatch} {key : DelegateKey}
    {resolution : JournalResolution} (holds : watch.journal.HoldsUnder binding)
    (resolved : watch.resolvedWithData key = some resolution) :
    Copied binding watch.journal key.bytes := by
  unfold JournalWatch.resolvedWithData JournalWatch.stateOf at resolved
  rw [entry_state] at resolved
  split at resolved
  · rename_i r held
    split at resolved
    · rename_i data
      refine copied_iff.mpr ⟨r, ?_, data⟩
      rw [effectiveState, held, Option.map_some, holds _ _ held]
    · cases resolved
  · cases resolved

theorem reports_of_offered {asked : Asked} {items : List SecretPair} {sawData : Bool}
    {offering : Offering} {begun ending : History} {rounds : List History} {s₁ s₂ : Successor}
    {observed : JournalWatch}
    (begins : Begins (journalObserver journalKey binding predecessors policy) policy successorWorld s
      state row asked items sawData begun s₁ observed)
    (offers : Iterates successorWorld (offerItem asked state.withheldKeys) s₁ .start items rounds s₂
      offering)
    (completes : Completes policy successorWorld s₂ { state with observed } asked sawData offering
      ending s' state') (pushed : state'.results = state.results ++ [report]) :
    Reports s' state' journalKey (begun ++ rounds.flatten ++ ending) row report := by
  have key := begins.on.key
  have reported : ∀ {other : PredecessorMigration}, state'.results = state.results ++ [other] →
      other = report := fun same => report_unique same pushed
  have rejections : ∀ {tally failure},
      PredecessorMigration.incomplete asked.key asked.generation tally failure = report →
      Reports s' state' journalKey (begun ++ rounds.flatten ++ ending) row report := by
    rintro tally failure rfl only
    exact takenBut_of_offered begins offers completes pushed only
  have quiet : sawData = false → s₂.wip row.1.bytes ≠ some true := by
    rintro rfl
    rw [(sameMarker_of_offers offers _).wip]
    exact begins.quiet
  cases completes with
  | flushFailed | unclean | sealRefused => exact rejections (reported rfl)
  | completed flushed clean recorded =>
    have still : sawData = false → _ := fun empty => wip_of_call flushed (quiet empty) trivial
    rw [← key] at still
    have own := own_of_completed row.2 recorded still
    rw [key] at own
    have same := reported rfl
    subst same
    cases sawData with
    | true => exact own
    | false => exact own

/-- What an iteration establishes about its own predecessor. -/
theorem RowRuns.settled
    (runs : RowRuns (journalObserver journalKey binding predecessors policy) policy successorWorld s
      state row events s' state') (pushed : state'.results = state.results ++ [report])
    (untouched : state.Untouched row.1.bytes) (holds : state.observed.journal.HoldsUnder binding) :
    Settled binding policy journalKey s' state' events row report := by
  have reported : ∀ {other : PredecessorMigration}, state'.results = state.results ++ [other] →
      other = report := fun same => report_unique same pushed
  -- A row of which the walk notes neither a resolution nor a bridged seal.
  have plain : Reports s' state' journalKey events row report →
      state'.journalResolved = state.journalResolved → state'.bridged = state.bridged →
      Settled binding policy journalKey s' state' events row report := by
    intro reports resolved bridged
    refine ⟨?_, ?_, reports⟩
    · intro resolution found
      rw [resolved, untouched.journalResolved] at found
      cases found
    · intro member
      rw [bridged] at member
      exact absurd member untouched.bridged
  cases runs with
  | superseded =>
    have same : PredecessorMigration.superseded row.1 row.2 = report := reported rfl
    subst same
    exact plain trivial rfl rfl
  | @journalResolved resolution live resolved =>
    have same : PredecessorMigration.alreadyMigrated row.1 row.2 = report := reported rfl
    subst same
    refine ⟨fun _ _ => copied_of_resolvedWithData holds resolved, ?_, ?_⟩
    · exact fun member => absurd member untouched.bridged
    · intro none
      simp [WalkState.push] at none
  | @unreadable e =>
    have same : PredecessorMigration.writerUnavailable row.1 row.2 ⟨.readMarker, e⟩ = report :=
      reported rfl
    subst same
    exact plain trivial rfl rfl
  | emptySeal opens =>
    have same : PredecessorMigration.alreadyMigrated row.1 row.2 = report := reported rfl
    subst same
    refine plain (fun _ _ => ?_) rfl rfl
    have read := opens.read.1
    refine .inr ⟨untouched.doneWithData, ?_⟩
    rw [opens.read.2, Successor.own_of_marker (by rw [← read]; decide), ← read]
  | @dataSeal bridged calls s₁ _ opens checked =>
    have read := opens.read.1
    cases bridged with
    | true =>
      obtain rfl := opens.read.2
      have same : PredecessorMigration.alreadyMigrated row.1 row.2 = report := reported rfl
      subst same
      have above := above_of_bridged checked
      obtain ⟨answer, rfl, exact', other⟩ := read_of_bridged checked
      refine ⟨?_, fun _ => ⟨rfl, above, ?_⟩, ?_⟩
      · intro resolution found
        have before : state.journalResolved.lookup row.1.bytes = some resolution := found
        rw [untouched.journalResolved] at before
        cases before
      · cases answer with
        | error err =>
          exact .inr ⟨List.mem_cons_self .., err, List.mem_cons_of_mem _ (List.mem_singleton_self _)⟩
        | ok marker =>
          obtain ⟨own, rfl⟩ := exact'
          rw [above] at read
          refine .inl (Successor.newerSeal read.symm ?_)
          intro sealed
          exact other (congrArg Except.ok (own.trans sealed))
      · intro _ unbridged
        exact absurd (List.mem_cons_self ..) unbridged
    | false =>
      have same : PredecessorMigration.alreadyMigrated row.1 row.2 = report := reported rfl
      subst same
      obtain ⟨rfl, own, -⟩ := own_of_unbridged opens.read checked
      exact plain (fun _ _ => .inl ⟨List.mem_cons_self .., own⟩) rfl rfl
  | flagRefused =>
    have same := reported rfl
    subst same
    exact plain trivial rfl rfl
  | silent | short | importFlagRefused | shortAfterFlag | beginRefused | notReadBack =>
    have same := reported rfl
    subst same
    exact plain trivial rfl rfl
  | offered begins offers completes =>
    have sets := completes.sameSets row.1.bytes
    have reports := reports_of_offered begins offers completes pushed
    refine ⟨?_, ?_, reports⟩
    · intro resolution found
      have before : state.journalResolved.lookup row.1.bytes = some resolution :=
        sets.journalResolved.symm.trans found
      rw [untouched.journalResolved] at before
      cases before
    · intro member
      exact absurd (sets.bridged.mp member) untouched.bridged

end Row

section Walk

variable [Ciborium] {binding : JournalBinding} {s s' : Successor} {calls : History}
  {journalKey : Bytes} {predecessors : List DelegateLineageEntry} {policy : SecretSelectionPolicy}
  {state state' : WalkState JournalWatch} {row : DelegateKey × UInt32}
  {report : PredecessorMigration} {visits : List Visit}

theorem visits_settled_elsewhere
    (walked : Visits (journalObserver journalKey binding predecessors policy) policy successorWorld s
      state visits s' state') (holds : state.observed.journal.HoldsUnder binding)
    (others : ∀ visit ∈ visits, visit.row.1.bytes ≠ row.1.bytes)
    (settled : Settled binding policy journalKey s state calls row report) :
    Settled binding policy journalKey s' state' calls row report := by
  refine (walked.invariant (fun s state => state.observed.journal.HoldsUnder binding ∧
    Settled binding policy journalKey s state calls row report) ?_ ⟨holds, settled⟩).2
  intro s₁ s₂ state₁ state₂ visit member round before
  exact ⟨(rowRuns_of_executes round).grows.holds before.1,
    before.2.elsewhere round (others visit member) before.1⟩

theorem visits_settled
    (walked : Visits (journalObserver journalKey binding predecessors policy) policy successorWorld s
      state visits s' state') (holds : state.observed.journal.HoldsUnder binding)
    (once : (visits.map fun visit => visit.row.1.bytes).Nodup)
    (untouched : ∀ visit ∈ visits, state.Untouched visit.row.1.bytes) :
    ∀ visit ∈ visits, Settled binding policy journalKey s' state' visit.calls visit.row
      visit.report := by
  induction walked with
  | nil => exact fun _ absent => nomatch absent
  | @cons _ _ _ _ _ _ first visits round pushed rest ih =>
    obtain ⟨apart, later⟩ := List.nodup_cons.mp once
    have runs := rowRuns_of_executes round
    have grown := runs.grows.holds holds
    have others : ∀ other ∈ visits, other.row.1.bytes ≠ first.row.1.bytes := by
      intro other among same
      exact apart (List.mem_map.mpr ⟨other, among, same⟩)
    intro visit member
    rcases List.mem_cons.mp member with rfl | after
    · have settled := runs.settled pushed (untouched _ (List.mem_cons_self ..)) holds
      exact visits_settled_elsewhere rest grown others settled
    · refine ih grown later ?_ visit after
      intro other among
      have sets := runs.sameSets (fun same => others other among same.symm)
      exact sets.of_untouched (untouched other (List.mem_cons_of_mem _ among))

end Walk

end FreenetMigrate.Migrate
