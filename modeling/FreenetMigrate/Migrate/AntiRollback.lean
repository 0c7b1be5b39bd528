import FreenetMigrate.Migrate.Row

namespace FreenetMigrate.Migrate

open Calls Journal

variable {State : Type} {world : World Request Answer State} {s s' : State}
  {policy : SecretSelectionPolicy} {events : History} {observed : Unit}

def Visit.Offers (visit : Visit) : Prop :=
  ∃ item answer, ⟨.writeSecret item, answer⟩ ∈ visit.calls

def Visit.Reads (policy : SecretSelectionPolicy) (visit : Visit) (marker : Option MigrationMarker) :
    Prop :=
  ⟨.migrationMarker ⟨visit.row.1, visit.row.2, policy.legacyBridge⟩, .ok marker⟩ ∈ visit.calls

/-- A visit that establishes that its predecessor holds nothing: an empty completion marker, or an
    export of nothing of its own where no earlier attempt saw data. -/
def Visit.HeldNothing (policy : SecretSelectionPolicy) (visit : Visit) : Prop :=
  visit.Reads policy (some (.done false)) ∨
    ((visit.Reads policy none ∨ visit.Reads policy (some (.inProgress false))) ∧
      ∃ secrets, ⟨.fetchSecrets visit.row.1, .ok secrets⟩ ∈ visit.calls ∧
        ∀ pair ∈ secrets, isMarker pair.1 = true)

/-- A visit reported unresponsive, no earlier attempt having seen data. -/
def Visit.SilentWithoutData (policy : SecretSelectionPolicy) (visit : Visit) : Prop :=
  (∃ error, visit.report = .unresponsive visit.row.1 visit.row.2 error) ∧
    ∃ marker, visit.Reads policy marker ∧ marker ≠ some (.inProgress true)

theorem offerable_eq (secrets : List SecretPair) :
    offerable noObserver secrets = secrets.filter fun pair => !isMarker pair.1 := by
  simp [offerable, noObserver]

theorem offerable_plain (secrets : List SecretPair) :
    offerable noObserver secrets = [] ↔ ∀ pair ∈ secrets, isMarker pair.1 = true := by
  simp [offerable_eq]

theorem told_plain {key : DelegateKey} {generation : UInt32} {items : Option UInt32}
    {answer : Except String Unit} {after : Unit}
    (told : Executes world s (noObserver.beforeImport observed key generation items) events s'
      (answer, after)) : events = [] ∧ s' = s ∧ answer = .ok () := by
  obtain ⟨noCalls, same, value⟩ := executes_pure.mp told
  exact ⟨noCalls, same, congrArg Prod.fst value⟩

theorem AskedOn.prior_plain {state : WalkState Unit} {row : DelegateKey × UInt32} {calls : History}
    {asked : Asked} (on : AskedOn noObserver policy world s state row calls asked) :
    asked.priorSawData = decide (asked.marker = some (.inProgress true)) := by
  have prior := congrArg Asked.priorSawData on.same
  simpa [askedOf, knownData, noObserver] using prior

theorem AskedOn.unsealed_plain {state : WalkState Unit} {row : DelegateKey × UInt32}
    {calls : History} {asked : Asked} (on : AskedOn noObserver policy world s state row calls asked)
    (hadData : Bool) : asked.marker ≠ some (.done hadData) := by
  intro same
  have unsealed := on.unsealed
  rw [same] at unsealed
  cases hadData <;> cases unsealed

theorem heldNothing_of_engages {state : WalkState Unit} {visit : Visit} {asked : Asked}
    {items : List SecretPair}
    (engages : Engages noObserver policy world s state visit.row asked items false events s'
      observed) (among : events ⊆ visit.calls) : visit.HeldNothing policy := by
  cases engages with
  | nothing exports empty noPrior =>
    have fetched := among exports.fetched
    rw [exports.on.key] at fetched
    have read := among exports.on.read
    have fresh : asked.marker ≠ some (.inProgress true) := by
      have prior := exports.on.prior_plain
      rw [noPrior] at prior
      exact of_decide_eq_false prior.symm
    refine .inr ⟨?_, _, fetched, (offerable_plain _).mp empty⟩
    cases marker : asked.marker with
    | none => exact .inl (marker ▸ read)
    | some held =>
      cases held with
      | done hadData => exact absurd marker (exports.on.unsealed_plain hadData)
      | inProgress sawData =>
        cases sawData with
        | false => exact .inr (marker ▸ read)
        | true => exact absurd marker fresh

theorem authoritative_of_snapshot (snapshot : policy ≠ .unionAllGenerations) (hadData : Bool) :
    policy.dataBearingIsAuthoritative hadData = hadData := by
  cases policy with
  | unionAllGenerations => exact absurd rfl snapshot
  | _ => rfl

theorem terminates_of_snapshot (snapshot : policy ≠ .unionAllGenerations) :
    policy.unresponsiveTerminates true = true := by
  cases policy with
  | unionAllGenerations => exact absurd rfl snapshot
  | _ => rfl

/-- A visit after which a snapshot walk goes on established that its predecessor holds nothing, or
    found it silent under the policy that goes past the silent. -/
theorem row_goes_on {state state' : WalkState Unit} {row : DelegateKey × UInt32}
    {report : PredecessorMigration}
    (runs : RowRuns noObserver policy world s state row events s' state')
    (pushed : state'.results = state.results ++ [report])
    (goesOn : state'.terminated = false) (snapshot : policy ≠ .unionAllGenerations) :
    Visit.HeldNothing policy ⟨row, events, report⟩ ∨
      (policy = .newestSnapshotWinsContinuePastUnresponsive ∧
        Visit.SilentWithoutData policy ⟨row, events, report⟩) := by
  have data := authoritative_of_snapshot snapshot
  have prior := terminates_of_snapshot snapshot
  cases runs with
  | superseded | unreadable | flagRefused | importFlagRefused | beginRefused | notReadBack =>
    cases goesOn
  | journalResolved live resolved => cases resolved
  | emptySeal opens unknown => exact .inl (.inl (List.mem_cons_self ..))
  | dataSeal opens checked =>
    have ended := data true
    rw [show policy.dataBearingIsAuthoritative true = false from goesOn] at ended
    cases ended
  | short exports | shortAfterFlag exports =>
    rw [show policy.unresponsiveTerminates true = false from goesOn] at prior
    cases prior
  | @silent asked error absent first answers s₁ _ _ asks gaveNone =>
    have noEnd : policy.unresponsiveTerminates asked.priorSawData = false := goesOn
    have fresh : asked.priorSawData = false := by
      cases held : asked.priorSawData with
      | false => rfl
      | true =>
        rw [held, prior] at noEnd
        cases noEnd
    have continues : policy = .newestSnapshotWinsContinuePastUnresponsive := by
      rw [fresh] at noEnd
      cases policy with
      | newestSnapshotWins => cases noEnd
      | newestSnapshotWinsContinuePastUnresponsive => rfl
      | unionAllGenerations => exact absurd rfl snapshot
    have same : report = .unresponsive row.1 row.2 error := by
      rw [← asks.on.key, ← asks.on.generation]
      exact report_unique pushed rfl
    have unseen : asked.marker ≠ some (.inProgress true) := by
      have held := asks.on.prior_plain
      rw [fresh] at held
      exact of_decide_eq_false held.symm
    exact .inr ⟨continues, ⟨error, same⟩, asked.marker, List.mem_append_left _ asks.on.read, unseen⟩
  | offered begins offers completes =>
    have ended := completes.terminated
    rw [goesOn, data] at ended
    obtain ⟨first, s₁, among, engages⟩ := begins.engages
    rw [← ended] at engages
    refine .inl (heldNothing_of_engages engages ?_)
    intro event member
    exact List.mem_append_left _ (List.mem_append_left _ (among member))

theorem row_unavailable {Observed : Type} {observer : WalkObserver Observed}
    {state state' : WalkState Observed} {row : DelegateKey × UInt32} {report : PredecessorMigration}
    {key : DelegateKey} {generation : UInt32} {failure : WriterFailure}
    (runs : RowRuns observer policy world s state row events s' state')
    (pushed : state'.results = state.results ++ [report])
    (unavailable : report = .writerUnavailable key generation failure) :
    state'.terminated = true := by
  have other : ∀ reported, state'.results = state.results ++ [reported] →
      reported = .writerUnavailable key generation failure := by
    intro reported pushes
    exact (report_unique pushes pushed).trans unavailable
  cases runs with
  | superseded | unreadable | flagRefused | importFlagRefused | beginRefused | notReadBack => rfl
  | journalResolved | emptySeal | silent | short | shortAfterFlag => cases other _ rfl
  | @dataSeal bridged => cases bridged <;> cases other _ rfl
  | @offered _ _ sawData _ _ _ _ _ _ _ _ _ begins offers completes =>
    cases completes with
    | flushFailed | unclean | sealRefused => cases other _ rfl
    | completed => cases sawData <;> cases other _ rfl

theorem RowRuns.writes_own {Observed : Type} {observer : WalkObserver Observed}
    {state state' : WalkState Observed} {row : DelegateKey × UInt32} {item : RecoveredSecret}
    {answer : ItemWrite} (quiet : observer.Quiet)
    (runs : RowRuns observer policy world s state row events s' state')
    (written : ⟨.writeSecret item, answer⟩ ∈ events) :
    item.predecessor = row.1 ∧ item.generation = row.2 := by
  obtain ⟨asked, items, sawData, begun, s₁, observed, -, begins, pair, -, rfl⟩ :=
    runs.written quiet written
  exact ⟨begins.on.key, begins.on.generation⟩

/-- Rows in the order they are walked: greater generations first, equal ones as listed. -/
structure InNewestOrder (predecessors : List DelegateLineageEntry)
    (rows : List (DelegateKey × UInt32)) : Prop where
  perm : rows.Perm (predecessors.map fun e => (lineageKey e, e.generation))
  newest : rows.Pairwise fun earlier later => later.2 ≤ earlier.2
  asListed : ∀ first second, [first, second].Sublist predecessors →
    second.generation ≤ first.generation →
    [(lineageKey first, first.generation), (lineageKey second, second.generation)].Sublist rows

theorem newestFirst_ordered (predecessors : List DelegateLineageEntry) :
    InNewestOrder predecessors (newestFirst predecessors) := by
  have total : Std.Total fun a b : DelegateKey × UInt32 => b.2 ≤ a.2 := ⟨fun a b => le_total b.2 a.2⟩
  have trans : IsTrans _ fun a b : DelegateKey × UInt32 => b.2 ≤ a.2 :=
    ⟨fun _ _ _ first second => second.trans first⟩
  refine ⟨List.perm_insertionSort _ _, List.pairwise_insertionSort _ _, ?_⟩
  intro first second listed newer
  exact List.pair_sublist_insertionSort newer
    (listed.map fun e : DelegateLineageEntry => (lineageKey e, e.generation))

/-- What a visit that offers an item says of every visit before it. -/
def Visit.Clears (policy : SecretSelectionPolicy) (earlier later : Visit) : Prop :=
  later.Offers →
    (∀ key generation failure, earlier.report ≠ .writerUnavailable key generation failure) ∧
    (policy = .newestSnapshotWins → earlier.HeldNothing policy) ∧
    (policy = .newestSnapshotWinsContinuePastUnresponsive →
      earlier.HeldNothing policy ∨ earlier.SilentWithoutData policy)

theorem visits_clear {state state' : WalkState Unit} {visits : List Visit}
    (run : Visits noObserver policy world s state visits s' state') :
    visits.Pairwise (Visit.Clears policy) := by
  induction run with
  | nil => exact .nil
  | @cons _ _ _ _ state₁ _ visit visits round pushed rest ih =>
    have runs := rowRuns_of_executes round
    refine .cons ?_ ih
    rintro later member ⟨item, answer, offered⟩
    -- Something is offered later, so the walk went on after this visit.
    have goesOn : state₁.terminated = false := by
      cases ended : state₁.terminated with
      | false => rfl
      | true =>
        rw [visits_after_end rest ended later member] at offered
        cases offered
    refine ⟨?_, ?_, ?_⟩
    · intro key generation failure unavailable
      rw [row_unavailable runs pushed unavailable] at goesOn
      cases goesOn
    · rintro rfl
      rcases row_goes_on runs pushed goesOn (by decide) with nothing | ⟨other, -⟩
      · exact nothing
      · cases other
    · rintro rfl
      rcases row_goes_on runs pushed goesOn (by decide) with nothing | ⟨-, silent⟩
      · exact .inl nothing
      · exact .inr silent

theorem visits_write_own {state state' : WalkState Unit} {visits : List Visit}
    (run : Visits noObserver policy world s state visits s' state') :
    ∀ visit ∈ visits, ∀ item answer, ⟨.writeSecret item, answer⟩ ∈ visit.calls →
      item.predecessor = visit.row.1 ∧ item.generation = visit.row.2 := by
  intro visit member item answer written
  obtain ⟨s₁, state₁, s₂, state₂, runs, -⟩ := run.visited member
  exact runs.writes_own quiet_noObserver written

theorem visits_of_migrate {predecessors : List DelegateLineageEntry}
    {report : List PredecessorMigration}
    (run : Executes world s (migrateDelegateSecrets predecessors policy) events s' report) :
    ∃ visits : List Visit, ∃ state' : WalkState Unit, visits.map Visit.row = newestFirst predecessors ∧
      events = (visits.map Visit.calls).flatten ∧ report = visits.map Visit.report ∧
      Visits noObserver policy world s (.start ()) visits s' state' := by
  obtain ⟨first, s₁, outcome, second, rfl, walked, done⟩ := executes_bind.mp run
  obtain ⟨rfl, rfl, rfl⟩ := executes_pure.mp done
  obtain ⟨visits, rows, calls, results, visited⟩ := visits_of_walk walked
  rw [List.append_nil, calls]
  exact ⟨visits, _, rows, rfl, results, visited⟩

theorem visits_of_reaches (total : ∀ s call, ∃ answer s', world s call answer s')
    {predecessors : List DelegateLineageEntry}
    (run : Reaches world s (migrateDelegateSecrets predecessors policy) events s') :
    ∃ visits more final, ∃ state' : WalkState Unit,
      InNewestOrder predecessors (visits.map Visit.row) ∧
      events ++ more = (visits.map Visit.calls).flatten ∧
      Visits noObserver policy world s (.start ()) visits final state' := by
  obtain ⟨more, ended, report, whole⟩ := run.completes total
  obtain ⟨visits, state', rows, calls, -, visited⟩ := visits_of_migrate whole
  refine ⟨visits, more, ended, state', ?_, calls, visited⟩
  rw [rows]
  exact newestFirst_ordered predecessors

theorem reaches_write_own (total : ∀ s call, ∃ answer s', world s call answer s')
    {predecessors : List DelegateLineageEntry}
    (run : Reaches world s (migrateDelegateSecrets predecessors policy) events s') :
    Only (fun request => ∀ item, request = .writeSecret item → isMarker item.key = false) events := by
  obtain ⟨visits, more, ended, state', -, calls, visited⟩ := visits_of_reaches total run
  intro event member
  have among : event ∈ (visits.map Visit.calls).flatten := by
    rw [← calls]
    exact List.mem_append_left _ member
  obtain ⟨visit, visited', within⟩ := mem_visitCalls.mp among
  exact (visits_calls quiet_noObserver visited visit visited' event within).own

/-- A snapshot run offers an item only where everything newer was found to hold nothing, and no run
    offers anything once the writer was unavailable. -/
theorem anti_rollback {predecessors : List DelegateLineageEntry} {report : List PredecessorMigration}
    (run : Executes world s (migrateDelegateSecrets predecessors policy) events s' report) :
    ∃ visits : List Visit, InNewestOrder predecessors (visits.map Visit.row) ∧
      events = (visits.map Visit.calls).flatten ∧ report = visits.map Visit.report ∧
      (∀ visit ∈ visits, ∀ item answer, ⟨.writeSecret item, answer⟩ ∈ visit.calls →
        item.predecessor = visit.row.1 ∧ item.generation = visit.row.2) ∧
      visits.Pairwise (Visit.Clears policy) := by
  obtain ⟨visits, state', rows, calls, results, visited⟩ := visits_of_migrate run
  refine ⟨visits, ?_, calls, results, visits_write_own visited, visits_clear visited⟩
  rw [rows]
  exact newestFirst_ordered predecessors

def emptyThenData : Unit → (request : Request) → Answer request × Unit
  | _, .migrationMarker _ => (.ok none, ())
  | _, .recordMarker _ _ => (.ok (), ())
  | _, .writeSecret _ => (.written, ())
  | _, .flushPredecessor _ => (.ok (), ())
  | _, .loadJournal => (.ok none, ())
  | _, .storeJournal _ => (.ok (), ())
  | _, .probeVerdict _ => (.ok .executable, ())
  | _, .fetchSecrets key => (.ok (if key = lineageKey (sampleEntry 2) then [] else [([1], [2])]), ())

theorem anti_rollback_two :
    let program := migrateDelegateSecrets [sampleEntry 1, sampleEntry 2] .newestSnapshotWins
    (program.run emptyThenData ()).2.2 =
        [.noData (lineageKey (sampleEntry 2)) 2,
          .imported (lineageKey (sampleEntry 1)) 1 ⟨1, 0, 0, 0, 0⟩] ∧
      ∃ visits : List Visit,
        InNewestOrder [sampleEntry 1, sampleEntry 2] (visits.map Visit.row) ∧
        (program.run emptyThenData ()).1 = (visits.map Visit.calls).flatten ∧
        (program.run emptyThenData ()).2.2 = visits.map Visit.report ∧
        (∀ visit ∈ visits, ∀ item answer, ⟨.writeSecret item, answer⟩ ∈ visit.calls →
          item.predecessor = visit.row.1 ∧ item.generation = visit.row.2) ∧
        visits.Pairwise (Visit.Clears .newestSnapshotWins) :=
  ⟨by decide +kernel, anti_rollback (executes_anything _ emptyThenData ())⟩

end FreenetMigrate.Migrate
