import FreenetMigrate.Migrate.AntiRollback

namespace FreenetMigrate.Migrate

open Calls Journal

def offersOf : History → List (RecoveredSecret × ItemWrite)
  | [] => []
  | ⟨.writeSecret item, answer⟩ :: rest => (item, answer) :: offersOf rest
  | ⟨.migrationMarker _, _⟩ :: rest => offersOf rest
  | ⟨.recordMarker _ _, _⟩ :: rest => offersOf rest
  | ⟨.flushPredecessor _, _⟩ :: rest => offersOf rest
  | ⟨.loadJournal, _⟩ :: rest => offersOf rest
  | ⟨.storeJournal _, _⟩ :: rest => offersOf rest
  | ⟨.probeVerdict _, _⟩ :: rest => offersOf rest
  | ⟨.fetchSecrets _, _⟩ :: rest => offersOf rest

def exportOf : History → List SecretPair
  | [] => []
  | ⟨.fetchSecrets _, .ok secrets⟩ :: _ => secrets.filter fun pair => !isMarker pair.1
  | ⟨.fetchSecrets _, .error _⟩ :: rest => exportOf rest
  | ⟨.migrationMarker _, _⟩ :: rest => exportOf rest
  | ⟨.recordMarker _ _, _⟩ :: rest => exportOf rest
  | ⟨.writeSecret _, _⟩ :: rest => exportOf rest
  | ⟨.flushPredecessor _, _⟩ :: rest => exportOf rest
  | ⟨.loadJournal, _⟩ :: rest => exportOf rest
  | ⟨.storeJournal _, _⟩ :: rest => exportOf rest
  | ⟨.probeVerdict _, _⟩ :: rest => exportOf rest

theorem offersOf_append (first second : History) :
    offersOf (first ++ second) = offersOf first ++ offersOf second := by
  induction first with
  | nil => rfl
  | cons event rest ih =>
    obtain ⟨request, answer⟩ := event
    cases request <;> simp [offersOf, ih]

def ItemWrite.Landed (answer : ItemWrite) : Prop := answer = .written ∨ answer = .alreadyAuthoritative

/-- What a walk without a journal says of each call it makes for a predecessor, with the calls
    before it in view. -/
def InOrder (policy : SecretSelectionPolicy) (row : DelegateKey × UInt32) (before : History) :
    Event Request Answer → Prop
  | ⟨.writeSecret item, _⟩ =>
    item.predecessor = row.1 ∧ isMarker item.key = false ∧
      ⟨.recordMarker row.1 (.inProgress true), .ok ()⟩ ∈ before
  | ⟨.recordMarker predecessor (.inProgress sawData), _⟩ =>
    predecessor = row.1 ∧ (∀ marker answer, ⟨.recordMarker row.1 marker, answer⟩ ∉ before) ∧
      ∃ marker secrets, ⟨.migrationMarker ⟨row.1, row.2, policy.legacyBridge⟩, .ok marker⟩ ∈ before ∧
        ⟨.fetchSecrets row.1, .ok secrets⟩ ∈ before ∧
        (sawData = true ↔ ∃ pair ∈ secrets, isMarker pair.1 = false) ∧
        (marker = none ∨ marker = some (.inProgress false) ∨
          (marker = some (.inProgress true) ∧ sawData = true))
  | ⟨.recordMarker predecessor (.done hadData), _⟩ =>
    predecessor = row.1 ∧
      (∀ marker answer, ⟨.recordMarker row.1 marker, answer⟩ ∈ before ↔
        (⟨.recordMarker row.1 marker, answer⟩ : Event Request Answer) =
          ⟨.recordMarker row.1 (.inProgress hadData), .ok ()⟩) ∧
      ⟨.flushPredecessor row.1, .ok ()⟩ ∈ before ∧
      ∃ secrets, ⟨.fetchSecrets row.1, .ok secrets⟩ ∈ before ∧
        (offersOf before).map (fun offer => (offer.1.key, offer.1.value)) =
          secrets.filter (fun pair => !isMarker pair.1) ∧
        ∀ offer ∈ offersOf before, offer.2.Landed
  | _ => True

section Plain

variable {State : Type} {world : World Request Answer State} {s s' : State}
  {policy : SecretSelectionPolicy} {row : DelegateKey × UInt32} {state state' : WalkState Unit}
  {events : History} {asked : Asked} {items secrets : List SecretPair} {sawData : Bool}
  {observed : Unit} {withheldKeys : List Bytes} {offering result : Offering} {rounds : List History}

def exportCalls (policy : SecretSelectionPolicy) (row : DelegateKey × UInt32)
    (marker : Option MigrationMarker) (secrets : List SecretPair) : History :=
  [⟨.migrationMarker ⟨row.1, row.2, policy.legacyBridge⟩, .ok marker⟩,
    ⟨.probeVerdict row.1, .ok .executable⟩, ⟨.fetchSecrets row.1, .ok secrets⟩]

theorem Asks.plain (asks : Asks noObserver policy world s state row asked events s' observed) :
    events = [⟨.migrationMarker ⟨row.1, row.2, policy.legacyBridge⟩, .ok asked.marker⟩] := by
  cases asks with
  | fresh => rfl
  | flagged opens unsealed prior told =>
    obtain ⟨rfl, -, -⟩ := told_plain told
    rfl

theorem Exports.plain
    (exports : Exports noObserver policy world s state row asked secrets events s' observed) :
    events = exportCalls policy row asked.marker secrets := by
  have key := exports.on.key
  cases exports with
  | mk asks =>
    rw [asks.plain, key]
    rfl

structure Engaged (policy : SecretSelectionPolicy) (row : DelegateKey × UInt32) (asked : Asked)
    (items secrets : List SecretPair) (sawData : Bool) (events : History) : Prop where
  key : asked.key = row.1
  calls : events = exportCalls policy row asked.marker secrets
  own : items = offerable noObserver secrets
  data : sawData = true ↔ items ≠ []
  prior : asked.priorSawData = true → sawData = true
  unsealed : ∀ hadData, asked.marker ≠ some (.done hadData)
  known : asked.priorSawData = decide (asked.marker = some (.inProgress true))

theorem Engaged.exportOf {more : History}
    (engaged : Engaged policy row asked items secrets sawData events) :
    Migrate.exportOf (events ++ more) = items := by
  rw [engaged.calls, engaged.own, offerable_eq]
  rfl

theorem Engages.plain
    (engages : Engages noObserver policy world s state row asked items sawData events s' observed) :
    ∃ secrets, Engaged policy row asked items secrets sawData events := by
  have on := engages.on
  cases engages with
  | nothing exports empty noPrior =>
    refine ⟨_, on.key, exports.plain, empty.symm, by simp, ?_, on.unsealed_plain, on.prior_plain⟩
    rw [noPrior]
    exact id
  | data exports nonempty told enough =>
    obtain ⟨rfl, -, -⟩ := told_plain told
    refine ⟨_, on.key, ?_, rfl, by simp [nonempty], fun _ => rfl, on.unsealed_plain,
      on.prior_plain⟩
    rw [List.append_nil, exports.plain]

theorem Begins.plain
    (begins : Begins noObserver policy world s state row asked items sawData events s' observed) :
    ∃ secrets first, Engaged policy row asked items secrets sawData first ∧
      events = first ++ [⟨.recordMarker row.1 (.inProgress sawData), .ok ()⟩] := by
  cases begins with
  | unsealed engages begun noSeal =>
    obtain ⟨secrets, engaged⟩ := engages.plain
    exact ⟨secrets, _, engaged, by rw [engaged.key]⟩
  | overSeal engages begun emptySeal readBack =>
    obtain ⟨secrets, engaged⟩ := engages.plain
    exact absurd emptySeal (engaged.unsealed false)

theorem isClean_of_answered {key : Bytes} {answer : ItemWrite}
    (clean : (offering.answered key answer).tally.isClean = true) :
    offering.tally.isClean = true ∧ answer.Landed := by
  cases answer with
  | written => exact ⟨clean, .inl rfl⟩
  | alreadyAuthoritative => exact ⟨clean, .inr rfl⟩
  | failed error retry => cases retry <;> simp [Offering.answered, ImportTally.isClean] at clean

theorem isClean_of_offers
    (offers : Iterates world (offerItem asked withheldKeys) s offering items rounds s' result)
    (clean : result.tally.isClean = true) :
    offering.tally.isClean = true ∧
      (offersOf rounds.flatten).map Prod.fst = items.map (itemOf asked) ∧
      ∀ offer ∈ offersOf rounds.flatten, offer.2.Landed := by
  induction offers with
  | nil => exact ⟨clean, rfl, by simp [offersOf]⟩
  | @cons _ _ _ _ _ _ pair items calls rounds round _ ih =>
    obtain ⟨before, offered, landed⟩ := ih clean
    rcases offerItem_cases round with ⟨-, -, -, rfl⟩ | ⟨-, answer, rfl, -, rfl⟩
    · simp [ImportTally.isClean] at before
    · obtain ⟨earlier, now⟩ := isClean_of_answered before
      refine ⟨earlier, ?_, ?_⟩
      · rw [List.flatten_cons, offersOf_append, List.map_append, offered]
        rfl
      · intro offer member
        rw [List.flatten_cons, offersOf_append, List.mem_append] at member
        rcases member with first | later
        · rw [List.mem_singleton.mp first]
          exact now
        · exact landed offer later

theorem follows_of_asking (asking : Only (AskingCall row.1) events) {past : History} :
    Follows (InOrder policy row) past events := by
  refine follows_of_forall ?_
  rintro ⟨request, answer⟩ member before -
  have call := asking _ member
  cases request <;> first | exact call.elim | trivial

theorem Engaged.asking (engaged : Engaged policy row asked items secrets sawData events) :
    Only (AskingCall row.1) events := by
  rw [engaged.calls]
  simp [exportCalls, AskingCall, JournalCall]

theorem Engaged.exported (engaged : Engaged policy row asked items secrets sawData events) :
    sawData = true ↔ ∃ pair ∈ secrets, isMarker pair.1 = false := by
  rw [engaged.data, engaged.own, ne_eq, offerable_plain]
  simp

theorem Engaged.intent {answer : Except String Unit}
    (engaged : Engaged policy row asked items secrets sawData events) :
    InOrder policy row events ⟨.recordMarker row.1 (.inProgress sawData), answer⟩ := by
  refine ⟨rfl, ?_, asked.marker, secrets, ?_, ?_, engaged.exported, ?_⟩
  · rw [engaged.calls]
    simp [exportCalls]
  · rw [engaged.calls]
    simp [exportCalls]
  · rw [engaged.calls]
    simp [exportCalls]
  · have known := engaged.known
    cases marker : asked.marker with
    | none => exact .inl rfl
    | some held =>
      cases held with
      | done hadData => exact absurd marker (engaged.unsealed hadData)
      | inProgress before =>
        cases before with
        | false => exact .inr (.inl rfl)
        | true =>
          exact .inr (.inr ⟨rfl, engaged.prior (by simpa [marker] using known)⟩)

theorem follows_of_offers {past : History} (own : items = offerable noObserver secrets)
    (key : asked.key = row.1)
    (intent : items ≠ [] → ⟨.recordMarker row.1 (.inProgress true), .ok ()⟩ ∈ past)
    (offers : Iterates world (offerItem asked withheldKeys) s offering items rounds s' result) :
    Follows (InOrder policy row) past rounds.flatten := by
  refine follows_of_forall ?_
  intro event member before goesOn
  obtain ⟨pair, among, answer, rfl⟩ := event_of_offers offers event member
  refine ⟨key, ?_, goesOn (intent (List.ne_nil_of_mem among))⟩
  rw [own] at among
  have unreserved : isMarker pair.1 = false := by
    simpa [noObserver] using (List.mem_filter.mp among).2
  exact unreserved

/-- What is before a completion marker: the intent alone of the markers, the flush, and every item
    of the export landed. -/
theorem Engaged.completes {first : History}
    (engaged : Engaged policy row asked items secrets sawData first)
    (offers : Iterates world (offerItem asked withheldKeys) s .start items rounds s' result)
    (clean : result.tally.isClean = true) {answer : Except String Unit} :
    InOrder policy row
      (first ++ [⟨.recordMarker row.1 (.inProgress sawData), .ok ()⟩] ++ rounds.flatten ++
        [⟨.flushPredecessor row.1, .ok ()⟩])
      ⟨.recordMarker row.1 (.done sawData), answer⟩ := by
  obtain ⟨-, offered, landed⟩ := isClean_of_offers offers clean
  have unmarked : ∀ marker answer, ⟨.recordMarker row.1 marker, answer⟩ ∉ rounds.flatten := by
    intro marker answer member
    obtain ⟨pair, -, other, same⟩ := event_of_offers offers _ member
    cases same
  have calls := engaged.calls
  have only : offersOf (first ++ [⟨.recordMarker row.1 (.inProgress sawData), .ok ()⟩] ++
      rounds.flatten ++ [⟨.flushPredecessor row.1, .ok ()⟩]) = offersOf rounds.flatten := by
    simp [offersOf_append, calls, exportCalls, offersOf]
  refine ⟨rfl, ?_, ?_, secrets, ?_, ?_, ?_⟩
  · intro marker answer
    simp [calls, exportCalls, unmarked]
  · simp
  · simp [calls, exportCalls]
  · have pairs := congrArg (List.map fun item : RecoveredSecret => (item.key, item.value)) offered
    rw [List.map_map, List.map_map] at pairs
    rw [only]
    refine pairs.trans ?_
    rw [engaged.own]
    simp [itemOf, offerable, noObserver, Function.comp_def]
  · rw [only]
    exact landed

theorem RowRuns.inOrder (runs : RowRuns noObserver policy world s state row events s' state') :
    Follows (InOrder policy row) [] events := by
  rcases runs.asks_or_begins quiet_noObserver with ⟨asking, -⟩ | ⟨asked, items, sawData, first, s₁,
    observed, e, rfl, -, engages⟩ | ⟨asked, items, sawData, first, s₁, observed, read, error, rfl, -,
    emptySeal, engages⟩ | ⟨asked, items, sawData, begun, s₁, s₂, observed, rounds, offering, ending,
    rfl, begins, offers, completes⟩
  · exact follows_of_asking asking
  · obtain ⟨secrets, engaged⟩ := engages.plain
    rw [follows_append, engaged.key]
    exact ⟨follows_of_asking engaged.asking, engaged.intent, trivial⟩
  · obtain ⟨secrets, engaged⟩ := engages.plain
    exact absurd emptySeal (engaged.unsealed false)
  · obtain ⟨secrets, first, engaged, rfl⟩ := begins.plain
    have intent : items ≠ [] → (⟨.recordMarker row.1 (.inProgress true), .ok ()⟩ :
        Event Request Answer) ∈ first ++ [⟨.recordMarker row.1 (.inProgress sawData), .ok ()⟩] := by
      intro nonempty
      rw [engaged.data.mpr nonempty]
      exact List.mem_append_right _ (List.mem_singleton_self _)
    have started : Follows (InOrder policy row) []
        (first ++ [⟨.recordMarker row.1 (.inProgress sawData), .ok ()⟩] ++ rounds.flatten) := by
      rw [follows_append, follows_append]
      exact ⟨⟨follows_of_asking engaged.asking, engaged.intent, trivial⟩,
        follows_of_offers engaged.own engaged.key intent offers⟩
    rw [follows_append]
    refine ⟨started, ?_⟩
    cases completes with
    | flushFailed | unclean => exact ⟨trivial, trivial⟩
    | sealRefused flushed clean | completed flushed clean =>
      rw [engaged.key]
      exact ⟨trivial, engaged.completes offers (Bool.and_eq_true_iff.mp clean).1, trivial⟩

/-- A predecessor that was not reached, was silent, or exported nothing although an earlier attempt
    saw data. -/
def Visit.Unasked (policy : SecretSelectionPolicy) (visit : Visit) : Prop :=
  visit.report = .superseded visit.row.1 visit.row.2 ∨
    (∃ error, visit.report = .unresponsive visit.row.1 visit.row.2 error) ∨
    (visit.Reads policy (some (.inProgress true)) ∧ ∃ secrets,
      ⟨.fetchSecrets visit.row.1, .ok secrets⟩ ∈ visit.calls ∧
        ∀ pair ∈ secrets, isMarker pair.1 = true)

def WritingCall : Request → Prop
  | .recordMarker _ _ => True
  | .writeSecret _ => True
  | .flushPredecessor _ => True
  | _ => False

theorem writing_of_offers
    (offers : Iterates world (offerItem asked withheldKeys) s offering items rounds s' result) :
    Only WritingCall rounds.flatten := by
  intro event member
  obtain ⟨pair, -, answer, rfl⟩ := event_of_offers offers event member
  trivial

theorem Completes.writing
    (completes : Completes policy world s state asked sawData offering events s' state') :
    Only WritingCall events := by
  cases completes <;> simp [WritingCall]

theorem Engaged.exports_data {first more : History} {exported : List SecretPair}
    (engaged : Engaged policy row asked items secrets sawData first)
    (writing : Only WritingCall more)
    (read : ⟨.migrationMarker ⟨row.1, row.2, policy.legacyBridge⟩,
      .ok (some (.inProgress true))⟩ ∈ first ++ more)
    (fetched : ⟨.fetchSecrets row.1, .ok exported⟩ ∈ first ++ more) :
    ∃ pair ∈ exported, isMarker pair.1 = false := by
  have marker : asked.marker = some (.inProgress true) := by
    rcases List.mem_append.mp read with before | after
    · rw [engaged.calls] at before
      have same : some (.inProgress true) = asked.marker := by simpa [exportCalls] using before
      exact same.symm
    · exact (writing _ after).elim
  have same : exported = secrets := by
    rcases List.mem_append.mp fetched with before | after
    · rw [engaged.calls] at before
      simpa [exportCalls] using before
    · exact (writing _ after).elim
  have prior := engaged.known
  rw [marker] at prior
  rw [same]
  exact engaged.exported.mp (engaged.prior (by simpa using prior))

/-- Where a marker is recorded, the predecessor was reached and answered, with data if an earlier
    attempt saw any. -/
theorem RowRuns.unmarked {report : PredecessorMigration}
    (runs : RowRuns noObserver policy world s state row events s' state')
    (pushed : state'.results = state.results ++ [report])
    (unasked : Visit.Unasked policy ⟨row, events, report⟩) : Only (AskingCall row.1) events := by
  -- An import that is begun is reported as neither.
  have nothing : ∀ reported, state'.results = state.results ++ [reported] →
      reported ≠ .superseded row.1 row.2 → (∀ error, reported ≠ .unresponsive row.1 row.2 error) →
        Visit.Reads policy ⟨row, events, report⟩ (some (.inProgress true)) ∧ ∃ secrets,
          ⟨.fetchSecrets row.1, .ok secrets⟩ ∈ events ∧ ∀ pair ∈ secrets, isMarker pair.1 = true := by
    intro reported pushes notSuperseded notUnresponsive
    have same := report_unique pushed pushes
    rcases unasked with superseded | ⟨error, unresponsive⟩ | nothing
    · exact absurd (same.symm.trans superseded) notSuperseded
    · exact absurd (same.symm.trans unresponsive) (notUnresponsive error)
    · exact nothing
  have refuted : ∀ {asked items secrets sawData first more},
      Engaged policy row asked items secrets sawData first → events = first ++ more →
      Only WritingCall more →
      ¬ (Visit.Reads policy ⟨row, events, report⟩ (some (.inProgress true)) ∧ ∃ secrets,
        ⟨.fetchSecrets row.1, .ok secrets⟩ ∈ events ∧ ∀ pair ∈ secrets, isMarker pair.1 = true) := by
    rintro asked items secrets sawData first more engaged rfl writing ⟨read, exported, fetched, reserved⟩
    obtain ⟨pair, member, own⟩ := engaged.exports_data writing read fetched
    rw [reserved pair member] at own
    cases own
  rcases runs.asks_or_begins quiet_noObserver with ⟨asking, -⟩ | ⟨asked, items, sawData, first, s₁,
    observed, e, calls, rfl, engages⟩ | ⟨asked, items, sawData, first, s₁, observed, read, error,
    calls, rfl, emptySeal, engages⟩ | ⟨asked, items, sawData, begun, s₁, s₂, observed, rounds,
    offering, ending, calls, begins, offers, completes⟩
  · exact asking
  · obtain ⟨secrets, engaged⟩ := engages.plain
    exact absurd (nothing _ rfl nofun nofun) (refuted engaged calls (by simp [WritingCall]))
  · obtain ⟨secrets, engaged⟩ := engages.plain
    exact absurd emptySeal (engaged.unsealed false)
  · obtain ⟨secrets, first, engaged, rfl⟩ := begins.plain
    have writing : Only WritingCall ([⟨.recordMarker row.1 (.inProgress sawData), .ok ()⟩] ++
        (rounds.flatten ++ ending)) := by
      rw [only_append, only_append]
      exact ⟨by simp [WritingCall], writing_of_offers offers, completes.writing⟩
    rw [List.append_assoc, List.append_assoc] at calls
    refine absurd ?_ (refuted engaged calls writing)
    cases completes with
    | flushFailed | unclean | sealRefused => exact nothing _ rfl nofun nofun
    | completed => cases sawData <;> exact nothing _ rfl nofun nofun

theorem visits_disciplined {visits : List Visit}
    (run : Visits noObserver policy world s state visits s' state') :
    ∀ visit ∈ visits, Follows (InOrder policy visit.row) [] visit.calls ∧
      (visit.Unasked policy → Only (AskingCall visit.row.1) visit.calls) := by
  intro visit member
  obtain ⟨s₁, state₁, s₂, state₂, runs, pushed⟩ := run.visited member
  exact ⟨runs.inOrder, runs.unmarked pushed⟩

end Plain

/-- In every run, for every predecessor: no reserved key is written, nothing is written before the
    intent is recorded, a completion marker is recorded once and only over a flushed import whose
    every item landed, and no marker is recorded of a predecessor that was not asked or not believed. -/
theorem marker_discipline {State : Type} {world : World Request Answer State} {s s' : State}
    {predecessors : List DelegateLineageEntry} {policy : SecretSelectionPolicy} {events : History}
    {report : List PredecessorMigration}
    (run : Executes world s (migrateDelegateSecrets predecessors policy) events s' report) :
    ∃ visits : List Visit, InNewestOrder predecessors (visits.map Visit.row) ∧
      events = (visits.map Visit.calls).flatten ∧ report = visits.map Visit.report ∧
      ∀ visit ∈ visits,
        (∀ before event after, visit.calls = before ++ event :: after →
          InOrder policy visit.row before event) ∧
        (visit.Unasked policy → ∀ predecessor marker answer,
          ⟨.recordMarker predecessor marker, answer⟩ ∉ visit.calls) := by
  obtain ⟨visits, state', rows, calls, results, visited⟩ := visits_of_migrate run
  refine ⟨visits, ?_, calls, results, ?_⟩
  · rw [rows]
    exact newestFirst_ordered predecessors
  · intro visit member
    obtain ⟨follows, asking⟩ := visits_disciplined visited visit member
    constructor
    · intro before event after split
      rw [split] at follows
      exact follows.split
    · intro unasked predecessor marker answer recorded
      exact asking unasked _ recorded

theorem marker_discipline_two :
    let program := migrateDelegateSecrets [sampleEntry 1, sampleEntry 2] .newestSnapshotWins
    ∃ visits : List Visit, InNewestOrder [sampleEntry 1, sampleEntry 2] (visits.map Visit.row) ∧
      (program.run emptyThenData ()).1 = (visits.map Visit.calls).flatten ∧
      (program.run emptyThenData ()).2.2 = visits.map Visit.report ∧
      ∀ visit ∈ visits,
        (∀ before event after, visit.calls = before ++ event :: after →
          InOrder .newestSnapshotWins visit.row before event) ∧
        (visit.Unasked .newestSnapshotWins → ∀ predecessor marker answer,
          ⟨.recordMarker predecessor marker, answer⟩ ∉ visit.calls) :=
  marker_discipline (executes_anything _ emptyThenData ())

end FreenetMigrate.Migrate
