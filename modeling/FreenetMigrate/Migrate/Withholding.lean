import FreenetMigrate.Migrate.Discipline

namespace FreenetMigrate.Migrate

open Calls

def Retries (calls : History) (key : Bytes) : Prop :=
  ∃ item error, item.key = key ∧ ⟨.writeSecret item, .failed error .retryable⟩ ∈ calls

def Lands (calls : History) (key : Bytes) : Prop :=
  ∃ item answer, item.key = key ∧ answer.Landed ∧ ⟨.writeSecret item, answer⟩ ∈ calls

def Unflushed (calls : History) : Prop :=
  ∃ predecessor error, ⟨.flushPredecessor predecessor, .error error⟩ ∈ calls

def Begun (calls : History) : Prop :=
  ∃ predecessor sawData, ⟨.recordMarker predecessor (.inProgress sawData), .ok ()⟩ ∈ calls

def Withholds (calls : History) (key : Bytes) : Prop :=
  Retries calls key ∨ Unflushed calls ∧ Lands calls key

variable {State : Type} {world : World Request Answer State} {s s' : State}
  {policy : SecretSelectionPolicy} {row : DelegateKey × UInt32} {state state' : WalkState Unit}
  {events : History} {asked : Asked} {items secrets : List SecretPair} {sawData : Bool}
  {withheldKeys : List Bytes} {offering result : Offering} {rounds : List History} {key : Bytes}

theorem retries_cons {item : RecoveredSecret} {answer : ItemWrite} {calls : History} :
    Retries (⟨.writeSecret item, answer⟩ :: calls) key ↔
      (item.key = key ∧ ∃ error, answer = .failed error .retryable) ∨ Retries calls key := by
  unfold Retries
  constructor
  · rintro ⟨other, error, same, member⟩
    rcases List.mem_cons.mp member with now | later
    · cases now
      exact .inl ⟨same, error, rfl⟩
    · exact .inr ⟨other, error, same, later⟩
  · rintro (⟨same, error, rfl⟩ | ⟨other, error, same, later⟩)
    · exact ⟨item, error, same, List.mem_cons_self ..⟩
    · exact ⟨other, error, same, List.mem_cons_of_mem _ later⟩

theorem lands_cons {item : RecoveredSecret} {answer : ItemWrite} {calls : History} :
    Lands (⟨.writeSecret item, answer⟩ :: calls) key ↔
      (item.key = key ∧ answer.Landed) ∨ Lands calls key := by
  unfold Lands
  constructor
  · rintro ⟨other, given, same, landed, member⟩
    rcases List.mem_cons.mp member with now | later
    · cases now
      exact .inl ⟨same, landed⟩
    · exact .inr ⟨other, given, same, landed, later⟩
  · rintro (⟨same, landed⟩ | ⟨other, given, same, landed, later⟩)
    · exact ⟨item, answer, same, landed, List.mem_cons_self ..⟩
    · exact ⟨other, given, same, landed, List.mem_cons_of_mem _ later⟩

theorem newlyWithheld_answered {name : Bytes} {answer : ItemWrite} :
    key ∈ (offering.answered name answer).newlyWithheld ↔
      key ∈ offering.newlyWithheld ∨ name = key ∧ ∃ error, answer = .failed error .retryable := by
  cases answer with
  | failed error retry => cases retry <;> simp [Offering.answered, eq_comm]
  | _ => simp [Offering.answered]

theorem unflushed_answered {name : Bytes} {answer : ItemWrite} :
    key ∈ (offering.answered name answer).unflushed ↔
      key ∈ offering.unflushed ∨ name = key ∧ answer.Landed := by
  cases answer with
  | failed error retry => cases retry <;> simp [Offering.answered, ItemWrite.Landed]
  | _ => simp [Offering.answered, ItemWrite.Landed, eq_comm]

theorem withheld_answered {name : Bytes} {answer : ItemWrite} :
    (offering.answered name answer).tally.withheld = offering.tally.withheld := by
  cases answer with
  | failed error retry => cases retry <;> rfl
  | _ => rfl

/-- What offering has come to, said of the answers the items were given. -/
structure Tells (withheldKeys : List Bytes) (asked : Asked) (items : List SecretPair)
    (calls : History) (offering result : Offering) : Prop where
  newlyWithheld : ∀ key, key ∈ result.newlyWithheld ↔
    key ∈ offering.newlyWithheld ∨ Retries calls key
  unflushed : ∀ key, key ∈ result.unflushed ↔ key ∈ offering.unflushed ∨ Lands calls key
  withheld : result.tally.withheld =
    offering.tally.withheld + items.countP fun pair => decide (pair.1 ∈ withheldKeys)
  offered : (offersOf calls).map Prod.fst =
    (items.filter fun pair => decide (pair.1 ∉ withheldKeys)).map (itemOf asked)

theorem Tells.of_withheld {pair : SecretPair} {calls : History} (withheld : pair.1 ∈ withheldKeys)
    (rest : Tells withheldKeys asked items calls
      { offering with tally := { offering.tally with withheld := offering.tally.withheld + 1 } } result) :
    Tells withheldKeys asked (pair :: items) calls offering result := by
  constructor
  · exact rest.newlyWithheld
  · exact rest.unflushed
  · have counted := rest.withheld
    rw [List.countP_cons, if_pos (decide_eq_true withheld)]
    simp only at counted
    omega
  · rw [List.filter_cons, if_neg (by simpa using withheld)]
    exact rest.offered

theorem Tells.of_answered {pair : SecretPair} {answer : ItemWrite} {calls : History}
    (open' : pair.1 ∉ withheldKeys)
    (rest : Tells withheldKeys asked items calls (offering.answered pair.1 answer) result) :
    Tells withheldKeys asked (pair :: items) (⟨.writeSecret (itemOf asked pair), answer⟩ :: calls)
      offering result := by
  constructor
  · intro key
    rw [rest.newlyWithheld key, newlyWithheld_answered, retries_cons, or_assoc]
    rfl
  · intro key
    rw [rest.unflushed key, unflushed_answered, lands_cons, or_assoc]
    rfl
  · rw [List.countP_cons, if_neg (by simpa using open'), rest.withheld, withheld_answered]
    omega
  · rw [List.filter_cons, if_pos (by simpa using open'), List.map_cons, ← rest.offered]
    rfl

theorem tells_of_offers
    (offers : Iterates world (offerItem asked withheldKeys) s offering items rounds s' result) :
    Tells withheldKeys asked items rounds.flatten offering result := by
  induction offers with
  | nil => exact ⟨by simp [Retries], by simp [Lands], rfl, rfl⟩
  | cons round _ ih =>
    rcases offerItem_cases round with ⟨withheld, rfl, -, rfl⟩ | ⟨open', answer, rfl, -, rfl⟩
    · exact ih.of_withheld withheld
    · exact ih.of_answered open'

theorem retries_append {first second : History} :
    Retries (first ++ second) key ↔ Retries first key ∨ Retries second key := by
  simp [Retries, and_or_left, exists_or]

theorem lands_append {first second : History} :
    Lands (first ++ second) key ↔ Lands first key ∨ Lands second key := by
  simp [Lands, and_or_left, exists_or]

theorem unflushed_append {first second : History} :
    Unflushed (first ++ second) ↔ Unflushed first ∨ Unflushed second := by
  simp [Unflushed, exists_or]

theorem offersOf_eq_nil {calls : History}
    (none : ∀ item answer, ⟨.writeSecret item, answer⟩ ∉ calls) : offersOf calls = [] := by
  induction calls with
  | nil => rfl
  | cons event rest ih =>
    obtain ⟨request, answer⟩ := event
    have later := ih fun item answer member => none item answer (List.mem_cons_of_mem _ member)
    cases request with
    | writeSecret item => exact absurd (List.mem_cons_self ..) (none item answer)
    | _ => exact later

structure Unoffering (calls : History) : Prop where
  retries : ∀ key, ¬ Retries calls key
  lands : ∀ key, ¬ Lands calls key
  flushed : ¬ Unflushed calls
  offers : offersOf calls = []

theorem unoffering_of_preparing {predecessor : DelegateKey} {calls : History}
    (preparing : Only (PreparingCall predecessor) calls) : Unoffering calls := by
  constructor
  · rintro key ⟨item, error, -, member⟩
    exact preparing _ member
  · rintro key ⟨item, answer, -, -, member⟩
    exact preparing _ member
  · rintro ⟨other, error, member⟩
    exact preparing _ member
  · exact offersOf_eq_nil fun item answer member => preparing _ member

theorem Unoffering.withholds {calls : History} (none : Unoffering calls) (key : Bytes) :
    ¬ Withholds calls key := by
  rintro (retries | ⟨unflushed, -⟩)
  · exact none.retries key retries
  · exact none.flushed unflushed

/-- What one iteration makes of the keys that are withheld from it. -/
structure RowWithholds (row : DelegateKey × UInt32) (events : History) (state state' : WalkState Unit) :
    Prop where
  withheldKeys : ∀ key, key ∈ state'.withheldKeys ↔ key ∈ state.withheldKeys ∨ Withholds events key
  unoffered : ¬ Begun events → offersOf events = []
  offered : Begun events → (offersOf events).map (fun offer => (offer.1.key, offer.1.value)) =
    (exportOf events).filter fun pair => decide (pair.1 ∉ state.withheldKeys)
  unsealed : (∃ pair ∈ exportOf events, pair.1 ∈ state.withheldKeys) →
    ∀ predecessor hadData answer, ⟨.recordMarker predecessor (.done hadData), answer⟩ ∉ events
  counted : Begun events → (∃ pair ∈ exportOf events, pair.1 ∈ state.withheldKeys) →
    ∃ tally failure,
      state'.results = state.results ++ [.incomplete row.1 row.2 tally failure] ∧
      tally.withheld = (exportOf events).countP fun pair => decide (pair.1 ∈ state.withheldKeys)

theorem RowWithholds.of_unbegun (preparing : Only (PreparingCall row.1) events)
    (unbegun : ¬ Begun events) (same : state'.withheldKeys = state.withheldKeys) :
    RowWithholds row events state state' := by
  have none := unoffering_of_preparing preparing
  constructor
  · intro key
    rw [same]
    exact (or_iff_left (none.withholds key)).symm
  · exact fun _ => none.offers
  · exact fun begun => absurd begun unbegun
  · intro _ predecessor hadData answer member
    exact preparing _ member
  · exact fun begun => absurd begun unbegun

theorem Completes.withholds {ending calls : History} {asked : Asked} {observed : Unit}
    (completes : Completes policy world s { state with observed } asked sawData offering ending s' state')
    (tells : Tells state.withheldKeys asked items calls .start offering) :
    ∀ key, key ∈ state'.withheldKeys ↔ key ∈ state.withheldKeys ∨
      Retries calls key ∨ Unflushed ending ∧ Lands calls key := by
  intro key
  have newly := tells.newlyWithheld key
  have unflushed := tells.unflushed key
  simp only [Offering.start, List.not_mem_nil, false_or] at newly unflushed
  cases completes with
  | flushFailed => simp [WalkState.push, newly, unflushed, Unflushed]
  | _ => simp [WalkState.push, newly, Unflushed]

theorem Completes.incomplete {ending : History} {observed : Unit}
    (completes : Completes policy world s { state with observed } asked sawData offering ending s' state')
    (withheld : 0 < offering.tally.withheld) :
    (∀ predecessor hadData answer, ⟨.recordMarker predecessor (.done hadData), answer⟩ ∉ ending) ∧
      ∃ tally failure,
        state'.results = state.results ++ [.incomplete asked.key asked.generation tally failure] ∧
        tally.withheld = offering.tally.withheld := by
  have unclean : offering.tally.isClean = false := by
    simp [ImportTally.isClean, Nat.ne_of_gt withheld]
  cases completes with
  | flushFailed => exact ⟨by simp, _, _, rfl, rfl⟩
  | unclean => exact ⟨by simp, _, _, rfl, rfl⟩
  | sealRefused flushed clean | completed flushed clean =>
    rw [unclean] at clean
    cases clean

theorem RowWithholds.of_offers {first ending : History} {observed : Unit} {s₁ s₂ : State}
    (engaged : Engaged policy row asked items secrets sawData first)
    (generation : asked.generation = row.2)
    (offers : Iterates world (offerItem asked state.withheldKeys) s₁ .start items rounds s₂ offering)
    (completes : Completes policy world s₂ { state with observed } asked sawData offering ending s'
      state') :
    RowWithholds row (first ++ [⟨.recordMarker row.1 (.inProgress sawData), .ok ()⟩] ++
      rounds.flatten ++ ending) state state' := by
  have tells := tells_of_offers offers
  have preparing : Only (PreparingCall row.1)
      (first ++ [⟨.recordMarker row.1 (.inProgress sawData), .ok ()⟩]) := by
    rw [only_append]
    exact ⟨engaged.asking.mono fun _ => AskingCall.preparing, by simp [PreparingCall]⟩
  have none := unoffering_of_preparing preparing
  have unoffered : ∀ item answer, ⟨.writeSecret item, answer⟩ ∉ ending := by
    intro item answer member
    cases completes <;> simp at member
  have begun : Begun (first ++ [⟨.recordMarker row.1 (.inProgress sawData), .ok ()⟩] ++
      rounds.flatten ++ ending) := ⟨row.1, sawData, by simp⟩
  have exported : exportOf (first ++ [⟨.recordMarker row.1 (.inProgress sawData), .ok ()⟩] ++
      rounds.flatten ++ ending) = items := by
    rw [List.append_assoc, List.append_assoc]
    exact engaged.exportOf
  have total := tells.withheld
  have counted : (∃ pair ∈ items, pair.1 ∈ state.withheldKeys) → 0 < offering.tally.withheld := by
    intro held
    rw [total]
    apply Nat.add_pos_right
    simpa [List.countP_pos_iff] using held
  constructor
  · intro key
    have noRetry : ¬ Retries ending key := by
      rintro ⟨item, error, -, member⟩
      exact unoffered item _ member
    have noLand : ¬ Lands ending key := by
      rintro ⟨item, answer, -, -, member⟩
      exact unoffered item _ member
    have noFlush : ¬ Unflushed rounds.flatten := by
      rintro ⟨predecessor, error, member⟩
      obtain ⟨pair, -, answer, same⟩ := event_of_offers offers _ member
      cases same
    rw [completes.withholds tells key]
    unfold Withholds
    rw [retries_append, retries_append, lands_append, lands_append, unflushed_append, unflushed_append]
    simp [none.retries key, none.lands key, none.flushed, noRetry, noLand, noFlush]
  · exact fun unbegun => absurd begun unbegun
  · intro _
    have pairs := congrArg (List.map fun item : RecoveredSecret => (item.key, item.value)) tells.offered
    rw [List.map_map, List.map_map] at pairs
    rw [exported, offersOf_append, offersOf_append, none.offers, offersOf_eq_nil unoffered,
      List.nil_append, List.append_nil]
    refine pairs.trans ?_
    simp [itemOf, Function.comp_def]
  · rw [exported]
    intro held predecessor hadData answer member
    rcases List.mem_append.mp member with before | after
    · rcases List.mem_append.mp before with first | offered
      · exact preparing _ first
      · obtain ⟨pair, -, given, same⟩ := event_of_offers offers _ offered
        cases same
    · exact (completes.incomplete (counted held)).1 predecessor hadData answer after
  · rw [exported]
    intro _ held
    obtain ⟨tally, failure, pushed, same⟩ := (completes.incomplete (counted held)).2
    refine ⟨tally, failure, ?_, ?_⟩
    · rw [pushed, engaged.key, generation]
    · rw [same, total]
      exact Nat.zero_add _

theorem RowRuns.withholds (runs : RowRuns noObserver policy world s state row events s' state') :
    RowWithholds row events state state' := by
  rcases runs.asks_or_begins quiet_noObserver with ⟨asking, same⟩ | ⟨asked, items, sawData, first, s₁,
    observed, e, rfl, rfl, engages⟩ | ⟨asked, items, sawData, first, s₁, observed, read, error, rfl, -,
    emptySeal, engages⟩ | ⟨asked, items, sawData, begun, s₁, s₂, observed, rounds, offering, ending,
    rfl, begins, offers, completes⟩
  · apply RowWithholds.of_unbegun (asking.mono fun _ => AskingCall.preparing) _ same
    rintro ⟨predecessor, sawData, member⟩
    exact asking _ member
  · obtain ⟨secrets, engaged⟩ := engages.plain
    have asking := engaged.asking
    apply RowWithholds.of_unbegun
    · rw [only_append]
      exact ⟨asking.mono fun _ => AskingCall.preparing, by simp [PreparingCall, engaged.key]⟩
    · rintro ⟨predecessor, sawData, member⟩
      rcases List.mem_append.mp member with before | refused
      · exact asking _ before
      · simp at refused
    · rfl
  · obtain ⟨secrets, engaged⟩ := engages.plain
    exact absurd emptySeal (engaged.unsealed false)
  · have generation := begins.on.generation
    obtain ⟨secrets, first, engaged, rfl⟩ := begins.plain
    exact .of_offers engaged generation offers completes

/-- The keys withheld from a predecessor are those that newer ones withheld. -/
theorem visits_withheld {visits : List Visit}
    (run : Visits noObserver policy world s state visits s' state') (key : Bytes) :
    key ∈ state'.withheldKeys ↔
      key ∈ state.withheldKeys ∨ ∃ visit ∈ visits, Withholds visit.calls key := by
  induction run with
  | nil => simp
  | cons round _ _ ih =>
    have row := (rowRuns_of_executes round).withholds
    rw [ih, row.withheldKeys key, or_assoc]
    simp

/-- What a predecessor may expect once newer ones withheld keys: none of these is offered, one that it
    exports costs it the completion marker and is counted if it is imported at all, and a key that
    was only ever rejected for good is offered again. -/
structure Respects (newer : List Visit) (visit : Visit) : Prop where
  unoffered : ∀ earlier ∈ newer, ∀ key, Withholds earlier.calls key →
    ∀ item answer, ⟨.writeSecret item, answer⟩ ∈ visit.calls → item.key ≠ key
  unsealed : ∀ earlier ∈ newer, ∀ key, Withholds earlier.calls key →
    (∃ pair ∈ exportOf visit.calls, pair.1 = key) →
    ∀ predecessor hadData answer, ⟨.recordMarker predecessor (.done hadData), answer⟩ ∉ visit.calls
  counted : ∀ earlier ∈ newer, ∀ key, Withholds earlier.calls key →
    (∃ pair ∈ exportOf visit.calls, pair.1 = key) → Begun visit.calls →
    ∃ tally failure, visit.report = .incomplete visit.row.1 visit.row.2 tally failure ∧
      (exportOf visit.calls).countP (fun pair => decide (pair.1 = key)) ≤ tally.withheld
  rejected : ∀ key, (∀ earlier ∈ newer, ∀ item answer,
      ⟨.writeSecret item, answer⟩ ∈ earlier.calls → item.key = key →
        ∃ error, answer = .failed error .permanent) →
    Begun visit.calls → ∀ pair ∈ exportOf visit.calls, pair.1 = key →
    ∃ item answer, ⟨.writeSecret item, answer⟩ ∈ visit.calls ∧ item.key = key ∧ item.value = pair.2

theorem mem_offersOf {calls : History} {item : RecoveredSecret} {answer : ItemWrite} :
    (item, answer) ∈ offersOf calls ↔ ⟨.writeSecret item, answer⟩ ∈ calls := by
  induction calls with
  | nil => simp [offersOf]
  | cons event rest ih =>
    obtain ⟨request, given⟩ := event
    cases request <;> simp [offersOf, ih]

theorem not_withholds_of_permanent {calls : History}
    (permanent : ∀ item answer, ⟨.writeSecret item, answer⟩ ∈ calls → item.key = key →
      ∃ error, answer = .failed error .permanent) : ¬ Withholds calls key := by
  rintro (⟨item, error, same, member⟩ | ⟨-, item, answer, same, landed, member⟩)
  · obtain ⟨other, wrong⟩ := permanent item _ member same
    cases wrong
  · obtain ⟨other, rfl⟩ := permanent item answer member same
    rcases landed with wrong | wrong <;> cases wrong

theorem respects_of_row {newer : List Visit} {visit : Visit}
    (row : RowWithholds visit.row visit.calls state state')
    (pushed : state'.results = state.results ++ [visit.report])
    (before : ∀ key, key ∈ state.withheldKeys ↔ ∃ earlier ∈ newer, Withholds earlier.calls key) :
    Respects newer visit := by
  constructor
  · intro earlier member key withheld item answer offered same
    by_cases begun : Begun visit.calls
    · have among : (item.key, item.value) ∈
          (offersOf visit.calls).map fun offer => (offer.1.key, offer.1.value) :=
        List.mem_map.mpr ⟨(item, answer), mem_offersOf.mpr offered, rfl⟩
      rw [row.offered begun] at among
      have open' := of_decide_eq_true (List.mem_filter.mp among).2
      exact open' ((before _).mpr ⟨earlier, member, same ▸ withheld⟩)
    · have none := mem_offersOf.mpr offered
      rw [row.unoffered begun] at none
      cases none
  · rintro earlier member key withheld ⟨pair, exported, rfl⟩
    exact row.unsealed ⟨pair, exported, (before _).mpr ⟨earlier, member, withheld⟩⟩
  · rintro earlier member key withheld ⟨pair, exported, rfl⟩ begun
    have held := (before _).mpr ⟨earlier, member, withheld⟩
    obtain ⟨tally, failure, reported, total⟩ := row.counted begun ⟨pair, exported, held⟩
    refine ⟨tally, failure, ?_, ?_⟩
    · exact report_unique pushed reported
    · rw [total]
      apply List.countP_mono_left
      intro other _ same
      rw [of_decide_eq_true same]
      exact decide_eq_true held
  · rintro key permanent begun pair exported rfl
    have open' : pair.1 ∉ state.withheldKeys := by
      rw [before]
      rintro ⟨earlier, member, withheld⟩
      exact not_withholds_of_permanent (permanent earlier member) withheld
    have offered : pair ∈ (offersOf visit.calls).map fun offer => (offer.1.key, offer.1.value) := by
      rw [row.offered begun]
      exact List.mem_filter.mpr ⟨exported, decide_eq_true open'⟩
    obtain ⟨⟨item, answer⟩, given, same⟩ := List.mem_map.mp offered
    refine ⟨item, answer, mem_offersOf.mp given, ?_, ?_⟩
    · rw [← same]
    · rw [← same]

/-- In every run, for every predecessor: whatever newer ones withheld is withheld from it. -/
theorem withholding {predecessors : List DelegateLineageEntry} {report : List PredecessorMigration}
    (run : Executes world s (migrateDelegateSecrets predecessors policy) events s' report) :
    ∃ visits : List Visit, ∃ outcome : WalkState Unit,
      Visits noObserver policy world s (.start ()) visits s' outcome ∧
      visits.map Visit.row = newestFirst predecessors ∧
      events = (visits.map Visit.calls).flatten ∧ report = visits.map Visit.report ∧
      ∀ newer visit older, visits = newer ++ visit :: older → Respects newer visit := by
  obtain ⟨visits, outcome, rows, calls, results, visited⟩ := visits_of_migrate run
  refine ⟨visits, outcome, visited, rows, calls, results, ?_⟩
  rintro newer visit older rfl
  obtain ⟨s₁, state₁, s₂, state₂, before, round, pushed, -⟩ := visited.split
  apply respects_of_row (rowRuns_of_executes round).withholds pushed
  intro key
  rw [visits_withheld before key]
  simp [WalkState.start]

def refuseItems : Unit → (request : Request) → Answer request × Unit
  | _, .migrationMarker _ => (.ok none, ())
  | _, .recordMarker key _ =>
    (if key = lineageKey (sampleEntry 1) then .error "refused" else .ok (), ())
  | _, .writeSecret _ => (.failed "refused" .retryable, ())
  | _, .flushPredecessor _ => (.ok (), ())
  | _, .loadJournal => (.ok none, ())
  | _, .storeJournal _ => (.ok (), ())
  | _, .probeVerdict _ => (.ok .executable, ())
  | _, .fetchSecrets _ => (.ok [([1], [2])], ())

theorem withholding_two :
    let program := migrateDelegateSecrets [sampleEntry 1, sampleEntry 2] .unionAllGenerations
    ∃ visits : List Visit, ∃ outcome : WalkState Unit,
      Visits noObserver .unionAllGenerations anything () (.start ()) visits
        (program.run refuseItems ()).2.1 outcome ∧
      visits.map Visit.row = newestFirst [sampleEntry 1, sampleEntry 2] ∧
      (program.run refuseItems ()).1 = (visits.map Visit.calls).flatten ∧
      (program.run refuseItems ()).2.2 = visits.map Visit.report ∧
      ∀ newer visit older, visits = newer ++ visit :: older → Respects newer visit :=
  withholding (executes_anything _ refuseItems ())

def refusedVisits : List Visit :=
  let run := (migrateDelegateSecrets [sampleEntry 1, sampleEntry 2] .unionAllGenerations).run refuseItems ()
  [⟨(lineageKey (sampleEntry 2), 2), run.1.take 6,
      .incomplete (lineageKey (sampleEntry 2)) 2 ⟨0, 0, 1, 0, 0⟩ (some ⟨.item, "refused"⟩)⟩,
    ⟨(lineageKey (sampleEntry 1), 1), run.1.drop 6,
      .writerUnavailable (lineageKey (sampleEntry 1)) 1 ⟨.beginMarker, "refused"⟩⟩]

/-- The older predecessor exports a key that the newer one withheld, and counts nothing. -/
theorem withheld_uncounted :
    let program := migrateDelegateSecrets [sampleEntry 1, sampleEntry 2] .unionAllGenerations
    (∃ outcome, Visits noObserver .unionAllGenerations anything () (.start ()) refusedVisits
        (program.run refuseItems ()).2.1 outcome) ∧
      refusedVisits.map Visit.row = newestFirst [sampleEntry 1, sampleEntry 2] ∧
      (program.run refuseItems ()).1 = (refusedVisits.map Visit.calls).flatten ∧
      (program.run refuseItems ()).2.2 = refusedVisits.map Visit.report ∧
      ∃ newer older, refusedVisits = [newer, older] ∧ Withholds newer.calls [1] ∧
        (∃ pair ∈ exportOf older.calls, pair.1 = [1]) ∧
        ∀ tally failure, older.report ≠ .incomplete older.row.1 older.row.2 tally failure := by
  refine ⟨?_, by decide +kernel, rfl, by decide +kernel, _, _, rfl, ?_, ?_, ?_⟩
  · let walked (state : WalkState Unit) (row : DelegateKey × UInt32) :=
      executes_anything (walkRow noObserver .unionAllGenerations state row) refuseItems ()
    exact ⟨_, .cons (walked _ _) rfl (.cons (walked _ _) rfl (.nil _ _))⟩
  · left
    exact ⟨⟨lineageKey (sampleEntry 2), 2, [1], [2], false⟩, "refused", rfl,
      .tail _ (.tail _ (.tail _ (.tail _ (.head _))))⟩
  · exact ⟨([1], [2]), .head _, rfl⟩
  · rintro tally failure wrong
    cases wrong

end FreenetMigrate.Migrate
