import FreenetMigrate.Probe.Reference
import FreenetMigrate.Probe.Run

namespace FreenetMigrate.Probe

open PointerClient (ContractInstanceId Step)

namespace ProbeDriver

variable {State : Type}

def rules (driver : ProbeDriver State) (snapshot : State) : Rules State :=
  ⟨driver.ops, driver.policy, driver.continuePastUnknown, snapshot⟩

def budget (driver : ProbeDriver State) : Nat :=
  driver.maxHops - driver.hops + driver.outstanding.toList.length

end ProbeDriver

section Simulation

variable {State : Type} {driver : ProbeDriver State} {snapshot : State} {rows : List Row}
  {course : Course State}

structure Ahead (snapshot : State) (rows : List Row) (driver : ProbeDriver State) : Prop where
  phase : driver.phase = .probing
  localState : driver.localState = some snapshot
  rows : rows.map Prod.fst = driver.outstanding.toList ++ driver.remaining

def ProbeDriver.comingTo (driver : ProbeDriver State) (snapshot : State) (rows : List Row) :
    Course State :=
  (driver.rules snapshot).course driver.budget rows driver.foldAcc driver.unresolved

/-- A driver is on a course: the reference takes it there, or it has come there. -/
inductive Heads (snapshot : State) (rows : List Row) (course : Course State)
    (driver : ProbeDriver State) : Prop
  | ahead (ahead : Ahead snapshot rows driver) (same : driver.comingTo snapshot rows = course)
  | ended (phase : driver.phase = .done (some course.outcome)) (heard : course.heard = [])
    (idle : driver.outstanding = none)

theorem Ahead.exhausts (ahead : Ahead snapshot rows driver) :
    ∃ next, driver.finishExhausted = some next ∧ next.outstanding = driver.outstanding ∧
      next.phase = .done
        (some ((driver.rules snapshot).exhausted driver.foldAcc driver.unresolved driver.remaining)) := by
  unfold ProbeDriver.finishExhausted
  rw [ahead.localState]
  exact ⟨_, rfl, rfl, rfl⟩

theorem Ahead.stops (ahead : Ahead snapshot rows driver) (idle : driver.outstanding = none)
    (stops : driver.remaining = [] ∨ driver.maxHops ≤ driver.hops) :
    driver.comingTo snapshot rows = ⟨[], (driver.rules snapshot).exhausted driver.foldAcc
      driver.unresolved driver.remaining⟩ := by
  have covered := ahead.rows
  rw [idle, Option.toList_none, List.nil_append] at covered
  rw [← covered]
  cases rows with
  | nil => simp only [ProbeDriver.comingTo, Rules.course, List.map_nil]
  | cons row later =>
    rw [← covered] at stops
    have spent : driver.budget = 0 := by
      simp only [ProbeDriver.budget, idle, Option.toList_none, List.length_nil]
      simp only [List.map_cons, reduceCtorEq, false_or] at stops
      omega
    simp only [ProbeDriver.comingTo, spent, Rules.course]

theorem Heads.next (heads : Heads snapshot rows course driver) :
    ∃ step next, driver.nextAction = some (step, next) ∧ Heads snapshot rows course next ∧
      (step = .done → next.phase = .done (some course.outcome)) := by
  rcases heads with ⟨ahead, same⟩ | ⟨phase, heard, idle⟩
  · rcases nextAction_cases ahead.phase with ⟨id, outstanding, action⟩ | ⟨idle, stops, action⟩ |
      ⟨id, rest, idle, remaining, below, action⟩
    · exact ⟨.get id, driver, action, .ahead ahead same, by simp⟩
    · obtain ⟨next, finished, kept, phase⟩ := ahead.exhausts
      have ended := ahead.stops idle stops
      have reached : next.phase = .done (some course.outcome) := by rw [phase, ← same, ended]
      rw [finished] at action
      exact ⟨.done, next, action, .ended reached (by rw [← same, ended]) (kept.trans idle),
        fun _ => reached⟩
    · have covered := ahead.rows
      rw [idle, Option.toList_none, List.nil_append, remaining] at covered
      refine ⟨.get id, _, action, .ahead ⟨ahead.phase, ahead.localState, covered⟩ ?_, by simp⟩
      have kept : driver.maxHops - (driver.hops + 1) + 1 = driver.budget := by
        simp only [ProbeDriver.budget, idle, Option.toList_none, List.length_nil]
        omega
      rw [← same]
      simp only [ProbeDriver.comingTo, ProbeDriver.budget, Option.toList_some, List.length_singleton,
        kept]
      rfl
  · exact ⟨.done, driver, nextAction_over phase, .ended phase heard idle, fun _ => phase⟩

/-- Asked for an instruction, a driver on a course ends where the course does, or names the next
    candidate it hears. -/
theorem Heads.asks (heads : Heads snapshot rows course driver) :
    (∃ next, driver.nextAction = some (.done, next) ∧ next.phase = .done (some course.outcome) ∧
      course.heard = []) ∨
    ∃ id next, driver.nextAction = some (.get id, next) ∧ next.outstanding = some id ∧
      Ahead snapshot rows next ∧ next.comingTo snapshot rows = course := by
  obtain ⟨step, next, action, onward, ended⟩ := heads.next
  cases step with
  | done =>
    have phase := ended rfl
    refine .inl ⟨next, action, phase, ?_⟩
    rcases onward with ⟨ahead, -⟩ | ⟨-, heard, -⟩
    · rw [ahead.phase] at phase
      cases phase
    · exact heard
  | get id =>
    obtain ⟨probing, outstanding⟩ := driver.nextAction_get action
    refine .inr ⟨id, next, action, outstanding, ?_⟩
    rcases onward with ⟨ahead, same⟩ | ⟨phase, -, -⟩
    · exact ⟨ahead, same⟩
    · rw [probing] at phase
      cases phase

theorem Ahead.hears {id : ContractInstanceId} {answer : ProbeAnswer} {later : List Row}
    (ahead : Ahead snapshot ((id, answer) :: later) driver) (outstanding : driver.outstanding = some id) :
    ∃ next course, driver.call (answer.deliver id) = some next ∧ next.outstanding = none ∧
      driver.comingTo snapshot ((id, answer) :: later) = course.behind [(id, answer)] ∧
      Heads snapshot later course next := by
  have covered : later.map Prod.fst = driver.remaining := by
    have rows := ahead.rows
    rw [outstanding] at rows
    exact (List.cons.inj rows).2
  have budget : driver.budget = (driver.maxHops - driver.hops) + 1 := by
    simp only [ProbeDriver.budget, outstanding, Option.toList_some, List.length_singleton]
  have idle : ∀ fold unresolved, Heads snapshot later
      ((driver.rules snapshot).course (driver.maxHops - driver.hops) later fold unresolved)
      { driver with outstanding := none, foldAcc := fold, unresolved } := by
    intro fold unresolved
    exact .ahead ⟨ahead.phase, ahead.localState, covered⟩ rfl
  rw [call_accepted (accepts_iff.mpr ⟨ahead.phase, outstanding⟩), ProbeDriver.comingTo, budget]
  cases read : answer.read driver.ops with
  | real state =>
    rcases driver.policy.newest_or_fold with policy | policy
    · rw [Rules.course_newest _ _ _ _ read policy]
      exact ⟨_, ⟨[], _⟩, ProbeDriver.onHit_newestFirstWins policy ahead.localState, rfl, rfl,
        .ended rfl rfl rfl⟩
    · rw [Rules.course_fold _ _ _ _ read policy]
      exact ⟨_, _, ProbeDriver.onHit_foldAll policy, rfl, rfl, idle _ _⟩
  | miss =>
    rw [Rules.course_miss _ _ _ _ read]
    exact ⟨_, _, rfl, rfl, rfl, idle driver.foldAcc driver.unresolved⟩
  | silence =>
    rw [Rules.course_silence _ _ _ _ read]
    simp only
    by_cases halts : (driver.policy.unknownTerminates && !driver.continuePastUnknown) = true
    · have stops : (driver.rules snapshot).halts = true := halts
      rw [if_pos halts, if_pos stops]
      unfold ProbeDriver.finishIndeterminate
      rw [ahead.localState, covered]
      exact ⟨_, ⟨[], _⟩, rfl, rfl, rfl, .ended rfl rfl rfl⟩
    · have walksOn : ¬ (driver.rules snapshot).halts = true := halts
      rw [if_neg halts, if_neg walksOn]
      exact ⟨_, _, rfl, rfl, rfl, idle driver.foldAcc (addUnresolved driver.unresolved id)⟩

/-- One call. Where it brings an answer, the answer is the next row's. -/
theorem Heads.call (heads : Heads snapshot rows course driver) (call : DriverCall)
    (told : (driver.log call).answers <+: rows) :
    ∃ next later after, driver.call call = some next ∧ rows = (driver.log call).answers ++ later ∧
      course = after.behind (driver.log call).answers ∧ Heads snapshot later after next := by
  rcases ProbeDriver.cases_call call with rfl | ⟨id, answer, rfl⟩
  · obtain ⟨step, next, action, heads, -⟩ := heads.next
    rw [answers_nextAction]
    exact ⟨next, rows, course, call_nextAction action, rfl, rfl, heads⟩
  · cases accepts : driver.accepts id with
    | false =>
      rw [log_ignored accepts]
      exact ⟨driver, rows, course, call_ignored accepts answer, rfl, rfl, heads⟩
    | true =>
      rw [log_accepted accepts] at told ⊢
      obtain ⟨later, rfl⟩ := told
      obtain ⟨probing, outstanding⟩ := accepts_iff.mp accepts
      rcases heads with ⟨ahead, same⟩ | ⟨phase, -⟩
      · obtain ⟨next, after, called, -, comes, heads⟩ := ahead.hears outstanding
        exact ⟨next, later, after, called, rfl, same.symm.trans comes, heads⟩
      · rw [phase] at probing
        cases probing

/-- A run whose answers are the rows' stays on course, whatever else it was told. -/
theorem Heads.run (heads : Heads snapshot rows course driver) {calls : List DriverCall}
    {trace : ProbeTrace} {final : ProbeDriver State} (ran : driver.run calls = some (trace, final))
    (told : trace.answers <+: rows) :
    ∃ later after, rows = trace.answers ++ later ∧ course = after.behind trace.answers ∧
      Heads snapshot later after final := by
  induction calls generalizing driver rows course trace with
  | nil =>
    obtain ⟨rfl, rfl⟩ := Prod.mk.inj (Option.some.inj ran)
    exact ⟨rows, course, rfl, rfl, heads⟩
  | cons call calls ih =>
    obtain ⟨middle, called, rest⟩ := Option.bind_eq_some_iff.mp ran
    obtain ⟨⟨more, last⟩, remainder, same⟩ := Option.bind_eq_some_iff.mp rest
    obtain ⟨rfl, rfl⟩ := Prod.mk.inj (Option.some.inj same)
    have split : (driver.log call ++ more).answers = (driver.log call).answers ++ more.answers := rfl
    rw [split] at told ⊢
    obtain ⟨next, later, after, again, rfl, rfl, onward⟩ :=
      heads.call call ((List.prefix_append _ _).trans told)
    obtain rfl := Option.some.inj (called.symm.trans again)
    obtain ⟨rest, ending, rfl, rfl, ended⟩ := ih onward remainder ((List.prefix_append_right_inj _).mp told)
    exact ⟨rest, ending, (List.append_assoc ..).symm, (Course.behind_append ..).symm, ended⟩

end Simulation

section Trace

variable {State : Type} {driver next : ProbeDriver State}

def ProbeDriver.waiting (driver : ProbeDriver State) : List ContractInstanceId :=
  driver.outstanding.toList ++ driver.remaining

/-- What one call shows of the candidates that were waiting: whose answer it took, and which it
    asked. -/
structure Moves (driver next : ProbeDriver State) (shown : ProbeTrace) : Prop where
  waiting : shown.answers.map Prod.fst ++ next.waiting <+: driver.waiting
  outstanding : driver.outstanding.toList ++ shown.asked =
    shown.answers.map Prod.fst ++ next.outstanding.toList

theorem finishExhausted_fields (finished : driver.finishExhausted = some next) :
    next.outstanding = driver.outstanding ∧ next.remaining = [] := by
  obtain ⟨localState, -, same⟩ := Option.bind_eq_some_iff.mp finished
  cases same
  exact ⟨rfl, rfl⟩

theorem finishIndeterminate_fields (finished : driver.finishIndeterminate = some next) :
    next.outstanding = driver.outstanding ∧ next.remaining = [] := by
  obtain ⟨localState, -, same⟩ := Option.bind_eq_some_iff.mp finished
  cases same
  exact ⟨rfl, rfl⟩

theorem onHit_fields {id : ContractInstanceId} {state : State}
    (adopted : driver.onHit id state = some next) :
    next.outstanding = driver.outstanding ∧ next.remaining = driver.remaining := by
  unfold ProbeDriver.onHit at adopted
  split at adopted
  · obtain ⟨localState, -, same⟩ := Option.bind_eq_some_iff.mp adopted
    cases same
    exact ⟨rfl, rfl⟩
  · cases adopted
    exact ⟨rfl, rfl⟩

theorem moves_same (driver : ProbeDriver State) : Moves driver driver ⟨[], []⟩ :=
  ⟨List.prefix_refl _, List.append_nil _⟩

theorem moves_nextAction {step : Step} (action : driver.nextAction = some (step, next)) :
    Moves driver next (driver.log .nextAction) := by
  cases phase : driver.phase with
  | done outcome =>
    have ended := nextAction_over phase
    obtain ⟨-, rfl⟩ := Prod.mk.inj (Option.some.inj (ended.symm.trans action))
    rw [driver.log_done ended]
    exact moves_same driver
  | probing =>
    rcases nextAction_cases phase with ⟨id, outstanding, again⟩ | ⟨idle, -, ends⟩ |
      ⟨id, rest, idle, remaining, -, asks⟩
    · obtain ⟨-, rfl⟩ := Prod.mk.inj (Option.some.inj (again.symm.trans action))
      rw [driver.log_asked outstanding]
      exact moves_same driver
    · rw [ends, Option.map_eq_some_iff] at action
      obtain ⟨finished, ended, same⟩ := action
      obtain ⟨rfl, rfl⟩ := Prod.mk.inj same
      obtain ⟨outstanding, remaining⟩ := finishExhausted_fields ended
      rw [ended, Option.map_some] at ends
      rw [driver.log_done ends]
      refine ⟨?_, by rw [outstanding]; exact List.append_nil _⟩
      rw [ProbeDriver.waiting, outstanding, idle, remaining]
      exact List.nil_prefix
    · obtain ⟨-, rfl⟩ := Prod.mk.inj (Option.some.inj (asks.symm.trans action))
      rw [driver.log_asks idle asks]
      refine ⟨?_, by rw [idle]; rfl⟩
      rw [ProbeDriver.waiting, ProbeDriver.waiting, idle, remaining]
      exact List.prefix_refl _

theorem moves_deliver {id : ContractInstanceId} {answer : ProbeAnswer}
    (called : driver.call (answer.deliver id) = some next) :
    Moves driver next (driver.log (answer.deliver id)) := by
  cases accepts : driver.accepts id with
  | false =>
    obtain rfl := Option.some.inj ((call_ignored accepts answer).symm.trans called)
    rw [log_ignored accepts]
    exact moves_same driver
  | true =>
    have kept : next.outstanding = none ∧ next.remaining <+: driver.remaining := by
      rw [call_accepted accepts] at called
      cases read : answer.read driver.ops with
      | real state =>
        rw [read] at called
        obtain ⟨outstanding, remaining⟩ := onHit_fields called
        exact ⟨outstanding, remaining ▸ List.prefix_refl _⟩
      | miss =>
        rw [read] at called
        cases called
        exact ⟨rfl, List.prefix_refl _⟩
      | silence =>
        rw [read] at called
        simp only at called
        split at called
        · obtain ⟨outstanding, remaining⟩ := finishIndeterminate_fields called
          exact ⟨outstanding, remaining ▸ List.nil_prefix⟩
        · cases called
          exact ⟨rfl, List.prefix_refl _⟩
    have outstanding := (accepts_iff.mp accepts).2
    rw [log_accepted accepts]
    refine ⟨?_, by rw [outstanding, kept.1]; rfl⟩
    rw [ProbeDriver.waiting, ProbeDriver.waiting, outstanding, kept.1]
    exact (List.prefix_append_right_inj [id]).mpr kept.2

theorem Moves.run {calls : List DriverCall} {trace : ProbeTrace}
    (ran : driver.run calls = some (trace, next)) : Moves driver next trace := by
  induction calls generalizing driver trace with
  | nil =>
    obtain ⟨rfl, rfl⟩ := Prod.mk.inj (Option.some.inj ran)
    exact moves_same driver
  | cons call calls ih =>
    obtain ⟨middle, called, rest⟩ := Option.bind_eq_some_iff.mp ran
    obtain ⟨⟨more, last⟩, remainder, same⟩ := Option.bind_eq_some_iff.mp rest
    obtain ⟨rfl, rfl⟩ := Prod.mk.inj (Option.some.inj same)
    have first : Moves driver middle (driver.log call) := by
      rcases ProbeDriver.cases_call call with rfl | ⟨id, answer, rfl⟩
      · obtain ⟨⟨step, other⟩, action, rfl⟩ := Option.map_eq_some_iff.mp called
        exact moves_nextAction action
      · exact moves_deliver called
    have second := ih remainder
    refine ⟨?_, ?_⟩
    · change ((driver.log call).answers ++ more.answers).map Prod.fst ++ last.waiting <+: driver.waiting
      rw [List.map_append, List.append_assoc]
      exact ((List.prefix_append_right_inj _).mpr second.waiting).trans first.waiting
    · change driver.outstanding.toList ++ ((driver.log call).asked ++ more.asked) =
        ((driver.log call).answers ++ more.answers).map Prod.fst ++ last.outstanding.toList
      rw [List.map_append, ← List.append_assoc, first.outstanding, List.append_assoc,
        second.outstanding, List.append_assoc]

end Trace

section Start

variable {State : Type} (ops : ProbeStateOps State) (snapshot : State) (policy : SelectionPolicy)
  (maxHops : Nat) (continuing : Bool) (rows : List Row)

theorem heads_start :
    Heads snapshot rows (reference ops snapshot policy maxHops continuing rows)
      ((ProbeDriver.new ops snapshot ⟨rows.map Prod.fst⟩ policy).configured maxHops continuing) := by
  cases rows with
  | nil => cases continuing <;> exact .ended rfl rfl rfl
  | cons row rows =>
    cases continuing <;> exact .ahead ⟨rfl, rfl, rfl⟩ rfl

/-- A run that has an outcome to take took the reference's course, on the answers it was given. -/
theorem run_reference {candidates : List ContractInstanceId} {calls : List DriverCall}
    {trace : ProbeTrace} {driver : ProbeDriver State} {outcome : Outcome State}
    (ran : ((ProbeDriver.new ops snapshot ⟨candidates⟩ policy).configured maxHops continuing).run calls =
      some (trace, driver))
    (taken : driver.takeOutcome.1 = some outcome) :
    ∃ left, candidates = (trace.answers ++ left).map Prod.fst ∧
      reference ops snapshot policy maxHops continuing (trace.answers ++ left) =
        ⟨trace.answers, outcome⟩ ∧
      trace.asked = trace.answers.map Prod.fst := by
  have moves := Moves.run ran
  have idle : ((ProbeDriver.new ops snapshot ⟨candidates⟩ policy).configured maxHops
      continuing).outstanding = none := by cases continuing <;> rfl
  have waiting : ((ProbeDriver.new ops snapshot ⟨candidates⟩ policy).configured maxHops
      continuing).waiting = candidates := by cases continuing <;> rfl
  obtain ⟨rest, covered⟩ := (List.prefix_append _ _).trans moves.waiting
  rw [waiting] at covered
  have named : candidates = (trace.answers ++ rest.map fun id => (id, ProbeAnswer.absent)).map Prod.fst := by
    rw [List.map_append, List.map_map, ← covered]
    simp [Function.comp_def]
  have heads := heads_start ops snapshot policy maxHops continuing
    (trace.answers ++ rest.map fun id => (id, ProbeAnswer.absent))
  rw [← named] at heads
  obtain ⟨later, after, -, came, heads⟩ := heads.run ran (List.prefix_append _ _)
  refine ⟨_, named, ?_, ?_⟩
  · rw [came]
    unfold ProbeDriver.takeOutcome at taken
    rcases heads with ⟨ahead, -⟩ | ⟨phase, heard, -⟩
    · rw [ahead.phase] at taken
      cases taken
    · rw [phase] at taken
      obtain rfl := Option.some.inj taken
      simp only [Course.behind, heard, List.append_nil]
  · have shown := moves.outstanding
    unfold ProbeDriver.takeOutcome at taken
    rcases heads with ⟨ahead, -⟩ | ⟨-, -, ended⟩
    · rw [ahead.phase] at taken
      cases taken
    · rw [idle, ended] at shown
      simpa using shown

end Start

end FreenetMigrate.Probe
