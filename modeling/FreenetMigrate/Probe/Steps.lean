import FreenetMigrate.Probe.Reference

namespace FreenetMigrate.Probe

open PointerClient (ContractInstanceId Step)

section Trace

@[simp] theorem append_nothing (trace : ProbeTrace) : trace ++ ⟨[], []⟩ = trace := by
  obtain ⟨asked, answers⟩ := trace
  change ProbeTrace.mk (asked ++ []) (answers ++ []) = _
  rw [List.append_nil, List.append_nil]

theorem append_assoc_trace (first second third : ProbeTrace) :
    first ++ second ++ third = first ++ (second ++ third) :=
  congrArg₂ ProbeTrace.mk (List.append_assoc ..) (List.append_assoc ..)

end Trace

section Steps

variable {State : Type} {driver next : ProbeDriver State} {id : ContractInstanceId}

theorem accepts_iff :
    driver.accepts id = true ↔ driver.phase = .probing ∧ driver.outstanding = some id := by
  unfold ProbeDriver.accepts
  cases phase : driver.phase with
  | probing => simp [Phase.isDone]
  | done outcome => simp [Phase.isDone]

theorem accepts_over {outcome : Option (Outcome State)} (phase : driver.phase = .done outcome)
    (id : ContractInstanceId) : driver.accepts id = false := by
  cases accepts : driver.accepts id with
  | false => rfl
  | true =>
    rw [(accepts_iff.mp accepts).1] at phase
    cases phase

theorem ProbeDriver.cases_call (call : DriverCall) :
    call = .nextAction ∨ ∃ id answer, call = ProbeAnswer.deliver id answer := by
  cases call with
  | nextAction => exact .inl rfl
  | onResponse id bytes => exact .inr ⟨id, .state bytes, rfl⟩
  | onAbsent id => exact .inr ⟨id, .absent, rfl⟩
  | onUnknown id => exact .inr ⟨id, .unknown, rfl⟩

theorem log_deliver (driver : ProbeDriver State) (id : ContractInstanceId) (answer : ProbeAnswer) :
    driver.log (answer.deliver id) = ⟨[], if driver.accepts id then [(id, answer)] else []⟩ := by
  cases answer <;> rfl

theorem log_ignored (ignored : driver.accepts id = false) (answer : ProbeAnswer) :
    driver.log (answer.deliver id) = ⟨[], []⟩ := by
  rw [log_deliver, ignored, if_neg Bool.false_ne_true]

theorem log_accepted (accepts : driver.accepts id = true) (answer : ProbeAnswer) :
    driver.log (answer.deliver id) = ⟨[], [(id, answer)]⟩ := by
  rw [log_deliver, accepts, if_pos rfl]

theorem answers_nextAction (driver : ProbeDriver State) : (driver.log .nextAction).answers = [] := by
  rw [ProbeDriver.log]
  split <;> rfl

/-- An event about another candidate than the outstanding one changes nothing. -/
theorem call_ignored (ignored : driver.accepts id = false) (answer : ProbeAnswer) :
    driver.call (answer.deliver id) = some driver := by
  have unmoved : driver.phase.isDone = true ∨ driver.outstanding ≠ some id := by
    rw [ProbeDriver.accepts, Bool.and_eq_false_iff, Bool.not_eq_false', beq_eq_false_iff_ne] at ignored
    exact ignored
  cases answer with
  | state bytes => exact if_pos unmoved.symm
  | absent =>
    unfold ProbeAnswer.deliver ProbeDriver.call ProbeDriver.onAbsent
    rcases unmoved with done | other
    · exact if_pos done
    · simp only [if_neg other, ite_self]
  | unknown =>
    unfold ProbeAnswer.deliver ProbeDriver.call ProbeDriver.onUnknown
    rcases unmoved with done | other
    · exact if_pos done
    · simp only [if_pos other, ite_self]

theorem call_accepted (accepts : driver.accepts id = true) (answer : ProbeAnswer) :
    driver.call (answer.deliver id) = match answer.read driver.ops with
      | .real state => { driver with outstanding := none }.onHit id state
      | .miss => some { driver with outstanding := none }
      | .silence =>
        let driver := { driver with
          outstanding := none
          unresolved := addUnresolved driver.unresolved id }
        if driver.policy.unknownTerminates && !driver.continuePastUnknown then
          driver.finishIndeterminate
        else some driver := by
  obtain ⟨probing, outstanding⟩ := accepts_iff.mp accepts
  have asking : driver.phase.isDone = false := by rw [probing]; rfl
  cases answer with
  | state bytes =>
    simp only [ProbeAnswer.deliver, ProbeDriver.call, ProbeDriver.onResponse, outstanding, asking, ne_eq,
      not_true_eq_false, Bool.false_eq_true, or_self, if_false, ProbeAnswer.read]
    cases driver.ops.decode bytes with
    | none => rfl
    | some found => cases real : driver.ops.isReal found <;> simp [real]
  | absent =>
    simp only [ProbeAnswer.deliver, ProbeDriver.call, ProbeDriver.onAbsent, outstanding, asking,
      Bool.false_eq_true, if_false, if_true, ProbeAnswer.read]
  | unknown =>
    simp only [ProbeAnswer.deliver, ProbeDriver.call, ProbeDriver.onUnknown, outstanding, asking,
      Bool.false_eq_true, if_false, ne_eq, not_true_eq_false, ProbeAnswer.read]

theorem call_nextAction {step : Step} (action : driver.nextAction = some (step, next)) :
    driver.call .nextAction = some next := by
  rw [ProbeDriver.call, action, Option.map_some]

theorem nextAction_over {outcome : Option (Outcome State)} (phase : driver.phase = .done outcome) :
    driver.nextAction = some (.done, driver) := by
  simp only [ProbeDriver.nextAction, phase]

/-- A driver that is still asking asks the outstanding candidate again, ends with nobody left to ask
    or no hop left, or asks the next candidate. -/
theorem nextAction_cases (phase : driver.phase = .probing) :
    (∃ id, driver.outstanding = some id ∧ driver.nextAction = some (.get id, driver)) ∨
    (driver.outstanding = none ∧ (driver.remaining = [] ∨ driver.maxHops ≤ driver.hops) ∧
      driver.nextAction = driver.finishExhausted.map fun driver => (.done, driver)) ∨
    ∃ id rest, driver.outstanding = none ∧ driver.remaining = id :: rest ∧
      driver.hops < driver.maxHops ∧ driver.nextAction = some (.get id, { driver with
        remaining := rest
        outstanding := some id
        hops := driver.hops + 1 }) := by
  cases outstanding : driver.outstanding with
  | some id =>
    refine .inl ⟨id, rfl, ?_⟩
    simp only [ProbeDriver.nextAction, phase, outstanding]
  | none =>
    cases remaining : driver.remaining with
    | nil =>
      refine .inr (.inl ⟨rfl, .inl rfl, ?_⟩)
      simp only [ProbeDriver.nextAction, phase, outstanding, remaining]
    | cons id rest =>
      by_cases capped : driver.maxHops ≤ driver.hops
      · refine .inr (.inl ⟨rfl, .inr capped, ?_⟩)
        simp only [ProbeDriver.nextAction, phase, outstanding, remaining, if_pos capped]
      · refine .inr (.inr ⟨id, rest, rfl, rfl, Nat.not_le.mp capped, ?_⟩)
        simp only [ProbeDriver.nextAction, phase, outstanding, remaining, if_neg capped]

theorem ProbeDriver.nextAction_get (action : driver.nextAction = some (.get id, next)) :
    next.phase = .probing ∧ next.outstanding = some id := by
  cases phase : driver.phase with
  | done outcome =>
    rw [nextAction_over phase] at action
    cases action
  | probing =>
    rcases nextAction_cases phase with ⟨other, outstanding, same⟩ | ⟨-, -, same⟩ |
      ⟨other, rest, -, -, -, same⟩
    · rw [same] at action
      cases action
      exact ⟨phase, outstanding⟩
    · rw [same, Option.map_eq_some_iff] at action
      obtain ⟨finished, -, ended⟩ := action
      cases ended
    · rw [same] at action
      cases action
      exact ⟨phase, rfl⟩

theorem call_over {outcome : Option (Outcome State)} (phase : driver.phase = .done outcome)
    (call : DriverCall) : driver.call call = some driver ∧ driver.log call = ⟨[], []⟩ := by
  rcases ProbeDriver.cases_call call with rfl | ⟨id, answer, rfl⟩
  · have ended := nextAction_over phase
    refine ⟨call_nextAction ended, ?_⟩
    unfold ProbeDriver.log
    rw [ended]
    cases driver.outstanding <;> rfl
  · have ignored := accepts_over phase id
    exact ⟨call_ignored ignored answer, log_ignored ignored answer⟩

namespace ProbeDriver

theorem log_asked (outstanding : driver.outstanding = some id) :
    driver.log .nextAction = ⟨[], []⟩ := by
  simp only [log, outstanding]

theorem log_done (action : driver.nextAction = some (.done, next)) :
    driver.log .nextAction = ⟨[], []⟩ := by
  unfold log
  rw [action]
  cases driver.outstanding <;> rfl

theorem log_asks (outstanding : driver.outstanding = none)
    (action : driver.nextAction = some (.get id, next)) : driver.log .nextAction = ⟨[id], []⟩ := by
  simp only [log, outstanding, action]

theorem onHit_foldAll {state : State} (policy : driver.policy = .foldAll) :
    driver.onHit id state = some { driver with
      foldAcc := some (match driver.foldAcc with
        | none => (id, state)
        | some (firstSource, acc) => (firstSource, driver.ops.mergeGenerations acc state)) } := by
  unfold onHit
  rw [policy]
  rfl

theorem onHit_newestFirstWins {state snapshot : State} (policy : driver.policy = .newestFirstWins)
    (held : driver.localState = some snapshot) :
    driver.onHit id state = some { driver with
      localState := none
      unresolved := []
      phase := .done (some (.recovered
        (driver.ops.prepareForward (driver.ops.mergeWithLocal state snapshot)) id false
        driver.unresolved)) } := by
  unfold onHit
  rw [policy, held]
  rfl

theorem run_cons {final : ProbeDriver State} {call : DriverCall} {calls : List DriverCall}
    {trace : ProbeTrace} (called : driver.call call = some next)
    (ran : next.run calls = some (trace, final)) :
    driver.run (call :: calls) = some (driver.log call ++ trace, final) := by
  simp only [run, called, Option.bind_eq_bind, Option.bind_some, ran]
  rfl

end ProbeDriver

end Steps

end FreenetMigrate.Probe
