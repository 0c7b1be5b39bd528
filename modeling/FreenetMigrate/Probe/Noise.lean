import FreenetMigrate.Probe.Pump

namespace FreenetMigrate.Probe

open PointerClient (ContractInstanceId Step)

section Schedules

variable {State : Type} {driver : ProbeDriver State}

/-- A schedule in which every event about the candidate that is outstanding at that moment is the
    answer it was assigned. Events about other candidates are noise, and are not restricted. -/
def Faithful (assign : ContractInstanceId → ProbeAnswer) : ProbeDriver State → List DriverCall → Prop
  | _, [] => True
  | driver, call :: calls =>
    (∀ id answer, call = ProbeAnswer.deliver id answer → driver.outstanding = some id →
      answer = assign id) ∧
    ∀ next, driver.call call = some next → Faithful assign next calls

theorem Faithful.answers {assign : ContractInstanceId → ProbeAnswer} {calls : List DriverCall}
    {trace : ProbeTrace} {final : ProbeDriver State} (faithful : Faithful assign driver calls)
    (ran : driver.run calls = some (trace, final)) : ∀ row ∈ trace.answers, row.2 = assign row.1 := by
  induction calls generalizing driver trace with
  | nil =>
    obtain ⟨rfl, -⟩ := Prod.mk.inj (Option.some.inj ran)
    simp
  | cons call calls ih =>
    obtain ⟨middle, called, rest⟩ := Option.bind_eq_some_iff.mp ran
    obtain ⟨⟨more, last⟩, remainder, same⟩ := Option.bind_eq_some_iff.mp rest
    obtain ⟨rfl, rfl⟩ := Prod.mk.inj (Option.some.inj same)
    intro row member
    rcases List.mem_append.mp member with first | later
    · rcases ProbeDriver.cases_call call with rfl | ⟨id, answer, rfl⟩
      · rw [answers_nextAction] at first
        cases first
      · cases accepts : driver.accepts id with
        | false =>
          rw [log_ignored accepts] at first
          cases first
        | true =>
          rw [log_accepted accepts] at first
          obtain rfl := List.mem_singleton.mp first
          exact faithful.1 id answer rfl (accepts_iff.mp accepts).2
    · exact ih (faithful.2 middle called) remainder row later

/-- Assigned answers that were taken in the candidates' order begin the candidates' rows. -/
theorem prefix_assigned {assign : ContractInstanceId → ProbeAnswer} {answers : List Row}
    {candidates : List ContractInstanceId} (order : answers.map Prod.fst <+: candidates)
    (assigned : ∀ row ∈ answers, row.2 = assign row.1) :
    answers <+: candidates.map fun id => (id, assign id) := by
  have same : answers = (answers.map Prod.fst).map fun id => (id, assign id) := by
    rw [List.map_map]
    conv_lhs => rw [← List.map_id answers]
    apply List.map_congr_left
    intro row member
    exact Prod.ext rfl (assigned row member)
  rw [same]
  exact order.map _

end Schedules

inductive ProbeCall
  | event (call : DriverCall)
  | onTimeout (id : ContractInstanceId)
  | takeOutcome
  | withMaxHops (maxHops : Nat)
  | continuePastUnknown

section Calls

variable {State : Type}

namespace ProbeDriver

/-- The assertion `finish_indeterminate` makes in a debug build, where `on_unknown` reaches it. -/
def assertsFold (driver : ProbeDriver State) (id : ContractInstanceId) : Bool :=
  !(driver.accepts id && driver.policy.unknownTerminates && !driver.continuePastUnknown) ||
    driver.foldAcc.isNone

def unknownInDebug (driver : ProbeDriver State) (id : ContractInstanceId) : Option (ProbeDriver State) :=
  if driver.assertsFold id then driver.onUnknown id else none

/-- A call in a debug build, and the outcome it takes. It fails where the code would panic. -/
def perform (driver : ProbeDriver State) :
    ProbeCall → Option (Option (Outcome State) × ProbeDriver State)
  | .event (.onUnknown id) => (driver.unknownInDebug id).map fun next => (none, next)
  | .event call => (driver.call call).map fun next => (none, next)
  | .onTimeout id => (driver.unknownInDebug id).map fun next => (none, next)
  | .takeOutcome => some driver.takeOutcome
  | .withMaxHops maxHops => some (none, driver.withMaxHops maxHops)
  | .continuePastUnknown => some (none, driver.continuingPastUnknown)

def performAll (driver : ProbeDriver State) : List ProbeCall →
    Option (List (Outcome State) × ProbeDriver State)
  | [] => some ([], driver)
  | call :: calls => do
    let (taken, next) ← driver.perform call
    let (more, final) ← next.performAll calls
    return (taken.toList ++ more, final)

end ProbeDriver

/-- A probing driver has its snapshot, and a policy that stops on silence folds nothing. -/
structure Sound (driver : ProbeDriver State) : Prop where
  localState : driver.phase = .probing → ∃ snapshot, driver.localState = some snapshot
  fold : driver.policy = .newestFirstWins → driver.foldAcc = none

variable {driver next : ProbeDriver State} {id : ContractInstanceId}

theorem Sound.of_done {outcome : Option (Outcome State)} (phase : driver.phase = .done outcome)
    (fold : driver.policy = .newestFirstWins → driver.foldAcc = none) : Sound driver where
  localState probing := by
    rw [phase] at probing
    cases probing
  fold := fold

theorem Sound.finishExhausted {snapshot : State} (held : driver.localState = some snapshot) :
    ∃ next, driver.finishExhausted = some next ∧ Sound next := by
  unfold ProbeDriver.finishExhausted
  rw [held]
  exact ⟨_, rfl, .of_done rfl fun _ => rfl⟩

theorem Sound.nextAction (sound : Sound driver) :
    ∃ next, driver.call .nextAction = some next ∧ Sound next := by
  cases phase : driver.phase with
  | done outcome => exact ⟨driver, (call_over phase .nextAction).1, sound⟩
  | probing =>
    rcases nextAction_cases phase with ⟨id, -, action⟩ | ⟨-, -, action⟩ | ⟨id, rest, -, -, -, action⟩
    · exact ⟨driver, call_nextAction action, sound⟩
    · obtain ⟨snapshot, held⟩ := sound.localState phase
      obtain ⟨finished, ends, ended⟩ := Sound.finishExhausted held
      rw [ends, Option.map_some] at action
      exact ⟨finished, call_nextAction action, ended⟩
    · exact ⟨_, call_nextAction action, ⟨sound.localState, sound.fold⟩⟩

theorem Sound.deliver (sound : Sound driver) (id : ContractInstanceId) (answer : ProbeAnswer) :
    ∃ next, driver.call (answer.deliver id) = some next ∧ Sound next := by
  cases accepts : driver.accepts id with
  | false => exact ⟨driver, call_ignored accepts answer, sound⟩
  | true =>
    obtain ⟨snapshot, held⟩ := sound.localState (accepts_iff.mp accepts).1
    rw [call_accepted accepts]
    cases read : answer.read driver.ops with
    | real state =>
      rcases driver.policy.newest_or_fold with policy | policy
      · exact ⟨_, ProbeDriver.onHit_newestFirstWins policy held, .of_done rfl sound.fold⟩
      · refine ⟨_, ProbeDriver.onHit_foldAll policy, ⟨sound.localState, fun newest => ?_⟩⟩
        rw [policy] at newest
        cases newest
    | miss => exact ⟨_, rfl, ⟨sound.localState, sound.fold⟩⟩
    | silence =>
      simp only
      split
      · unfold ProbeDriver.finishIndeterminate
        rw [held]
        exact ⟨_, rfl, .of_done rfl sound.fold⟩
      · exact ⟨_, rfl, ⟨sound.localState, sound.fold⟩⟩

theorem Sound.call (sound : Sound driver) (call : DriverCall) :
    ∃ next, driver.call call = some next ∧ Sound next := by
  rcases ProbeDriver.cases_call call with rfl | ⟨id, answer, rfl⟩
  · exact sound.nextAction
  · exact sound.deliver id answer

/-- The assertion of the debug build holds: only newest-first stops on silence, and it folds
    nothing. -/
theorem Sound.assertsFold (sound : Sound driver) (id : ContractInstanceId) :
    driver.assertsFold id = true := by
  unfold ProbeDriver.assertsFold
  cases policy : driver.policy with
  | foldAll => simp [SelectionPolicy.unknownTerminates]
  | newestFirstWins => simp [sound.fold policy]

/-- One call neither panics nor unsettles a driver, and an outcome that is taken is gone. -/
structure Performs (driver : ProbeDriver State) (call : ProbeCall)
    (taken : Option (Outcome State)) (next : ProbeDriver State) : Prop where
  performs : driver.perform call = some (taken, next)
  sound : Sound next
  spent : taken.isSome = true ∨ driver.phase = .done none → next.phase = .done none
  nothing : driver.phase = .done none → taken = none

theorem Sound.performs_event (sound : Sound driver) {call : ProbeCall} (event : DriverCall)
    (is : driver.perform call = (driver.call event).map fun next => (none, next)) :
    ∃ taken next, Performs driver call taken next := by
  obtain ⟨next, called, onward⟩ := sound.call event
  refine ⟨none, next, ⟨by rw [is, called, Option.map_some], onward, ?_, fun _ => rfl⟩⟩
  rintro (taken | spent)
  · cases taken
  · obtain rfl := Option.some.inj ((call_over spent event).1.symm.trans called)
    exact spent

theorem Sound.performs (sound : Sound driver) (call : ProbeCall) :
    ∃ taken next, Performs driver call taken next := by
  have unknown : ∀ id, driver.unknownInDebug id = driver.call (.onUnknown id) :=
    fun id => if_pos (sound.assertsFold id)
  cases call with
  | event call =>
    apply sound.performs_event call
    cases call with
    | onUnknown id => rw [ProbeDriver.perform, unknown]
    | _ => rfl
  | onTimeout id =>
    apply sound.performs_event (.onUnknown id)
    rw [ProbeDriver.perform, unknown]
  | takeOutcome =>
    refine ⟨driver.takeOutcome.1, driver.takeOutcome.2, ⟨rfl, ?_, ?_, ?_⟩⟩
    · unfold ProbeDriver.takeOutcome
      cases driver.phase with
      | probing => exact sound
      | done outcome => exact .of_done rfl sound.fold
    · unfold ProbeDriver.takeOutcome
      cases phase : driver.phase with
      | probing => simp
      | done outcome => exact fun _ => rfl
    · intro spent
      rw [ProbeDriver.takeOutcome, spent]
  | withMaxHops maxHops =>
    refine ⟨none, driver.withMaxHops maxHops, ⟨rfl, ⟨sound.localState, sound.fold⟩, ?_, fun _ => rfl⟩⟩
    rintro (taken | spent)
    · cases taken
    · exact spent
  | continuePastUnknown =>
    refine ⟨none, driver.continuingPastUnknown, ⟨rfl, ⟨sound.localState, sound.fold⟩, ?_, fun _ => rfl⟩⟩
    rintro (taken | spent)
    · cases taken
    · exact spent

/-- No sequence of calls panics, and at most one outcome is taken along it. -/
theorem Sound.performsAll (sound : Sound driver) (calls : List ProbeCall) :
    ∃ outcomes final, driver.performAll calls = some (outcomes, final) ∧ outcomes.length ≤ 1 ∧
      (driver.phase = .done none → outcomes = []) := by
  induction calls generalizing driver with
  | nil => exact ⟨[], driver, rfl, Nat.zero_le _, fun _ => rfl⟩
  | cons call calls ih =>
    obtain ⟨taken, next, performs⟩ := sound.performs call
    obtain ⟨more, final, rest, bound, ended⟩ := ih performs.sound
    refine ⟨taken.toList ++ more, final, ?_, ?_, ?_⟩
    · simp only [ProbeDriver.performAll, performs.performs, Option.bind_eq_bind, Option.bind_some, rest]
      rfl
    · cases took : taken with
      | none => exact bound
      | some outcome =>
        rw [ended (performs.spent (.inl (by rw [took]; rfl)))]
        exact Nat.le_refl 1
    · intro spent
      rw [performs.nothing spent, ended (performs.spent (.inr spent))]
      rfl

end Calls

section Main

variable {State : Type} (ops : ProbeStateOps State) (snapshot : State)
  (candidates : List ContractInstanceId) (policy : SelectionPolicy) (maxHops : Nat) (continuing : Bool)

theorem sound_start :
    Sound ((ProbeDriver.new ops snapshot ⟨candidates⟩ policy).configured maxHops continuing) := by
  cases candidates with
  | nil => cases continuing <;> exact .of_done rfl fun _ => rfl
  | cons id rest => cases continuing <;> exact ⟨fun _ => ⟨snapshot, rfl⟩, fun _ => rfl⟩

/-- Hand-pumped and pumped probes agree. Under one assignment of answers every schedule that delivers
    the assigned answer to whoever is outstanding ends, whatever it asks again and whatever noise it
    adds, with the outcome that the loop of `migrate_contract` returns. No sequence of calls panics or
    takes two outcomes, and the loop returns whatever its transport does. -/
theorem probes_agree_under_noise :
    let start := (ProbeDriver.new ops snapshot ⟨candidates⟩ policy).configured maxHops continuing
    (∀ assign : ContractInstanceId → ProbeAnswer, ∃ outcome : Outcome State,
      (∀ (Io Error : Type) (io : ProbeIo Io Error), io.Gives assign → ∀ transport fuel,
        candidates.length < fuel → ∃ after, start.pump io fuel transport = some (.ok outcome, after)) ∧
      ∀ calls trace driver after, Faithful assign start calls →
        start.run calls = some (trace, driver) → driver.nextAction = some (.done, after) →
        after.takeOutcome.1 = some outcome) ∧
    (∀ calls : List ProbeCall, ∃ outcomes driver,
      start.performAll calls = some (outcomes, driver) ∧ outcomes.length ≤ 1) ∧
    ∀ (Io Error : Type) (io : ProbeIo Io Error) (transport : Io) (fuel : Nat),
      candidates.length < fuel → ∃ result, start.pump io fuel transport = some result := by
  intro start
  have waiting : start.waiting = candidates := by cases continuing <;> rfl
  refine ⟨?_, ?_, ?_⟩
  · intro assign
    have heads := heads_start ops snapshot policy maxHops continuing
      (candidates.map fun id => (id, assign id))
    have named : (candidates.map fun id => (id, assign id)).map Prod.fst = candidates := by
      rw [List.map_map]
      exact List.map_id candidates
    rw [named] at heads
    refine ⟨(reference ops snapshot policy maxHops continuing
      (candidates.map fun id => (id, assign id))).outcome, ?_, ?_⟩
    · intro Io Error io gives transport fuel enough
      refine heads.pump gives ?_ (by rwa [List.length_map]) transport
      intro row member
      obtain ⟨id, -, rfl⟩ := List.mem_map.mp member
      rfl
    · intro calls trace driver after faithful ran action
      have order := (List.prefix_append _ _).trans (Moves.run ran).waiting
      rw [waiting] at order
      obtain ⟨later, rest, -, came, heads⟩ :=
        heads.run ran (prefix_assigned order (faithful.answers ran))
      rw [came]
      rcases heads.asks with ⟨next, again, phase, -⟩ | ⟨id, next, again, -⟩
      · obtain ⟨-, rfl⟩ := Prod.mk.inj (Option.some.inj (action.symm.trans again))
        rw [ProbeDriver.takeOutcome, phase]
        rfl
      · rw [action] at again
        cases again
  · intro calls
    obtain ⟨outcomes, driver, performed, bound, -⟩ :=
      (sound_start ops snapshot candidates policy maxHops continuing).performsAll calls
    exact ⟨outcomes, driver, performed, bound⟩
  · intro Io Error io transport fuel enough
    rw [← waiting] at enough
    exact (stands_start ops snapshot ⟨candidates⟩ policy maxHops continuing).pump enough transport

end Main

end FreenetMigrate.Probe
