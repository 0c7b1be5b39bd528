import FreenetMigrate.Probe.Steps

namespace FreenetMigrate.Probe

open PointerClient (ContractInstanceId Step)

variable {State : Type} {ops : ProbeStateOps State} {answer : ProbeAnswer}

def ProbeAnswer.Hits (ops : ProbeStateOps State) : ProbeAnswer → Prop
  | .state bytes => ∃ state, ops.decode bytes = some state ∧ ops.isReal state = true
  | .absent => False
  | .unknown => False

/-- An answer that says there is no real state. Silence is none. -/
def ProbeAnswer.Misses (ops : ProbeStateOps State) : ProbeAnswer → Prop
  | .state bytes => ∀ state, ops.decode bytes = some state → ops.isReal state = false
  | .absent => True
  | .unknown => False

theorem not_hits_of_misses (misses : answer.Misses ops) : ¬ answer.Hits ops := by
  cases answer with
  | state bytes =>
    rintro ⟨state, decoded, real⟩
    rw [misses state decoded] at real
    cases real
  | absent => exact id
  | unknown => exact id

theorem misses_of_not_hits (other : ¬ answer.Hits ops) (told : answer ≠ .unknown) :
    answer.Misses ops := by
  cases answer with
  | state bytes =>
    intro state decoded
    by_contra real
    exact other ⟨state, decoded, Bool.not_eq_false _ ▸ real⟩
  | absent => trivial
  | unknown => exact absurd rfl told

theorem read_real {state : State} (read : answer.read ops = .real state) :
    ∃ bytes, answer = .state bytes ∧ ops.decode bytes = some state ∧ ops.isReal state = true := by
  cases answer with
  | state bytes =>
    simp only [ProbeAnswer.read] at read
    split at read
    · rename_i found decoded
      split at read
      · rename_i real
        cases read
        exact ⟨bytes, rfl, decoded, real⟩
      · cases read
    · cases read
  | absent => cases read
  | unknown => cases read

theorem misses_of_read (read : answer.read ops = .miss) : answer.Misses ops := by
  apply misses_of_not_hits
  · intro hits
    cases answer with
    | state bytes =>
      obtain ⟨state, decoded, real⟩ := hits
      simp only [ProbeAnswer.read, decoded, real, if_true] at read
      cases read
    | absent => exact hits
    | unknown => exact hits
  · rintro rfl
    cases read

@[simp] theorem mem_addUnresolved {unresolved : List ContractInstanceId}
    {id other : ContractInstanceId} :
    other ∈ addUnresolved unresolved id ↔ other ∈ unresolved ∨ other = id := by
  unfold addUnresolved
  split
  · rename_i member
    constructor
    · exact .inl
    · rintro (listed | rfl)
      · exact listed
      · exact member
  · simp

theorem mem_foldl_addUnresolved {ids unresolved : List ContractInstanceId}
    {other : ContractInstanceId} :
    other ∈ ids.foldl addUnresolved unresolved ↔ other ∈ unresolved ∨ other ∈ ids := by
  induction ids generalizing unresolved with
  | nil => simp
  | cons id rest ih =>
    rw [List.foldl_cons, ih, mem_addUnresolved, List.mem_cons, or_assoc]

/-- A probe that is still asking: every position asked but the outstanding one is answered, and
    what is unresolved is what was not told. -/
structure Asking (start : ProbeDriver State) (snapshot : State) (trace : ProbeTrace)
    (driver : ProbeDriver State) : Prop where
  ops : driver.ops = start.ops
  policy : driver.policy = start.policy
  continuing : driver.continuePastUnknown = start.continuePastUnknown
  phase : driver.phase = .probing
  localState : driver.localState = some snapshot
  positions : trace.asked ++ driver.remaining = start.remaining
  answered : trace.answers.map Prod.fst ++ driver.outstanding.toList = trace.asked
  unresolved : ∀ id, id ∈ driver.unresolved ↔ (id, .unknown) ∈ trace.answers
  fold : driver.foldAcc.isSome = true ↔ ∃ answer ∈ trace.answers, answer.2.Hits start.ops
  newest : start.policy = .newestFirstWins → ∀ answer ∈ trace.answers,
    ¬ answer.2.Hits start.ops ∧ (answer.2 = .unknown → start.continuePastUnknown = true)
  candidates : start.remaining ≠ []

inductive Ends (start : ProbeDriver State) (snapshot : State) (trace : ProbeTrace) :
    Outcome State → Prop
  | noLegacy (candidates : start.remaining = []) (quiet : trace.answers = []) :
      Ends start snapshot trace (.noLegacy snapshot)
  | hit {newer older : List ContractInstanceId} {source : ContractInstanceId} {bytes : Bytes}
      {state : State} {missed : List (ContractInstanceId × ProbeAnswer)}
      {unresolved : List ContractInstanceId} (policy : start.policy = .newestFirstWins)
      (positions : start.remaining = newer ++ source :: older)
      (asked : trace.asked = newer ++ [source])
      (answers : trace.answers = missed ++ [(source, .state bytes)])
      (answered : missed.map Prod.fst = newer)
      (real : start.ops.decode bytes = some state ∧ start.ops.isReal state = true)
      (ruledOut : ∀ answer ∈ missed, answer.2.Misses start.ops ∨
        (answer.2 = .unknown ∧ start.continuePastUnknown = true ∧ answer.1 ∈ unresolved)) :
      Ends start snapshot trace (.recovered
        (start.ops.prepareForward (start.ops.mergeWithLocal state snapshot)) source false unresolved)
  | folded {merged : State} {source : ContractInstanceId} {truncatedFold : Bool}
      {unresolved : List ContractInstanceId} (policy : start.policy = .foldAll)
      (candidates : start.remaining ≠ [])
      (found : ∃ answer ∈ trace.answers, answer.2.Hits start.ops) :
      Ends start snapshot trace (.recovered merged source truncatedFold unresolved)
  | seeded (candidates : start.remaining ≠ []) (asked : trace.asked = start.remaining)
      (answered : trace.answers.map Prod.fst = start.remaining)
      (missed : ∀ answer ∈ trace.answers, answer.2.Misses start.ops) :
      Ends start snapshot trace (.seedLocal (start.ops.prepareForward snapshot))
  | indeterminate {unresolved : List ContractInstanceId} (candidates : start.remaining ≠ [])
      (listed : unresolved ≠ [])
      (unfound : ∀ answer ∈ trace.answers, ¬ answer.2.Hits start.ops)
      (untold : (∃ answer ∈ trace.answers, answer.2 = .unknown) ∨ trace.asked ≠ start.remaining) :
      Ends start snapshot trace (.indeterminate (start.ops.prepareForward snapshot) unresolved)

inductive Stands (start : ProbeDriver State) (snapshot : State) (trace : ProbeTrace)
    (driver : ProbeDriver State) : Prop
  | asking (asking : Asking start snapshot trace driver)
  | ended {outcome : Outcome State} (phase : driver.phase = .done (some outcome))
      (ends : Ends start snapshot trace outcome)

section Finish

variable {start driver : ProbeDriver State} {snapshot : State} {trace : ProbeTrace}
  (asking : Asking start snapshot trace driver)
include asking

theorem Asking.exhausts (idle : driver.outstanding = none) :
    ∃ final outcome, driver.finishExhausted = some final ∧ final.phase = .done (some outcome) ∧
      Ends start snapshot trace outcome := by
  have answered := asking.answered
  rw [idle, Option.toList_none, List.append_nil] at answered
  unfold ProbeDriver.finishExhausted
  rw [asking.localState, Option.bind_eq_bind, Option.bind_some]
  refine ⟨_, _, rfl, rfl, ?_⟩
  rw [asking.ops]
  cases fold : driver.foldAcc with
  | some acc =>
    have found := asking.fold.mp (by rw [fold]; rfl)
    have folding : start.policy = .foldAll := by
      cases policy : start.policy with
      | foldAll => rfl
      | newestFirstWins =>
        obtain ⟨answer, member, hits⟩ := found
        exact absurd hits (asking.newest policy answer member).1
    exact .folded folding asking.candidates found
  | none =>
    have unfound : ∀ answer ∈ trace.answers, ¬ answer.2.Hits start.ops := by
      intro answer member hits
      have held := asking.fold.mpr ⟨answer, member, hits⟩
      rw [fold] at held
      cases held
    simp only
    split
    · rename_i empty
      have none : ∀ id, id ∉ driver.remaining.foldl addUnresolved driver.unresolved := by
        rw [List.isEmpty_iff.mp empty]
        exact fun _ => List.not_mem_nil
      have told : ∀ answer ∈ trace.answers, answer.2 ≠ .unknown := by
        rintro ⟨id, answer⟩ member rfl
        exact none id (mem_foldl_addUnresolved.mpr (.inl ((asking.unresolved id).mpr member)))
      have asked : driver.remaining = [] := by
        apply List.eq_nil_iff_forall_not_mem.mpr
        intro id member
        exact none id (mem_foldl_addUnresolved.mpr (.inr member))
      have positions := asking.positions
      rw [asked, List.append_nil] at positions
      refine .seeded asking.candidates positions (answered.trans positions) ?_
      intro answer member
      exact misses_of_not_hits (unfound answer member) (told answer member)
    · rename_i listed
      rw [List.isEmpty_iff] at listed
      obtain ⟨id, member⟩ := List.exists_mem_of_ne_nil _ listed
      refine .indeterminate asking.candidates listed unfound ?_
      rcases mem_foldl_addUnresolved.mp member with untold | unasked
      · exact .inl ⟨_, (asking.unresolved id).mp untold, rfl⟩
      · right
        intro all
        have positions := asking.positions
        rw [all, List.append_right_eq_self] at positions
        rw [positions] at unasked
        cases unasked

theorem Asking.take {id : ContractInstanceId} {unresolved : List ContractInstanceId}
    {foldAcc : Option (ContractInstanceId × State)} (outstanding : driver.outstanding = some id)
    (untold : ∀ other, other ∈ unresolved ↔
      other ∈ driver.unresolved ∨ (other = id ∧ answer = .unknown))
    (fold : foldAcc.isSome = true ↔ driver.foldAcc.isSome = true ∨ answer.Hits start.ops)
    (newest : start.policy = .newestFirstWins →
      ¬ answer.Hits start.ops ∧ (answer = .unknown → start.continuePastUnknown = true)) :
    Asking start snapshot (trace ++ ⟨[], [(id, answer)]⟩)
      { driver with outstanding := none, unresolved, foldAcc } := by
  have answered := asking.answered
  rw [outstanding, Option.toList_some] at answered
  refine ⟨asking.ops, asking.policy, asking.continuing, asking.phase, asking.localState, ?_, ?_, ?_,
    ?_, ?_, asking.candidates⟩
  · change (trace.asked ++ []) ++ driver.remaining = start.remaining
    rw [List.append_nil]
    exact asking.positions
  · change (trace.answers ++ [(id, answer)]).map Prod.fst ++ [] = trace.asked ++ []
    rw [List.append_nil, List.append_nil, List.map_append]
    exact answered
  · intro other
    change other ∈ unresolved ↔ (other, .unknown) ∈ trace.answers ++ [(id, answer)]
    rw [untold, asking.unresolved, List.mem_append, List.mem_singleton, Prod.mk.injEq, eq_comm (a := answer)]
  · change foldAcc.isSome = true ↔ ∃ given ∈ trace.answers ++ [(id, answer)], given.2.Hits start.ops
    rw [fold, asking.fold]
    simp only [List.mem_append, List.mem_singleton, or_and_right, exists_or, exists_eq_left]
  · intro policy given member
    rcases List.mem_append.mp member with before | last
    · exact asking.newest policy given before
    · rw [List.mem_singleton.mp last]
      exact newest policy

theorem Asking.missed {id : ContractInstanceId} (outstanding : driver.outstanding = some id)
    (misses : answer.Misses start.ops) :
    Asking start snapshot (trace ++ ⟨[], [(id, answer)]⟩) { driver with outstanding := none } := by
  have told : answer ≠ .unknown := by
    rintro rfl
    exact misses
  have other := not_hits_of_misses misses
  exact asking.take outstanding (by simp [told]) (by simp [other]) fun _ => ⟨other, fun same => absurd same told⟩

theorem Asking.hit {id : ContractInstanceId} {bytes : Bytes} {state : State}
    (outstanding : driver.outstanding = some id)
    (real : start.ops.decode bytes = some state ∧ start.ops.isReal state = true) :
    ∃ next, { driver with outstanding := none }.onHit id state = some next ∧
      Stands start snapshot (trace ++ ⟨[], [(id, .state bytes)]⟩) next := by
  have hits : (ProbeAnswer.state bytes).Hits start.ops := ⟨state, real⟩
  rcases driver.policy.newest_or_fold with policy | policy
  · refine ⟨_, ProbeDriver.onHit_newestFirstWins policy asking.localState, .ended rfl ?_⟩
    have newest := asking.policy.symm.trans policy
    have answered := asking.answered
    rw [outstanding, Option.toList_some] at answered
    have positions := asking.positions
    rw [← answered, List.append_assoc, List.singleton_append] at positions
    rw [asking.ops]
    refine .hit newest positions.symm ?_ rfl rfl real ?_
    · change trace.asked ++ [] = _
      rw [List.append_nil, answered]
    · intro given member
      obtain ⟨other, continuing⟩ := asking.newest newest given member
      by_cases told : given.2 = .unknown
      · refine .inr ⟨told, continuing told, (asking.unresolved _).mpr ?_⟩
        rw [← told]
        exact member
      · exact .inl (misses_of_not_hits other told)
  · refine ⟨_, ProbeDriver.onHit_foldAll policy, .asking (asking.take outstanding ?_ ?_ ?_)⟩
    · simp
    · simp [hits]
    · intro newest
      rw [← asking.policy, policy] at newest
      cases newest

theorem Asking.untold {id : ContractInstanceId} (outstanding : driver.outstanding = some id) :
    ∃ next, driver.call (ProbeAnswer.unknown.deliver id) = some next ∧
      Stands start snapshot (trace ++ ⟨[], [(id, .unknown)]⟩) next := by
  rw [call_accepted (accepts_iff.mpr ⟨asking.phase, outstanding⟩)]
  simp only [ProbeAnswer.read]
  split
  · rename_i halts
    have newest := asking.policy.symm.trans (SelectionPolicy.newest_of_terminates halts)
    unfold ProbeDriver.finishIndeterminate
    rw [asking.localState, asking.ops]
    refine ⟨_, rfl, .ended rfl (.indeterminate asking.candidates ?_ ?_ ?_)⟩
    · apply List.ne_nil_of_mem (a := id)
      rw [mem_foldl_addUnresolved, mem_addUnresolved]
      exact .inl (.inr rfl)
    · intro given member
      rcases List.mem_append.mp member with before | last
      · exact (asking.newest newest given before).1
      · rw [List.mem_singleton.mp last]
        exact not_false
    · exact .inl ⟨(id, .unknown), List.mem_append_right _ (List.mem_singleton_self _), rfl⟩
  · rename_i walksOn
    refine ⟨_, rfl, .asking (asking.take outstanding ?_ ?_ ?_)⟩
    · simp
    · simp [ProbeAnswer.Hits]
    · intro newest
      refine ⟨not_false, fun _ => ?_⟩
      rw [asking.policy, newest, asking.continuing] at walksOn
      simpa [SelectionPolicy.unknownTerminates] using walksOn

theorem Asking.ask {id : ContractInstanceId} {rest : List ContractInstanceId}
    (idle : driver.outstanding = none) (remaining : driver.remaining = id :: rest) :
    Asking start snapshot (trace ++ ⟨[id], []⟩)
      { driver with remaining := rest, outstanding := some id, hops := driver.hops + 1 } := by
  have answered := asking.answered
  rw [idle, Option.toList_none, List.append_nil] at answered
  have answers : (trace ++ ⟨[id], []⟩).answers = trace.answers := List.append_nil _
  refine ⟨asking.ops, asking.policy, asking.continuing, asking.phase, asking.localState, ?_, ?_, ?_,
    ?_, ?_, asking.candidates⟩
  · change (trace.asked ++ [id]) ++ rest = start.remaining
    rw [List.append_assoc, List.singleton_append, ← remaining]
    exact asking.positions
  · change (trace ++ ⟨[id], []⟩).answers.map Prod.fst ++ [id] = trace.asked ++ [id]
    rw [answers, answered]
  · rw [answers]
    exact asking.unresolved
  · rw [answers]
    exact asking.fold
  · rw [answers]
    exact asking.newest

/-- An instruction asks the outstanding candidate again, the next one, or ends the probe. -/
theorem Asking.next : ∃ step next, driver.nextAction = some (step, next) ∧
    Stands start snapshot (trace ++ driver.log .nextAction) next ∧
    (step = .done → next.phase.isDone = true) := by
  rcases nextAction_cases asking.phase with ⟨id, outstanding, action⟩ | ⟨idle, -, action⟩ |
    ⟨id, rest, idle, remaining, -, action⟩
  · refine ⟨.get id, driver, action, ?_, nofun⟩
    rw [driver.log_asked outstanding, append_nothing]
    exact .asking asking
  · obtain ⟨final, outcome, finished, phase, ends⟩ := asking.exhausts idle
    rw [finished, Option.map_some] at action
    refine ⟨.done, final, action, ?_, fun _ => by rw [phase]; rfl⟩
    rw [driver.log_done action, append_nothing]
    exact .ended phase ends
  · refine ⟨.get id, _, action, .asking ?_, nofun⟩
    rw [driver.log_asks idle action]
    exact asking.ask idle remaining

end Finish

section Steps

variable {start driver : ProbeDriver State} {snapshot : State} {trace : ProbeTrace}

/-- The outstanding candidate's answer takes the probe on. -/
theorem Asking.told {id : ContractInstanceId} (asking : Asking start snapshot trace driver)
    (outstanding : driver.outstanding = some id) (answer : ProbeAnswer) :
    ∃ next, driver.call (answer.deliver id) = some next ∧
      Stands start snapshot (trace ++ ⟨[], [(id, answer)]⟩) next := by
  have called := call_accepted (accepts_iff.mpr ⟨asking.phase, outstanding⟩) answer
  cases read : answer.read driver.ops with
  | real state =>
    rw [read] at called
    rw [called]
    rw [asking.ops] at read
    obtain ⟨bytes, rfl, real⟩ := read_real read
    exact asking.hit outstanding real
  | miss =>
    rw [read] at called
    rw [asking.ops] at read
    exact ⟨_, called, .asking (asking.missed outstanding (misses_of_read read))⟩
  | silence =>
    obtain rfl := read_silence.mp read
    exact asking.untold outstanding

theorem Stands.call (stands : Stands start snapshot trace driver) (call : DriverCall) :
    ∃ next, driver.call call = some next ∧ Stands start snapshot (trace ++ driver.log call) next := by
  rcases stands with asking | ⟨phase, ends⟩
  · rcases ProbeDriver.cases_call call with rfl | ⟨id, answer, rfl⟩
    · obtain ⟨step, next, action, stands, -⟩ := asking.next
      exact ⟨next, call_nextAction action, stands⟩
    · cases accepts : driver.accepts id with
      | false =>
        refine ⟨driver, call_ignored accepts answer, ?_⟩
        rw [log_ignored accepts, append_nothing]
        exact .asking asking
      | true =>
        rw [log_accepted accepts]
        exact asking.told (accepts_iff.mp accepts).2 answer
  · obtain ⟨still, nothing⟩ := call_over phase call
    refine ⟨driver, still, ?_⟩
    rw [nothing, append_nothing]
    exact .ended phase ends

/-- No run of calls panics, and each leaves the probe where its trace says. -/
theorem Stands.run (stands : Stands start snapshot trace driver) (calls : List DriverCall) :
    ∃ more final, driver.run calls = some (more, final) ∧
      Stands start snapshot (trace ++ more) final := by
  induction calls generalizing trace driver with
  | nil => exact ⟨⟨[], []⟩, driver, rfl, by rwa [append_nothing]⟩
  | cons call calls ih =>
    obtain ⟨next, called, stands⟩ := stands.call call
    obtain ⟨more, final, ran, stands⟩ := ih stands
    refine ⟨driver.log call ++ more, final, driver.run_cons called ran, ?_⟩
    rw [← append_assoc_trace]
    exact stands

end Steps

end FreenetMigrate.Probe
