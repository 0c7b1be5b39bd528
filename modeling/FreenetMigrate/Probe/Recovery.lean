import FreenetMigrate.Probe.Run

namespace FreenetMigrate.Probe

open PointerClient (ContractInstanceId Step)

section Start

variable {State : Type} (ops : ProbeStateOps State) (snapshot : State) (candidates : NewestFirst)
  (policy : SelectionPolicy) (maxHops : Nat) (continuing : Bool)

structure Fresh (start : ProbeDriver State) : Prop where
  ops : start.ops = ops
  policy : start.policy = policy
  continuing : start.continuePastUnknown = continuing
  remaining : start.remaining = candidates.candidates

theorem fresh_configured : Fresh ops candidates policy continuing
    ((ProbeDriver.new ops snapshot candidates policy).configured maxHops continuing) := by
  cases continuing <;> exact ⟨rfl, rfl, rfl, rfl⟩

theorem stands_start :
    let start := (ProbeDriver.new ops snapshot candidates policy).configured maxHops continuing
    Stands start snapshot ⟨[], []⟩ start := by
  intro start
  obtain ⟨-, -, -, remaining⟩ : Fresh ops candidates policy continuing start :=
    fresh_configured ops snapshot candidates policy maxHops continuing
  by_cases empty : candidates.candidates.isEmpty = true
  · have phase : start.phase = .done (some (.noLegacy snapshot)) := by
      cases continuing <;> exact if_pos empty
    refine .ended phase (.noLegacy ?_ rfl)
    rw [remaining]
    exact List.isEmpty_iff.mp empty
  · have phase : start.phase = .probing := by cases continuing <;> exact if_neg empty
    have held : start.localState = some snapshot := by cases continuing <;> exact if_neg empty
    refine .asking ⟨rfl, rfl, rfl, phase, held, rfl, ?_, ?_, ?_, ?_, ?_⟩
    · cases continuing <;> rfl
    · cases continuing <;> simp [start, ProbeDriver.configured, ProbeDriver.new, ProbeDriver.withMaxHops,
        ProbeDriver.continuingPastUnknown]
    · cases continuing <;> simp [start, ProbeDriver.configured, ProbeDriver.new, ProbeDriver.withMaxHops,
        ProbeDriver.continuingPastUnknown]
    · exact fun _ _ absent => nomatch absent
    · rw [remaining]
      exact fun none => empty (List.isEmpty_iff.mpr none)

end Start

section Ends

variable {State : Type} {start driver : ProbeDriver State} {snapshot : State} {trace : ProbeTrace}
  {outcome : Outcome State}

theorem Stands.taken (stands : Stands start snapshot trace driver)
    (taken : driver.takeOutcome.1 = some outcome) : Ends start snapshot trace outcome := by
  unfold ProbeDriver.takeOutcome at taken
  rcases stands with asking | ⟨phase, ends⟩
  · rw [asking.phase] at taken
    cases taken
  · rw [phase] at taken
    cases taken
    exact ends

theorem Stands.has_outcome (stands : Stands start snapshot trace driver) {after : ProbeDriver State}
    (action : driver.nextAction = some (.done, after)) : after.takeOutcome.1.isSome = true := by
  unfold ProbeDriver.takeOutcome
  rcases stands with asking | ⟨phase, ends⟩
  · obtain ⟨step, next, same, stands, ended⟩ := asking.next
    obtain ⟨rfl, rfl⟩ := Prod.mk.inj (Option.some.inj (action.symm.trans same))
    rcases stands with still | ⟨phase, -⟩
    · have done := ended rfl
      rw [still.phase] at done
      cases done
    · rw [phase]
      rfl
  · simp only [ProbeDriver.nextAction, phase] at action
    cases action
    rw [phase]
    rfl

structure AllAnswered (ops : ProbeStateOps State) (candidates : List ContractInstanceId)
    (trace : ProbeTrace) : Prop where
  asked : trace.asked = candidates
  answered : trace.answers.map Prod.fst = candidates
  missed : ∀ answer ∈ trace.answers, answer.2.Misses ops

structure Classified (ops : ProbeStateOps State) (candidates : List ContractInstanceId)
    (trace : ProbeTrace) (outcome : Outcome State) : Prop where
  noLegacy : (∃ kept, outcome = .noLegacy kept) ↔ candidates = []
  seedLocal : (∃ kept, outcome = .seedLocal kept) ↔
    candidates ≠ [] ∧ AllAnswered ops candidates trace
  recovered : (∃ merged source truncatedFold unresolved,
      outcome = .recovered merged source truncatedFold unresolved) ↔
    ∃ answer ∈ trace.answers, answer.2.Hits ops
  unresolved : ∀ kept unresolved, outcome = .indeterminate kept unresolved → unresolved ≠ []

theorem Ends.classified (ends : Ends start snapshot trace outcome) :
    Classified start.ops start.remaining trace outcome := by
  cases ends with
  | noLegacy candidates quiet =>
    refine ⟨?_, ?_, ?_, nofun⟩
    · simp [candidates]
    · simp [candidates]
    · simp [quiet]
  | @hit newer older source bytes state missed unresolved policy positions asked answers answered
      real ruledOut =>
    have among : (source, .state bytes) ∈ trace.answers := by simp [answers]
    have hits : (ProbeAnswer.state bytes).Hits start.ops := ⟨state, real⟩
    refine ⟨?_, ?_, ?_, nofun⟩
    · simp [positions]
    · constructor
      · rintro ⟨kept, other⟩
        cases other
      · rintro ⟨-, all⟩
        exact absurd hits (not_hits_of_misses (all.missed _ among))
    · exact ⟨fun _ => ⟨_, among, hits⟩, fun _ => ⟨_, _, _, _, rfl⟩⟩
  | folded policy candidates found =>
    refine ⟨?_, ?_, ?_, nofun⟩
    · simp [candidates]
    · constructor
      · rintro ⟨kept, other⟩
        cases other
      · rintro ⟨-, all⟩
        obtain ⟨answer, member, hits⟩ := found
        exact absurd hits (not_hits_of_misses (all.missed answer member))
    · exact ⟨fun _ => found, fun _ => ⟨_, _, _, _, rfl⟩⟩
  | seeded candidates asked answered missed =>
    refine ⟨?_, ?_, ?_, nofun⟩
    · simp [candidates]
    · exact ⟨fun _ => ⟨candidates, ⟨asked, answered, missed⟩⟩, fun _ => ⟨_, rfl⟩⟩
    · constructor
      · rintro ⟨_, _, _, _, other⟩
        cases other
      · rintro ⟨answer, member, hits⟩
        exact absurd hits (not_hits_of_misses (missed answer member))
  | indeterminate candidates listed unfound untold =>
    refine ⟨?_, ?_, ?_, ?_⟩
    · simp [candidates]
    · constructor
      · rintro ⟨kept, other⟩
        cases other
      · rintro ⟨-, all⟩
        rcases untold with ⟨⟨id, answer⟩, member, rfl⟩ | unasked
        · exact (all.missed _ member).elim
        · exact absurd all.asked unasked
    · constructor
      · rintro ⟨_, _, _, _, other⟩
        cases other
      · rintro ⟨answer, member, hits⟩
        exact absurd hits (unfound answer member)
    · rintro kept unresolved same
      cases same
      exact listed

/-- What is none of the other three kinds is indeterminate, and the other way round. -/
theorem Classified.indeterminate {ops : ProbeStateOps State} {candidates : List ContractInstanceId}
    (classified : Classified ops candidates trace outcome) :
    (∃ kept unresolved, outcome = .indeterminate kept unresolved) ↔
      candidates ≠ [] ∧ ¬ AllAnswered ops candidates trace ∧
        ¬ ∃ answer ∈ trace.answers, answer.2.Hits ops := by
  rw [← classified.recovered]
  have noLegacy := classified.noLegacy
  have seedLocal := classified.seedLocal
  cases outcome with
  | recovered => simp
  | noLegacy =>
    have none := noLegacy.mp ⟨_, rfl⟩
    simp [none]
  | seedLocal =>
    obtain ⟨some, all⟩ := seedLocal.mp ⟨_, rfl⟩
    simp [all]
  | indeterminate =>
    have some : candidates ≠ [] := fun none => nomatch noLegacy.mpr none
    simp only [reduceCtorEq, exists_false, false_iff, not_and] at seedLocal
    simp [some, seedLocal some]

end Ends

section Main

variable {State : Type} (ops : ProbeStateOps State) (snapshot : State) (maxHops : Nat)
  (continuing : Bool) (calls : List DriverCall)

/-- Silence is never reported as absence: a probe that is done has an outcome, and the outcome is
    what was asked and answered. -/
theorem silence_is_not_absence (candidates : NewestFirst) (policy : SelectionPolicy) :
    ∃ trace driver,
      ((ProbeDriver.new ops snapshot candidates policy).configured maxHops continuing).run calls =
        some (trace, driver) ∧
      (∀ after, driver.nextAction = some (.done, after) → after.takeOutcome.1.isSome = true) ∧
      ∀ outcome, driver.takeOutcome.1 = some outcome →
        Classified ops candidates.candidates trace outcome ∧
        ((∃ kept unresolved, outcome = .indeterminate kept unresolved) ↔
          candidates.candidates ≠ [] ∧ ¬ AllAnswered ops candidates.candidates trace ∧
            ¬ ∃ answer ∈ trace.answers, answer.2.Hits ops) := by
  obtain ⟨sameOps, -, -, remaining⟩ :=
    fresh_configured ops snapshot candidates policy maxHops continuing
  obtain ⟨trace, driver, ran, stands⟩ :=
    (stands_start ops snapshot candidates policy maxHops continuing).run calls
  refine ⟨trace, driver, ran, fun after => stands.has_outcome, ?_⟩
  intro outcome taken
  have classified := (stands.taken taken).classified
  rw [sameOps, remaining] at classified
  exact ⟨classified, classified.indeterminate⟩

theorem rows_newest_first (contractIdFromCodeHash : Fixed 32 → Parameters → ContractInstanceId)
    (params : Parameters) (lineage : List ContractLineageEntry) :
    (NewestFirst.rows contractIdFromCodeHash params lineage).Pairwise fun newer older =>
      older.1 ≤ newer.1 := by
  have total : Std.Total fun a b : UInt32 × ContractInstanceId => b.1 ≤ a.1 :=
    ⟨fun a b => le_total b.1 a.1⟩
  have trans : IsTrans _ fun a b : UInt32 × ContractInstanceId => b.1 ≤ a.1 :=
    ⟨fun _ _ _ first second => second.trans first⟩
  exact List.pairwise_insertionSort _ _

end Main

end FreenetMigrate.Probe
