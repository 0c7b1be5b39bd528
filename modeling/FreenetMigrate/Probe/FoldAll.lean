import FreenetMigrate.Probe.Recovery
import FreenetMigrate.Probe.Simulation

namespace FreenetMigrate.Probe

open PointerClient (ContractInstanceId Step)

section Fold

variable {State : Type} {rules : Rules State}

/-- The fold keeps the newest source, and merges what is older into what is newer. -/
theorem foldl_foldIn (source : ContractInstanceId) (newest : State)
    (older : List (ContractInstanceId × State)) :
    older.foldl (fun fold row => some (rules.foldIn fold row.1 row.2)) (some (source, newest)) =
      some (source, older.foldl (fun folded row => rules.ops.mergeGenerations folded row.2) newest) := by
  induction older generalizing newest with
  | nil => rfl
  | cons row older ih =>
    rw [List.foldl_cons, List.foldl_cons]
    exact ih ..

/-- A fold-all course hears everybody the hop cap allows, whatever they answer. -/
theorem course_foldAll (policy : rules.policy = .foldAll) (hops : Nat) (rows : List Row) :
    rules.course hops rows none [] = ⟨rows.take hops, rules.exhausted
      (((rows.take hops).filterMap (hit rules.ops)).foldl
        (fun fold row => some (rules.foldIn fold row.1 row.2)) none)
      ((silent (rows.take hops)).foldl addUnresolved []) ((rows.drop hops).map Prod.fst)⟩ := by
  generalize came : rules.course hops rows none [] = course
  have comes := came ▸ comes rules hops rows none []
  cases comes with
  | adopted newest =>
    rw [policy] at newest
    cases newest
  | halted halts =>
    rw [Rules.halts, policy] at halts
    cases halts
  | swept => rfl

end Fold

section Driven

variable {State : Type} {driver : ProbeDriver State} {snapshot : State} {rows : List Row}
  {course : Course State}

def handPumped (rows : List Row) : List DriverCall :=
  rows.flatMap (fun row => [.nextAction, row.2.deliver row.1]) ++ [.nextAction]

theorem run_over {outcome : Option (Outcome State)} (phase : driver.phase = .done outcome)
    (calls : List DriverCall) :
    ∃ trace, driver.run calls = some (trace, driver) ∧ trace.answers = [] := by
  induction calls with
  | nil => exact ⟨_, rfl, rfl⟩
  | cons call calls ih =>
    obtain ⟨trace, ran, silent⟩ := ih
    have still := call_over phase call
    refine ⟨_, driver.run_cons still.1 ran, ?_⟩
    rw [still.2]
    exact silent

/-- Every assignment of answers is driven to its end. -/
theorem Heads.handPumped (heads : Heads snapshot rows course driver)
    (idle : driver.outstanding = none) :
    ∃ trace final, driver.run (handPumped rows) = some (trace, final) ∧
      final.phase = .done (some course.outcome) ∧ trace.answers = course.heard := by
  induction rows generalizing driver course with
  | nil =>
    rcases heads.asks with ⟨next, action, phase, heard⟩ | ⟨id, next, -, outstanding, ahead, -⟩
    · have called := call_nextAction action
      refine ⟨_, next, driver.run_cons called rfl, phase, ?_⟩
      rw [heard]
      change (driver.log .nextAction).answers ++ [] = []
      rw [answers_nextAction, List.append_nil]
    · have rows := ahead.rows
      rw [outstanding] at rows
      cases rows
  | cons row rows ih =>
    obtain ⟨id, answer⟩ := row
    change ∃ trace final, driver.run (.nextAction :: answer.deliver id :: Probe.handPumped rows) =
      some (trace, final) ∧ _
    rcases heads.asks with ⟨next, action, phase, heard⟩ | ⟨other, next, action, outstanding, ahead, same⟩
    · have called := call_nextAction action
      obtain ⟨trace, ran, silent⟩ := run_over phase (answer.deliver id :: Probe.handPumped rows)
      refine ⟨_, next, driver.run_cons called ran, phase, ?_⟩
      change (driver.log .nextAction).answers ++ trace.answers = course.heard
      rw [answers_nextAction, silent, heard, List.append_nil]
    · have called := call_nextAction action
      have covered := ahead.rows
      rw [outstanding] at covered
      obtain rfl : id = other := (List.cons.inj covered).1
      obtain ⟨told, after, delivered, free, comes, onward⟩ := ahead.hears outstanding
      obtain ⟨trace, final, ran, phase, heard⟩ := ih onward free
      refine ⟨_, final, driver.run_cons called (next.run_cons delivered ran), ?_, ?_⟩
      · rw [← same, comes]
        exact phase
      · have accepts := accepts_iff.mpr ⟨ahead.phase, outstanding⟩
        change (driver.log .nextAction).answers ++ ((next.log (answer.deliver id)).answers ++
          trace.answers) = course.heard
        rw [answers_nextAction, log_accepted accepts, heard, ← same, comes]
        rfl

end Driven

section Main

variable {State : Type} (ops : ProbeStateOps State) (snapshot : State) (maxHops : Nat)
  (continuing : Bool)

theorem reference_foldAll_heard (rows : List Row) :
    (reference ops snapshot .foldAll maxHops continuing rows).heard = rows.take maxHops := by
  unfold reference
  split
  · rename_i empty
    rw [List.isEmpty_iff.mp empty, List.take_nil]
  · rw [course_foldAll rfl]

/-- With a real state among the answers a fold-all course ends in the fold of all of them. -/
theorem reference_foldAll_outcome {rows : List Row} {source : ContractInstanceId} {newest : State}
    {older : List (ContractInstanceId × State)}
    (hits : (rows.take maxHops).filterMap (hit ops) = (source, newest) :: older) :
    (reference ops snapshot .foldAll maxHops continuing rows).outcome = .recovered
      (ops.prepareForward (ops.mergeWithLocal
        (older.foldl (fun folded row => ops.mergeGenerations folded row.2) newest) snapshot))
      source (decide (maxHops < rows.length))
      (((rows.drop maxHops).map Prod.fst).foldl addUnresolved
        ((silent (rows.take maxHops)).foldl addUnresolved [])) := by
  have filled : ¬ rows.isEmpty = true := by
    intro empty
    rw [List.isEmpty_iff.mp empty, List.take_nil] at hits
    cases hits
  have cut : (!((rows.drop maxHops).map Prod.fst).isEmpty) = decide (maxHops < rows.length) := by
    rw [Bool.eq_iff_iff, Bool.not_eq_true', decide_eq_true_iff, ← Bool.not_eq_true, List.isEmpty_iff,
      List.map_eq_nil_iff, List.drop_eq_nil_iff, not_le]
  rw [reference, if_neg filled, course_foldAll rfl]
  simp only
  rw [hits, List.foldl_cons]
  change Rules.exhausted _ (List.foldl _ (some (source, newest)) older) _ _ = _
  rw [foldl_foldIn, Rules.exhausted_some, cut]

/-- Fold-all is its reference fold. However it is driven, it asks the first candidates up to the hop
    cap, in order, whatever they answer; the real states among the answers are folded from the newest
    on and merged with the local snapshot; and every assignment of answers is driven to its end. A
    fold cut short by the cap says so, and newest-first never does. -/
theorem fold_all_is_reference_fold (candidates : List ContractInstanceId) :
    (∀ calls trace driver outcome, ((ProbeDriver.new ops snapshot ⟨candidates⟩ .foldAll).configured
        maxHops continuing).run calls = some (trace, driver) →
      driver.takeOutcome.1 = some outcome →
      trace.asked = candidates.take maxHops ∧ trace.answers.map Prod.fst = candidates.take maxHops ∧
      ∀ source newest older, trace.answers.filterMap (hit ops) = (source, newest) :: older →
        ∃ unresolved, outcome = .recovered (ops.prepareForward (ops.mergeWithLocal
          (older.foldl (fun folded row => ops.mergeGenerations folded row.2) newest) snapshot))
          source (decide (maxHops < candidates.length)) unresolved) ∧
    (∀ rows : List Row, rows.map Prod.fst = candidates →
      ∃ trace driver outcome, ((ProbeDriver.new ops snapshot ⟨candidates⟩ .foldAll).configured
          maxHops continuing).run (handPumped rows) = some (trace, driver) ∧
        driver.takeOutcome.1 = some outcome ∧ trace.answers = rows.take maxHops) ∧
    ∀ calls trace driver merged source truncatedFold unresolved,
      ((ProbeDriver.new ops snapshot ⟨candidates⟩ .newestFirstWins).configured
        maxHops continuing).run calls = some (trace, driver) →
      driver.takeOutcome.1 = some (.recovered merged source truncatedFold unresolved) →
      truncatedFold = false := by
  refine ⟨?_, ?_, ?_⟩
  · intro calls trace driver outcome ran taken
    obtain ⟨left, named, came, asked⟩ := run_reference ops snapshot .foldAll maxHops continuing ran taken
    have heard := reference_foldAll_heard ops snapshot maxHops continuing (trace.answers ++ left)
    rw [came] at heard
    have first : trace.answers.map Prod.fst = candidates.take maxHops := by
      rw [named, ← List.map_take]
      exact congrArg _ heard
    refine ⟨asked.trans first, first, ?_⟩
    intro source newest older hits
    change trace.answers = _ at heard
    rw [heard] at hits
    have outcomes := reference_foldAll_outcome ops snapshot maxHops continuing hits
    rw [came] at outcomes
    have length : candidates.length = (trace.answers ++ left).length := by rw [named, List.length_map]
    rw [length]
    exact ⟨_, outcomes⟩
  · rintro rows rfl
    have heads := heads_start ops snapshot .foldAll maxHops continuing rows
    obtain ⟨trace, driver, ran, phase, heard⟩ := heads.handPumped (by cases continuing <;> rfl)
    refine ⟨trace, driver, (reference ops snapshot .foldAll maxHops continuing rows).outcome, ran, ?_, ?_⟩
    · rw [ProbeDriver.takeOutcome, phase]
    · rw [heard, reference_foldAll_heard]
  · intro calls trace driver merged source truncatedFold unresolved ran taken
    obtain ⟨-, policy, -, -⟩ :=
      fresh_configured ops snapshot ⟨candidates⟩ .newestFirstWins maxHops continuing
    obtain ⟨shown, final, again, stands⟩ :=
      (stands_start ops snapshot ⟨candidates⟩ .newestFirstWins maxHops continuing).run calls
    obtain ⟨rfl, rfl⟩ := Prod.mk.inj (Option.some.inj (ran.symm.trans again))
    cases stands.taken taken with
    | hit => rfl
    | folded folds =>
      rw [policy] at folds
      cases folds

/-- Two real states around a miss, newest first, and a fourth candidate the cap cuts off. -/
example : ∃ trace driver, ((ProbeDriver.new (⟨some, fun state => state != [], (· ++ ·), (· ++ ·), id⟩ :
      ProbeStateOps Bytes) [9] ⟨[Fixed.zero 32, Fixed.zero 32, Fixed.zero 32, Fixed.zero 32]⟩
        .foldAll).configured 3 false).run
      (handPumped [(Fixed.zero 32, .state [1]), (Fixed.zero 32, .absent), (Fixed.zero 32, .state [2])]) =
        some (trace, driver) ∧
    driver.takeOutcome.1 = some (.recovered [1, 2, 9] (Fixed.zero 32) true [Fixed.zero 32]) :=
  ⟨_, _, rfl, rfl⟩

end Main

end FreenetMigrate.Probe
