import FreenetMigrate.Probe.FoldAll

namespace FreenetMigrate.Probe

open PointerClient (ContractInstanceId Step)

/-- A candidate's id answered, at one of its places. Silence is no answer. -/
def Answered (answers : List Row) (id : ContractInstanceId) : Prop :=
  ∃ answer, (id, answer) ∈ answers ∧ answer ≠ .unknown

def ExactList (candidates : List ContractInstanceId) (answers : List Row)
    (unresolved : List ContractInstanceId) : Prop :=
  unresolved.Nodup ∧ ∀ id, id ∈ unresolved ↔ id ∈ candidates ∧ ¬ Answered answers id

/-- What `unresolved` is to be. A newest-first probe that adopts a state reports on the candidates
    before the place it adopted it from. -/
def UnresolvedExact {State : Type} (policy : SelectionPolicy) (candidates : List ContractInstanceId)
    (answers : List Row) : Outcome State → Prop
  | .indeterminate _ unresolved => ExactList candidates answers unresolved
  | .recovered _ _ _ unresolved =>
    match policy with
    | .foldAll => ExactList candidates answers unresolved
    | .newestFirstWins => ExactList (candidates.take (answers.length - 1)) answers unresolved
  | .seedLocal _ => True
  | .noLegacy _ => True

/-- The places of the candidate list without an answer: the silent ones, and the ones that were never
    asked, unless a newest-first probe was done before it came to them. -/
def unheard {State : Type} (ops : ProbeStateOps State) (policy : SelectionPolicy)
    (candidates : List ContractInstanceId) (answers : List Row) : List ContractInstanceId :=
  silent answers ++
    if policy = .newestFirstWins ∧ (answers.filterMap (hit ops)).isEmpty = false then []
    else candidates.drop answers.length

theorem nodup_foldl_addUnresolved {unresolved : List ContractInstanceId} (nodup : unresolved.Nodup)
    (ids : List ContractInstanceId) : (ids.foldl addUnresolved unresolved).Nodup := by
  induction ids generalizing unresolved with
  | nil => exact nodup
  | cons id rest ih =>
    apply ih
    unfold addUnresolved
    split
    · exact nodup
    · rename_i absent
      rw [List.nodup_append]
      refine ⟨nodup, List.nodup_singleton id, ?_⟩
      intro other listed last same
      rw [List.mem_singleton.mp same]
      rintro rfl
      exact absent listed

theorem mem_silent {answers : List Row} {id : ContractInstanceId} :
    id ∈ silent answers ↔ (id, .unknown) ∈ answers := by
  simp [silent]

theorem silent_or_answered {answers : List Row} {id : ContractInstanceId}
    (asked : id ∈ answers.map Prod.fst) : id ∈ silent answers ∨ Answered answers id := by
  obtain ⟨⟨other, answer⟩, member, rfl⟩ := List.mem_map.mp asked
  by_cases told : answer = .unknown
  · exact .inl (mem_silent.mpr (told ▸ member))
  · exact .inr ⟨answer, member, told⟩

/-- A list of the silent and the unasked is exact if and only if none of them answered elsewhere. -/
theorem exactList_iff (answers more : List Row) {listed left : List ContractInstanceId}
    (nodup : listed.Nodup) (members : ∀ id, id ∈ listed ↔ id ∈ silent answers ∨ id ∈ left) :
    ExactList (answers.map Prod.fst ++ left) (answers ++ more) listed ↔
      ∀ id, id ∈ silent answers ∨ id ∈ left → ¬ Answered (answers ++ more) id := by
  constructor
  · rintro ⟨-, exact⟩ id unheard
    exact ((exact id).mp ((members id).mpr unheard)).2
  · intro apart
    refine ⟨nodup, fun id => ?_⟩
    rw [members, List.mem_append]
    constructor
    · intro unheard
      refine ⟨unheard.imp_left fun silence => ?_, apart id unheard⟩
      exact List.mem_map.mpr ⟨_, mem_silent.mp silence, rfl⟩
    · rintro ⟨asked | unasked, never⟩
      · apply Or.inl
        refine (silent_or_answered asked).resolve_right fun ⟨answer, member, told⟩ => never ?_
        exact ⟨answer, List.mem_append_left _ member, told⟩
      · exact .inr unasked

section Main

variable {State : Type} {ops : ProbeStateOps State} {snapshot : State} {policy : SelectionPolicy}
  {maxHops : Nat} {continuing : Bool} {answers left : List Row} {outcome : Outcome State}

theorem mem_listed (ids : List ContractInstanceId) (id : ContractInstanceId) :
    id ∈ ids.foldl addUnresolved ((silent answers).foldl addUnresolved []) ↔
      id ∈ silent answers ∨ id ∈ ids := by
  rw [mem_foldl_addUnresolved, mem_foldl_addUnresolved]
  simp

theorem nodup_listed (ids : List ContractInstanceId) :
    (ids.foldl addUnresolved ((silent answers).foldl addUnresolved [])).Nodup :=
  nodup_foldl_addUnresolved (nodup_foldl_addUnresolved List.nodup_nil _) ids

theorem mem_unheard (whole : ¬ (policy = .newestFirstWins ∧
      (answers.filterMap (hit ops)).isEmpty = false)) (id : ContractInstanceId) :
    id ∈ unheard ops policy ((answers ++ left).map Prod.fst) answers ↔
      id ∈ (left.map Prod.fst).foldl addUnresolved ((silent answers).foldl addUnresolved []) := by
  have rest : ((answers ++ left).map Prod.fst).drop answers.length = left.map Prod.fst := by
    rw [List.map_append, List.drop_left' (List.length_map ..)]
  rw [unheard, if_neg whole, rest, List.mem_append, mem_listed]

theorem exactList_whole (whole : ¬ (policy = .newestFirstWins ∧
      (answers.filterMap (hit ops)).isEmpty = false)) :
    ExactList ((answers ++ left).map Prod.fst) answers
        ((left.map Prod.fst).foldl addUnresolved ((silent answers).foldl addUnresolved [])) ↔
      ∀ id ∈ unheard ops policy ((answers ++ left).map Prod.fst) answers, ¬ Answered answers id := by
  have iff := exactList_iff answers [] (nodup_listed (left.map Prod.fst)) (mem_listed _)
  rw [List.append_nil] at iff
  simp only [mem_unheard whole, mem_listed]
  rw [List.map_append]
  exact iff

/-- Where a newest-first probe adopts a state, it accounts for the candidates before it. -/
theorem exactList_adopted {missed later : List Row} {id : ContractInstanceId} {answer : ProbeAnswer}
    {state : State} (real : answer.read ops = .real state) :
    ExactList (((missed ++ (id, answer) :: later).map Prod.fst).take
        ((missed ++ [(id, answer)]).length - 1)) (missed ++ [(id, answer)])
        ((silent missed).foldl addUnresolved []) ↔
      ∀ other ∈ unheard ops .newestFirstWins ((missed ++ (id, answer) :: later).map Prod.fst)
        (missed ++ [(id, answer)]), ¬ Answered (missed ++ [(id, answer)]) other := by
  have before : ((missed ++ (id, answer) :: later).map Prod.fst).take
      ((missed ++ [(id, answer)]).length - 1) = missed.map Prod.fst ++ [] := by
    rw [List.length_append, List.length_singleton, Nat.add_sub_cancel, List.map_append,
      List.take_left' (List.length_map ..), List.append_nil]
  have told : answer ≠ .unknown := by
    rintro rfl
    cases real
  have found : hit ops (id, answer) = some (id, state) := by simp only [hit, real]
  have adopted : ((missed ++ [(id, answer)]).filterMap (hit ops)).isEmpty = false := by
    rw [List.filterMap_append, List.filterMap_cons_some found]
    simp
  have quiet : silent (missed ++ [(id, answer)]) = silent missed := by simp [silent, told]
  have iff := exactList_iff missed [(id, answer)] (nodup_listed []) (mem_listed [])
  rw [before, unheard, if_pos ⟨rfl, adopted⟩, quiet, List.append_nil]
  simpa using iff

/-- The unresolved list of a course is exact if and only if no id answered at one place and was left
    without an answer at another. -/
theorem reference_exact_iff
    (came : reference ops snapshot policy maxHops continuing (answers ++ left) = ⟨answers, outcome⟩) :
    UnresolvedExact policy ((answers ++ left).map Prod.fst) answers outcome ↔
      ∀ id ∈ unheard ops policy ((answers ++ left).map Prod.fst) answers, ¬ Answered answers id := by
  unfold reference at came
  split at came
  · rename_i empty
    obtain ⟨rfl, rfl⟩ := List.append_eq_nil_iff.mp (List.isEmpty_iff.mp empty)
    obtain rfl := (Course.mk.inj came).2
    simp [UnresolvedExact, unheard, silent]
  · obtain ⟨all, rows⟩ : ∃ all, all = answers ++ left := ⟨_, rfl⟩
    rw [← rows] at came ⊢
    have comes := came ▸ comes ⟨ops, policy, continuing, snapshot⟩ maxHops all none []
    cases comes with
    | adopted newest split real =>
      obtain rfl : policy = .newestFirstWins := newest
      rw [split]
      exact exactList_adopted real
    | @halted missed later id halts split unfound =>
      have none : ((missed ++ [(id, ProbeAnswer.unknown)]).filterMap (hit ops)).isEmpty = true := by
        rw [List.filterMap_append, unfound]
        rfl
      have same := rows.symm.trans (split.trans (List.append_cons ..))
      obtain rfl := List.append_cancel_left same
      rw [rows]
      apply exactList_whole
      rw [none]
      simp
    | swept missed =>
      have later : left = all.drop maxHops := by
        have parts := (List.take_append_drop maxHops all).trans rows
        exact (List.append_cancel_left parts).symm
      have whole : ¬ (policy = .newestFirstWins ∧
          ((all.take maxHops).filterMap (hit ops)).isEmpty = false) := by
        rintro ⟨newest, found⟩
        rw [missed newest] at found
        cases found
      rw [← later]
      have listed := @exactList_whole State ops policy (all.take maxHops) left whole
      have members := @mem_unheard State ops policy (all.take maxHops) left whole
      rw [← rows] at listed members
      cases hits : (all.take maxHops).filterMap (hit ops) with
      | nil =>
        rw [List.foldl_nil, Rules.exhausted_none]
        split
        · rename_i empty
          refine ⟨fun _ id member => ?_, fun _ => trivial⟩
          rw [members, List.isEmpty_iff.mp empty] at member
          cases member
        · exact listed
      | cons first older =>
        have folds : policy = .foldAll := by
          cases policy with
          | foldAll => rfl
          | newestFirstWins =>
            rw [missed rfl] at hits
            cases hits
        subst folds
        rw [List.foldl_cons, Rules.foldIn, foldl_foldIn, Rules.exhausted_some]
        exact listed

/-- Where a probe adopts nothing and leaves its question open, it names whom it did not ask. -/
theorem left_reported {kept : State} {unresolved : List ContractInstanceId}
    (came : reference ops snapshot policy maxHops continuing
      (answers ++ left) = ⟨answers, .indeterminate kept unresolved⟩) {id : ContractInstanceId}
    (unasked : id ∈ left.map Prod.fst) : id ∈ unresolved := by
  unfold reference at came
  split at came
  · cases came
  · obtain ⟨course, same⟩ : ∃ course, course = (⟨answers, .indeterminate kept unresolved⟩ : Course State) :=
      ⟨_, rfl⟩
    have comes := (came.trans same.symm) ▸
      comes ⟨ops, policy, continuing, snapshot⟩ maxHops (answers ++ left) none []
    cases comes with
    | adopted => cases same
    | @halted missed later silentId halts split unfound =>
      obtain ⟨heard, outcome⟩ := Course.mk.inj same
      obtain ⟨-, listed⟩ := Outcome.indeterminate.inj outcome
      have behind : left = later := by
        rw [← heard, List.append_assoc, List.singleton_append] at split
        exact List.tail_eq_of_cons_eq (List.append_cancel_left split)
      rw [← listed, mem_listed]
      exact .inr (behind ▸ unasked)
    | swept missed =>
      obtain ⟨heard, outcome⟩ := Course.mk.inj same
      have behind : left = (answers ++ left).drop maxHops := by
        have parts := List.take_append_drop maxHops (answers ++ left)
        rw [heard] at parts
        exact (List.append_cancel_left parts).symm
      rw [← behind] at outcome
      unfold Rules.exhausted at outcome
      dsimp only at outcome
      split at outcome
      · cases outcome
      · split at outcome
        · cases outcome
        · obtain ⟨-, listed⟩ := Outcome.indeterminate.inj outcome
          rw [← listed, mem_listed]
          exact .inr unasked

theorem unheard_of_nodup (nodup : ((answers ++ left).map Prod.fst).Nodup) {id : ContractInstanceId}
    (absent : id ∈ unheard ops policy ((answers ++ left).map Prod.fst) answers) :
    ¬ Answered answers id := by
  rintro ⟨answer, member, told⟩
  have rest : ((answers ++ left).map Prod.fst).drop answers.length = left.map Prod.fst := by
    rw [List.map_append, List.drop_left' (List.length_map ..)]
  rw [unheard, rest, List.mem_append] at absent
  rw [List.map_append, List.nodup_append] at nodup
  rcases absent with silence | unasked
  · have same := List.inj_on_of_nodup_map nodup.1 member (mem_silent.mp silence) rfl
    exact told (Prod.mk.inj same).2
  · split at unasked
    · cases unasked
    · exact nodup.2.2 id (List.mem_map.mpr ⟨_, member, rfl⟩) id unasked rfl

variable {candidates : List ContractInstanceId} {calls : List DriverCall} {trace : ProbeTrace}
  {driver : ProbeDriver State}

/-- In every run, the unresolved list of the outcome is exact if and only if no id that answered at
    one of its places was left without an answer at another. -/
theorem unresolved_exact_iff
    (ran : ((ProbeDriver.new ops snapshot ⟨candidates⟩ policy).configured maxHops continuing).run calls =
      some (trace, driver))
    (taken : driver.takeOutcome.1 = some outcome) :
    UnresolvedExact policy candidates trace.answers outcome ↔
      ∀ id ∈ unheard ops policy candidates trace.answers, ¬ Answered trace.answers id := by
  obtain ⟨left, named, came, -⟩ := run_reference ops snapshot policy maxHops continuing ran taken
  rw [named]
  exact reference_exact_iff came

/-- So it is exact wherever the candidates are pairwise distinct. -/
theorem unresolved_exact_of_nodup (nodup : candidates.Nodup)
    (ran : ((ProbeDriver.new ops snapshot ⟨candidates⟩ policy).configured maxHops continuing).run calls =
      some (trace, driver))
    (taken : driver.takeOutcome.1 = some outcome) :
    UnresolvedExact policy candidates trace.answers outcome := by
  obtain ⟨left, named, came, -⟩ := run_reference ops snapshot policy maxHops continuing ran taken
  rw [named] at nodup ⊢
  exact (reference_exact_iff came).mpr fun id => unheard_of_nodup nodup

end Main

section Samples

def byteOps : ProbeStateOps Bytes where
  decode := some
  isReal state := !state.isEmpty
  mergeWithLocal := (· ++ ·)
  mergeGenerations := (· ++ ·)

def twice : NewestFirst := ⟨[Fixed.zero 32, Fixed.zero 32]⟩

/-- Two silent places of one id: it is listed once, and it never answered. -/
theorem unresolved_exact_iff_twice :
    UnresolvedExact .foldAll twice.candidates
      [(Fixed.zero 32, .unknown), (Fixed.zero 32, .unknown)]
      (.indeterminate [9] [Fixed.zero 32] : Outcome Bytes) := by
  obtain ⟨trace, driver, ran, answers, taken⟩ : ∃ trace driver,
      ((ProbeDriver.new byteOps [9] twice .foldAll).configured 64 false).run
        (handPumped [(Fixed.zero 32, .unknown), (Fixed.zero 32, .unknown)]) = some (trace, driver) ∧
      trace.answers = [(Fixed.zero 32, .unknown), (Fixed.zero 32, .unknown)] ∧
      driver.takeOutcome.1 = some (.indeterminate [9] [Fixed.zero 32]) := ⟨_, _, rfl, rfl, rfl⟩
  rw [← answers]
  apply (unresolved_exact_iff ran taken).mpr
  rintro id - ⟨answer, member, told⟩
  rw [answers] at member
  simp at member
  exact told member.2

/-- One id at two places: silent at the first, a real state at the second. It answered, and it is
    reported as unresolved. -/
theorem answered_id_reported :
    ∃ trace driver outcome,
      ((ProbeDriver.new byteOps [9] twice .foldAll).configured 64 false).run
        (handPumped [(Fixed.zero 32, .unknown), (Fixed.zero 32, .state [1])]) = some (trace, driver) ∧
      driver.takeOutcome.1 = some outcome ∧
      outcome = .recovered [1, 9] (Fixed.zero 32) false [Fixed.zero 32] ∧
      Answered trace.answers (Fixed.zero 32) ∧
      ¬ UnresolvedExact .foldAll twice.candidates trace.answers outcome := by
  obtain ⟨trace, driver, ran, answers, taken⟩ : ∃ trace driver,
      ((ProbeDriver.new byteOps [9] twice .foldAll).configured 64 false).run
        (handPumped [(Fixed.zero 32, .unknown), (Fixed.zero 32, .state [1])]) = some (trace, driver) ∧
      trace.answers = [(Fixed.zero 32, .unknown), (Fixed.zero 32, .state [1])] ∧
      driver.takeOutcome.1 = some (.recovered [1, 9] (Fixed.zero 32) false [Fixed.zero 32]) :=
    ⟨_, _, rfl, rfl, rfl⟩
  have answered : Answered trace.answers (Fixed.zero 32) := by
    rw [answers]
    exact ⟨.state [1], by simp, by simp⟩
  refine ⟨trace, driver, _, ran, taken, rfl, answered, ?_⟩
  rintro ⟨-, exact⟩
  exact ((exact (Fixed.zero 32)).mp (by simp)).2 answered

end Samples

end FreenetMigrate.Probe
