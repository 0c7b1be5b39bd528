import Mathlib.Order.Bounds.Basic
import Mathlib.Order.MinMax

namespace FreenetMigrate.Joins

variable {α : Type} [LinearOrder α]

def keepGreater (held : Option α) (newcomer : α) : Option α :=
  some (held.elim newcomer fun current => max current newcomer)

/-- What is held after all of `newcomers`, starting from `held`. -/
def keepGreatest (held : Option α) (newcomers : List α) : Option α :=
  newcomers.foldl keepGreater held

def everHeld (held : Option α) (newcomers : List α) : Set α :=
  {value | held = some value ∨ value ∈ newcomers}

@[simp] theorem keepGreatest_nil (held : Option α) : keepGreatest held [] = held := rfl

@[simp] theorem keepGreatest_cons (held : Option α) (newcomer : α) (rest : List α) :
    keepGreatest held (newcomer :: rest) = keepGreatest (keepGreater held newcomer) rest := rfl

theorem keepGreatest_append (held : Option α) (first second : List α) :
    keepGreatest held (first ++ second) = keepGreatest (keepGreatest held first) second :=
  List.foldl_append

theorem keepGreatest_some (current : α) (newcomers : List α) :
    ∃ value, keepGreatest (some current) newcomers = some value ∧
      IsGreatest (everHeld (some current) newcomers) value := by
  induction newcomers generalizing current with
  | nil =>
    refine ⟨current, rfl, .inl rfl, ?_⟩
    rintro value (same | member)
    · exact (Option.some.inj same).ge
    · cases member
  | cons newcomer rest ih =>
    obtain ⟨value, kept, member, bound⟩ := ih (max current newcomer)
    refine ⟨value, kept, ?_, ?_⟩
    · rcases member with same | member
      · rw [← Option.some.inj same]
        rcases max_choice current newcomer with h | h <;> rw [h]
        · exact .inl rfl
        · exact .inr (List.mem_cons_self ..)
      · exact .inr (List.mem_cons_of_mem _ member)
    · have top : max current newcomer ≤ value := bound (.inl rfl)
      rintro other (same | other_mem)
      · rw [← Option.some.inj same]
        exact (le_max_left _ _).trans top
      · rcases List.mem_cons.mp other_mem with rfl | other_mem
        · exact (le_max_right _ _).trans top
        · exact bound (.inr other_mem)

/-- Something is held exactly when there was something to hold, and then it is the greatest. -/
theorem keepGreatest_isGreatest (held : Option α) (newcomers : List α)
    (nonempty : (everHeld held newcomers).Nonempty) :
    ∃ value, keepGreatest held newcomers = some value ∧
      IsGreatest (everHeld held newcomers) value := by
  cases held with
  | some current => exact keepGreatest_some current newcomers
  | none =>
    cases newcomers with
    | nil =>
      obtain ⟨value, same | member⟩ := nonempty
      · cases same
      · cases member
    | cons newcomer rest =>
      obtain ⟨value, kept, greatest⟩ := keepGreatest_some newcomer rest
      refine ⟨value, kept, ?_⟩
      have same : everHeld none (newcomer :: rest) = everHeld (some newcomer) rest := by
        ext other
        simp [everHeld, eq_comm]
      rwa [same]

theorem keepGreatest_eq_none {held : Option α} {newcomers : List α} :
    keepGreatest held newcomers = none ↔ ¬ (everHeld held newcomers).Nonempty := by
  constructor
  · intro nothing nonempty
    obtain ⟨value, kept, _⟩ := keepGreatest_isGreatest held newcomers nonempty
    rw [nothing] at kept
    cases kept
  · intro empty
    cases held with
    | some current => exact absurd ⟨current, .inl rfl⟩ empty
    | none =>
      cases newcomers with
      | nil => rfl
      | cons newcomer rest => exact absurd ⟨newcomer, .inr (List.mem_cons_self ..)⟩ empty

theorem mem_of_keepGreatest {held : Option α} {newcomers : List α} {value : α}
    (kept : keepGreatest held newcomers = some value) : value ∈ everHeld held newcomers := by
  have nonempty : (everHeld held newcomers).Nonempty := by
    by_contra empty
    rw [keepGreatest_eq_none.mpr empty] at kept
    cases kept
  obtain ⟨greatest, same, member, -⟩ := keepGreatest_isGreatest held newcomers nonempty
  rw [kept] at same
  exact Option.some.inj same ▸ member

/-- What is held in the end depends on what there was to hold, not on order or repetition. -/
theorem keepGreatest_congr {held other : Option α} {newcomers others : List α}
    (same : everHeld held newcomers = everHeld other others) :
    keepGreatest held newcomers = keepGreatest other others := by
  by_cases nonempty : (everHeld held newcomers).Nonempty
  · obtain ⟨value, kept, greatest⟩ := keepGreatest_isGreatest held newcomers nonempty
    obtain ⟨value', kept', greatest'⟩ := keepGreatest_isGreatest other others (same ▸ nonempty)
    rw [kept, kept', greatest.unique (same ▸ greatest')]
  · rw [keepGreatest_eq_none.mpr nonempty, keepGreatest_eq_none.mpr (same ▸ nonempty)]

/-- What one side has to send another: its own value, unless the other holds one as great. -/
def owed (ours theirs : Option α) : Option α :=
  ours.filter fun mine => theirs.all fun other => decide (other < mine)

theorem owed_eq_some {ours theirs : Option α} {value : α} :
    owed ours theirs = some value ↔ ours = some value ∧ ∀ other, theirs = some other → other < value := by
  cases theirs <;> simp [owed, Option.filter_eq_some_iff]

theorem owed_eq_none {ours theirs : Option α} :
    owed ours theirs = none ↔
      ∀ mine, ours = some mine → ∃ other, theirs = some other ∧ mine ≤ other := by
  cases ours <;> cases theirs <;> simp [owed, Option.filter_eq_none_iff]

theorem eq_of_owed_eq_none {ours theirs : Option α} (sent : owed ours theirs = none)
    (received : owed theirs ours = none) : ours = theirs := by
  rw [owed_eq_none] at sent received
  cases ours with
  | none =>
    cases theirs with
    | none => rfl
    | some other =>
      obtain ⟨mine, absent, _⟩ := received other rfl
      cases absent
  | some mine =>
    obtain ⟨other, rfl, below⟩ := sent mine rfl
    obtain ⟨same, held, above⟩ := received other rfl
    obtain rfl := Option.some.inj held
    rw [le_antisymm below above]

theorem owed_asymm {ours theirs : Option α} {value : α} (sent : owed ours theirs = some value) :
    owed theirs ours = none := by
  obtain ⟨rfl, beats⟩ := owed_eq_some.mp sent
  rw [owed_eq_none]
  intro other held
  exact ⟨value, rfl, (beats other held).le⟩

/-- A side that takes what it is owed holds what the sender holds. -/
theorem keepGreater_owed {ours theirs : Option α} {value : α} (sent : owed ours theirs = some value) :
    keepGreater theirs value = ours := by
  obtain ⟨rfl, beats⟩ := owed_eq_some.mp sent
  cases theirs with
  | none => rfl
  | some other => exact congrArg some (max_eq_right (beats other rfl).le)

end FreenetMigrate.Joins
