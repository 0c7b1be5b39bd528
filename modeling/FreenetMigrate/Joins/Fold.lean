import Mathlib.Order.Bounds.Basic

namespace FreenetMigrate.Joins

section Fold

variable {α : Type} [SemilatticeSup α]

/-- A fold of joins is the least upper bound of what is folded. -/
theorem isLUB_foldl_sup (first : α) (rest : List α) :
    IsLUB {value | value ∈ first :: rest} (rest.foldl (· ⊔ ·) first) := by
  induction rest generalizing first with
  | nil =>
    have alone : {value | value ∈ [first]} = {first} := by
      ext value
      simp
    rw [alone]
    exact isLUB_singleton
  | cons next rest ih =>
    refine (isLUB_congr ?_).mp (ih (first ⊔ next))
    ext bound
    simp [mem_upperBounds, and_assoc]

/-- The order in which joins are folded does not matter, nor how often something is. -/
theorem foldl_sup_congr {first other : α} {rest others : List α}
    (same : ∀ value, value ∈ first :: rest ↔ value ∈ other :: others) :
    rest.foldl (· ⊔ ·) first = others.foldl (· ⊔ ·) other := by
  have sets : {value | value ∈ first :: rest} = {value | value ∈ other :: others} := Set.ext same
  have bound := isLUB_foldl_sup first rest
  rw [sets] at bound
  exact bound.unique (isLUB_foldl_sup other others)

/-- A map that keeps joins keeps least upper bounds of what is folded. -/
theorem map_foldl_sup {map : α → α} (joins : ∀ a b, map (a ⊔ b) = map a ⊔ map b) (first : α)
    (rest : List α) : map (rest.foldl (· ⊔ ·) first) = (rest.map map).foldl (· ⊔ ·) (map first) := by
  induction rest generalizing first with
  | nil => rfl
  | cons next rest ih => rw [List.foldl_cons, ih, joins, List.map_cons, List.foldl_cons]

end Fold

section Laws

variable {α : Type}

def IsJoin (merge : α → α → α) : Prop := ∃ _ : SemilatticeSup α, ∀ a b, merge a b = a ⊔ b

/-- Three laws make a join. Associativity is asked for only turned around, as a fold from the other end
    shows it. -/
theorem isJoin_iff {merge : α → α → α} :
    IsJoin merge ↔ (∀ a b, merge a b = merge b a) ∧ (∀ a, merge a a = a) ∧
      ∀ a b c, merge (merge a b) c = merge (merge c b) a := by
  constructor
  · rintro ⟨order, joins⟩
    simp only [joins]
    refine ⟨sup_comm, fun a => sup_idem a, ?_⟩
    intro a b c
    rw [sup_comm c b, sup_comm (b ⊔ c) a, sup_assoc]
  · rintro ⟨commutes, repeats, turns⟩
    let max : Max α := ⟨merge⟩
    refine ⟨.mk' commutes ?_ repeats, fun _ _ => rfl⟩
    intro a b c
    calc merge (merge a b) c
      _ = merge (merge c b) a := turns a b c
      _ = merge a (merge c b) := commutes _ _
      _ = merge a (merge b c) := by rw [commutes c b]

end Laws

end FreenetMigrate.Joins
