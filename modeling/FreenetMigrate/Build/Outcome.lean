import Mathlib.Data.List.Forall2

namespace FreenetMigrate.Build

/-- What a function that can fail or panic comes to. A panic has no value. -/
abbrev Outcome (ε α : Type) : Type := ExceptT ε Option α

namespace Outcome

variable {ε δ α β : Type}

def panics : Outcome ε α := ExceptT.mk none

def ofExcept (x : Except ε α) : Outcome ε α := ExceptT.mk (some x)

def orPanic (x : Option α) : Outcome ε α := ExceptT.mk (x.map .ok)

@[simp] theorem ofExcept_ok (a : α) : (ofExcept (.ok a) : Outcome ε α) = pure a := rfl

@[simp] theorem ofExcept_error (e : ε) : (ofExcept (.error e) : Outcome ε α) = throw e := rfl

@[simp] theorem orPanic_some (a : α) : (orPanic (some a) : Outcome ε α) = pure a := rfl

@[simp] theorem orPanic_none : (orPanic none : Outcome ε α) = panics := rfl

theorem cases (x : Outcome ε α) : x = panics ∨ (∃ e, x = throw e) ∨ ∃ a, x = pure a := by
  match x with
  | none => exact .inl rfl
  | some (.error e) => exact .inr (.inl ⟨e, rfl⟩)
  | some (.ok a) => exact .inr (.inr ⟨a, rfl⟩)

theorem pure_inj {a b : α} : (pure a : Outcome ε α) = pure b ↔ a = b := by
  constructor
  · intro same
    exact Except.ok.inj (Option.some.inj same)
  · rintro rfl
    rfl

theorem throw_ne_pure {e : ε} {a : α} : (throw e : Outcome ε α) ≠ pure a := by
  intro same
  cases Option.some.inj same

theorem panics_ne_pure {a : α} : (panics : Outcome ε α) ≠ pure a := by
  intro same
  cases same

theorem panics_ne_throw {e : ε} : (panics : Outcome ε α) ≠ throw e := by
  intro same
  cases same

@[simp] theorem pure_bind (a : α) (f : α → Outcome ε β) : (pure a >>= f) = f a := rfl

@[simp] theorem throw_bind (e : ε) (f : α → Outcome ε β) : (throw e >>= f) = throw e := rfl

@[simp] theorem panics_bind (f : α → Outcome ε β) : (panics >>= f) = panics := rfl

theorem bind_eq_pure {x : Outcome ε α} {f : α → Outcome ε β} {b : β} :
    (x >>= f) = pure b ↔ ∃ a, x = pure a ∧ f a = pure b := by
  constructor
  · intro returns
    rcases x.cases with rfl | ⟨e, rfl⟩ | ⟨a, rfl⟩
    · exact absurd returns panics_ne_pure
    · exact absurd returns throw_ne_pure
    · exact ⟨a, rfl, returns⟩
  · rintro ⟨a, rfl, rest⟩
    exact rest

theorem then_eq_pure {x : Outcome ε PUnit} {f : PUnit → Outcome ε β} {b : β} :
    (x >>= f) = pure b ↔ x = pure () ∧ f () = pure b := by
  rw [bind_eq_pure]
  exact ⟨fun ⟨_, first, second⟩ => ⟨first, second⟩, fun ⟨first, second⟩ => ⟨(), first, second⟩⟩

theorem adapt_eq_pure {x : Outcome ε α} {f : ε → δ} {a : α} :
    (ExceptT.adapt f x : Outcome δ α) = pure a ↔ x = pure a := by
  rcases x.cases with rfl | ⟨e, rfl⟩ | ⟨b, rfl⟩
  · exact ⟨fun same => absurd same panics_ne_pure, fun same => absurd same panics_ne_pure⟩
  · exact ⟨fun same => absurd same throw_ne_pure, fun same => absurd same throw_ne_pure⟩
  · exact pure_inj.trans pure_inj.symm

theorem adapt_throw (e : ε) (f : ε → δ) :
    (ExceptT.adapt f (throw e : Outcome ε α) : Outcome δ α) = throw (f e) := rfl

theorem forM_eq_pure {xs : List α} {check : α → Outcome ε PUnit} :
    xs.forM check = pure () ↔ ∀ x ∈ xs, check x = pure () := by
  induction xs with
  | nil => simp
  | cons x rest ih =>
    change (check x >>= fun _ => rest.forM check) = pure () ↔ _
    rw [then_eq_pure, List.forall_mem_cons, ih]

theorem mapM_eq_pure {f : α → Outcome ε β} {xs : List α} {ys : List β} :
    xs.mapM f = pure ys ↔ List.Forall₂ (fun x y => f x = pure y) xs ys := by
  induction xs generalizing ys with
  | nil =>
    rw [List.mapM_nil, pure_inj, List.forall₂_nil_left_iff]
    exact eq_comm
  | cons x rest ih =>
    rw [List.mapM_cons, List.forall₂_cons_left_iff]
    simp only [bind_eq_pure, pure_inj, ih]
    constructor
    · rintro ⟨y, first, others, tail, rfl⟩
      exact ⟨y, others, first, tail, rfl⟩
    · rintro ⟨y, others, first, tail, rfl⟩
      exact ⟨y, first, others, tail, rfl⟩

end Outcome
end FreenetMigrate.Build
