import FreenetMigrate.Joins.Fold
import FreenetMigrate.Probe.Driver

namespace FreenetMigrate.Probe

open Joins

section Checks

variable {S : Type} [DecidableEq S] (samples : List S) (merge : S → S → S)

def assertMergeCommutative : Except String Unit :=
  samples.zipIdx.forM fun a => samples.zipIdx.forM fun b =>
    if merge a.1 b.1 = merge b.1 a.1 then .ok ()
    else .error s!"merge is not commutative for samples #{a.2} and #{b.2}"

def assertMergeIdempotent : Except String Unit :=
  samples.zipIdx.forM fun a =>
    if merge a.1 a.1 = a.1 then .ok () else .error s!"merge is not idempotent for sample #{a.2}"

def assertFoldOrderInvariant : Except String Unit :=
  match samples with
  | [] => .ok ()
  | first :: rest =>
    let forward := rest.foldl merge first
    let backward := (first :: rest).dropLast.reverse.foldl merge ((first :: rest).getLast (by simp))
    if forward = backward then .ok ()
    else .error "fold over samples is order-dependent; fold-all is not sound for this merge"

end Checks

section Passes

variable {S : Type} [DecidableEq S] {samples : List S} {merge : S → S → S}

theorem forM_eq_ok {α ε : Type} {items : List α} {body : α → Except ε Unit} :
    items.forM body = .ok () ↔ ∀ item ∈ items, body item = .ok () := by
  induction items with
  | nil => simp [List.forM, pure, Except.pure]
  | cons item rest ih =>
    rw [List.forall_mem_cons, ← ih]
    change (body item >>= fun _ => rest.forM body) = .ok () ↔ _
    cases body item with
    | error message => simp [bind, Except.bind]
    | ok => simp [bind, Except.bind]

theorem forall_mem_zipIdx {α : Type} (items : List α) (property : α → Prop) :
    (∀ item ∈ items.zipIdx, property item.1) ↔ ∀ item ∈ items, property item := by
  constructor
  · intro each item member
    obtain ⟨index, bound, rfl⟩ := List.getElem_of_mem member
    exact each (items[index], index) (by simp [List.mem_zipIdx_iff_getElem?])
  · rintro each ⟨item, index⟩ member
    exact each item (List.fst_mem_of_mem_zipIdx member)

theorem ite_eq_ok {property : Prop} [Decidable property] {message : String} :
    (if property then .ok () else .error message : Except String Unit) = .ok () ↔ property := by
  split <;> simp_all

theorem assertMergeCommutative_eq_ok : assertMergeCommutative samples merge = .ok () ↔
    ∀ a ∈ samples, ∀ b ∈ samples, merge a b = merge b a := by
  have row (a : S) := forall_mem_zipIdx samples fun b => merge a b = merge b a
  unfold assertMergeCommutative
  simp only [forM_eq_ok, ite_eq_ok, row]
  exact forall_mem_zipIdx samples fun a => ∀ b ∈ samples, merge a b = merge b a

theorem assertMergeIdempotent_eq_ok : assertMergeIdempotent samples merge = .ok () ↔
    ∀ a ∈ samples, merge a a = a := by
  unfold assertMergeIdempotent
  simp only [forM_eq_ok, ite_eq_ok]
  exact forall_mem_zipIdx samples fun a => merge a a = a

/-- Three samples are folded from both ends. -/
theorem assertFoldOrderInvariant_three (a b c : S) :
    assertFoldOrderInvariant [a, b, c] merge = .ok () ↔ merge (merge a b) c = merge (merge c b) a := by
  unfold assertFoldOrderInvariant
  exact ite_eq_ok

/-- A join folds to one state from either end. -/
theorem assertFoldOrderInvariant_of_isJoin (joins : IsJoin merge) :
    assertFoldOrderInvariant samples merge = .ok () := by
  obtain ⟨order, joins⟩ := joins
  obtain rfl : merge = (· ⊔ ·) := by
    funext a b
    exact joins a b
  cases samples with
  | nil => rfl
  | cons first rest =>
    refine ite_eq_ok.mpr (foldl_sup_congr fun value => ?_)
    have parts := List.dropLast_append_getLast (List.cons_ne_nil first rest)
    rw [List.mem_cons (l := (first :: rest).dropLast.reverse), List.mem_reverse, or_comm,
      ← List.mem_singleton, ← List.mem_append, parts]

end Passes

/-- The checks pass on every list of samples if and only if the merge is the join of some order. -/
theorem policy_checks_iff_join {S : Type} [DecidableEq S] (merge : S → S → S) :
    (∀ samples, assertMergeCommutative samples merge = .ok () ∧
      assertMergeIdempotent samples merge = .ok () ∧
      assertFoldOrderInvariant samples merge = .ok ()) ↔ IsJoin merge := by
  constructor
  · intro passes
    refine isJoin_iff.mpr ⟨fun a b => ?_, fun a => ?_, fun a b c => ?_⟩
    · exact assertMergeCommutative_eq_ok.mp (passes [a, b]).1 a (by simp) b (by simp)
    · exact assertMergeIdempotent_eq_ok.mp (passes [a]).2.1 a (by simp)
    · exact (assertFoldOrderInvariant_three a b c).mp (passes [a, b, c]).2.2
  · intro joins samples
    obtain ⟨commutes, repeats, -⟩ := isJoin_iff.mp joins
    refine ⟨?_, ?_, assertFoldOrderInvariant_of_isJoin joins⟩
    · exact assertMergeCommutative_eq_ok.mpr fun a _ b _ => commutes a b
    · exact assertMergeIdempotent_eq_ok.mpr fun a _ => repeats a

end FreenetMigrate.Probe
