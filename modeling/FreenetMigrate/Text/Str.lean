import Mathlib.Data.List.TakeWhile
import Mathlib.Data.List.Infix

namespace FreenetMigrate.Text

/-! Strings as their characters, and the `str` methods in use. -/

def startsWith (text start : String) : Bool := start.toList.isPrefixOf text.toList

/-- `str::split_once`: what is before and what is behind the first of a character. -/
def splitOnce (text : String) (c : Char) : Option (String × String) :=
  match text.toList.dropWhile (· != c) with
  | [] => none
  | _ :: behind => some (.ofList (text.toList.takeWhile (· != c)), .ofList behind)

theorem startsWith_iff {text start : String} :
    startsWith text start = true ↔ start.toList <+: text.toList := List.isPrefixOf_iff_prefix

theorem startsWith_append_left {start text : String} (more : String)
    (starts : startsWith text start = true) : startsWith (text ++ more) start = true := by
  rw [startsWith_iff, String.toList_append]
  exact (startsWith_iff.mp starts).trans (List.prefix_append _ _)

theorem splitOnce_eq_none {text : String} {c : Char} :
    splitOnce text c = none ↔ c ∉ text.toList := by
  unfold splitOnce
  cases rest : text.toList.dropWhile (· != c) with
  | nil =>
    have all := List.dropWhile_eq_nil_iff.mp rest
    simp only [true_iff]
    intro member
    have other := all c member
    simp at other
  | cons first behind =>
    simp only [reduceCtorEq, false_iff, not_not]
    have filled : text.toList.dropWhile (· != c) ≠ [] := by simp [rest]
    have met := List.head_dropWhile_not (· != c) filled
    simp only [rest, List.head_cons, bne_eq_false_iff_eq] at met
    have member : first ∈ text.toList :=
      (List.dropWhile_sublist _).subset (rest ▸ List.mem_cons_self)
    exact met ▸ member

theorem splitOnce_eq_some {text before behind : String} {c : Char} :
    splitOnce text c = some (before, behind) ↔
      text.toList = before.toList ++ c :: behind.toList ∧ c ∉ before.toList := by
  constructor
  · intro split
    unfold splitOnce at split
    have parts := List.takeWhile_append_dropWhile (p := (· != c)) (l := text.toList)
    cases rest : text.toList.dropWhile (· != c) with
    | nil =>
      rw [rest] at split
      cases split
    | cons first last =>
      have filled : text.toList.dropWhile (· != c) ≠ [] := by simp [rest]
      have met := List.head_dropWhile_not (· != c) filled
      simp only [rest, List.head_cons, bne_eq_false_iff_eq] at met
      obtain rfl := met
      rw [rest] at split parts
      cases split
      refine ⟨?_, ?_⟩
      · rw [String.toList_ofList, String.toList_ofList]
        exact parts.symm
      · rw [String.toList_ofList]
        intro member
        have other := List.mem_takeWhile_imp member
        simp at other
  · rintro ⟨whole, absent⟩
    have apart : ∀ other ∈ before.toList, (other != c) = true := by
      intro other member
      exact bne_iff_ne.mpr fun same => absent (same ▸ member)
    unfold splitOnce
    rw [whole, List.dropWhile_append_of_pos apart, List.takeWhile_append_of_pos apart]
    simp

end FreenetMigrate.Text
