import FreenetMigrate.Rust.Lexer

namespace FreenetMigrate.Rust

theorem intercalate_append {segments : List (List Char)} (nonempty : segments ≠ [])
    (separator : List Char) : separator.intercalate segments ++ separator =
      segments.flatMap fun segment => segment ++ separator := by
  induction segments with
  | nil => exact absurd rfl nonempty
  | cons segment rest ih =>
    by_cases last : rest = []
    · simp [last]
    · rw [List.intercalate_cons_of_ne_nil last, List.append_assoc, ih last, List.flatMap_cons]

variable [Xid]

structure Path where
  rooted : Bool
  segments : List (List Char)
  nonempty : segments ≠ []
  idents : ∀ segment ∈ segments, IsIdent segment

namespace Path

def SEPARATOR : List Token := [.punct ':', .punct ':']

def root {α : Type} (path : Path) (separator : List α) : List α :=
  if path.rooted then separator else []

def text (path : Path) : List Char :=
  path.root "::".toList ++ "::".toList.intercalate path.segments

def item (path : Path) (name : List Char) : List Token :=
  path.root SEPARATOR ++ (path.segments.flatMap fun segment => .ident segment :: SEPARATOR) ++
    [.ident name]

theorem lexes (path : Path) {name : List Char} (ident : IsIdent name) :
    ∃ tokens, path.item name = tokens ++ [.ident name] ∧
      Lexes .ready (path.text ++ "::".toList ++ name) tokens (.word name) := by
  refine ⟨_, rfl, ?_⟩
  have root : Lexes .ready (path.root "::".toList) (path.root SEPARATOR) .ready := by
    unfold Path.root
    cases path.rooted with
    | false => exact .nil _
    | true => exact ⟨by decide, rfl⟩
  have segments : Lexes .ready (path.segments.flatMap fun segment => segment ++ "::".toList)
      (path.segments.flatMap fun segment => .ident segment :: SEPARATOR) .ready := by
    apply Lexes.flatMap
    intro segment member
    have separator : Lexes (.word segment) "::".toList (.ident segment :: SEPARATOR) .ready :=
      ⟨by decide, rfl⟩
    exact (Lexes.ident (path.idents segment member)).append separator
  have below := (root.append segments).append (Lexes.ident ident)
  rw [text, List.append_assoc (path.root _), intercalate_append path.nonempty]
  rwa [List.append_nil] at below

theorem punct_not_mem (path : Path) (name : List Char) {c : Char} (other : c ≠ ':') :
    Token.punct c ∉ path.item name := by
  intro member
  simp only [item, root, SEPARATOR, List.mem_append, List.mem_flatMap, List.mem_cons, reduceCtorEq,
    List.not_mem_nil, or_false, Token.punct.injEq, other, and_false, exists_false] at member
  split at member <;> simp [other] at member

theorem item_eq_cons (path : Path) (name : List Char) :
    ∃ token rest, path.item name = token :: rest := by
  apply List.exists_cons_of_ne_nil
  simp [item]

theorem getLast_item (path : Path) (name : List Char) :
    (path.item name).getLast? = some (.ident name) := by
  rw [item, List.getLast?_concat]

end Path
end FreenetMigrate.Rust
