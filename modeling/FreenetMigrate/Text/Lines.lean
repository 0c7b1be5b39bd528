import FreenetMigrate.Text.Slice
import FreenetMigrate.Text.Hex
import Mathlib.Data.List.DropRight

namespace FreenetMigrate.Text

/-! Whitespace, lines and segments of a text, as the `str` methods take them. -/

/-- `char::is_whitespace`, the Unicode property. -/
def isWhitespace (c : Char) : Bool :=
  (9 ≤ c.toNat && c.toNat ≤ 13) || (0x2000 ≤ c.toNat && c.toNat ≤ 0x200a) ||
    [0x20, 0x85, 0xa0, 0x1680, 0x2028, 0x2029, 0x202f, 0x205f, 0x3000].contains c.toNat

def trimStart (text : List Char) : List Char := text.dropWhile isWhitespace

def trim (text : List Char) : List Char := (trimStart text).rdropWhile isWhitespace

def withoutReturn (line : List Char) : List Char :=
  if line.getLast? = some '\r' then line.dropLast else line

def linesFrom : List Char → List Char → List (List Char)
  | line, [] => if line.isEmpty then [] else [line]
  | line, c :: rest =>
    if c = '\n' then withoutReturn line :: linesFrom [] rest else linesFrom (line ++ [c]) rest

def lines (text : List Char) : List (List Char) := linesFrom [] text

/-- `str::rsplit(c).next()`: what is behind the last of a character. -/
def lastSegment (c : Char) (text : List Char) : List Char := (text.splitOn c).getLastD []

def utf8 (text : List Char) : Bytes := text.flatMap String.utf8EncodeChar

def Tight (text : List Char) : Prop :=
  (∀ c, text.head? = some c → isWhitespace c = false) ∧
    ∀ c, text.getLast? = some c → isWhitespace c = false

def Blank (text : List Char) : Prop := ∀ c ∈ text, isWhitespace c = true

theorem trimStart_of_tight {text : List Char} (tight : Tight text) : trimStart text = text := by
  unfold trimStart
  cases text with
  | nil => rfl
  | cons c rest => rw [List.dropWhile_cons_of_neg (by simp [tight.1 c rfl])]

theorem trimStart_blank {before : List Char} (blank : Blank before) (text : List Char) :
    trimStart (before ++ text) = trimStart text := List.dropWhile_append_of_pos blank

theorem rdropWhile_blank {after : List Char} (blank : Blank after) (text : List Char) :
    (text ++ after).rdropWhile isWhitespace = text.rdropWhile isWhitespace := by
  induction after using List.reverseRecOn with
  | nil => rw [List.append_nil]
  | append_singleton front c ih =>
    rw [← List.append_assoc, List.rdropWhile_concat_pos _ _ _ (blank c (by simp)), ih]
    exact fun other member => blank other (List.mem_append_left _ member)

theorem rdropWhile_of_tight {text : List Char} (tight : Tight text) :
    text.rdropWhile isWhitespace = text := by
  rw [List.rdropWhile_eq_self_iff]
  intro filled
  rw [tight.2 _ (List.getLast?_eq_some_getLast filled)]
  exact Bool.false_ne_true

theorem trim_blank {before text after : List Char} (start : Blank before) (tight : Tight text)
    (stop : Blank after) (filled : text ≠ []) : trim (before ++ (text ++ after)) = text := by
  have kept : trimStart (text ++ after) = text ++ after := by
    cases text with
    | nil => exact absurd rfl filled
    | cons c rest =>
      exact List.dropWhile_cons_of_neg (by simp [tight.1 c rfl])
  rw [trim, trimStart_blank start, kept, rdropWhile_blank stop, rdropWhile_of_tight tight]

theorem trim_of_tight {text : List Char} (tight : Tight text) : trim text = text := by
  rw [trim, trimStart_of_tight tight, rdropWhile_of_tight tight]

theorem trim_ne_nil {text : List Char} {c : Char} (member : c ∈ text)
    (visible : isWhitespace c = false) : trim text ≠ [] := by
  intro empty
  have blank := List.rdropWhile_eq_nil_iff.mp empty
  cases start : trimStart text with
  | nil =>
    have all := List.dropWhile_eq_nil_iff.mp start c member
    rw [visible] at all
    cases all
  | cons first rest =>
    have filled : text.dropWhile isWhitespace ≠ [] := by
      rw [show text.dropWhile isWhitespace = first :: rest from start]
      simp
    have stopped := List.head_dropWhile_not isWhitespace filled
    rw [blank _ (List.head_mem filled)] at stopped
    cases stopped

theorem linesFrom_line (before : List Char) {line : List Char} (rest : List Char)
    (single : '\n' ∉ line) :
    linesFrom before (line ++ '\n' :: rest) = withoutReturn (before ++ line) :: linesFrom [] rest := by
  induction line generalizing before with
  | nil => simp [linesFrom]
  | cons c line ih =>
    have other : c ≠ '\n' := fun same => single (same ▸ List.mem_cons_self)
    rw [List.cons_append, linesFrom, if_neg other,
      ih _ fun member => single (List.mem_cons_of_mem _ member), List.append_assoc]
    rfl

theorem linesFrom_last (before : List Char) {line : List Char} (single : '\n' ∉ line) :
    linesFrom before line = if (before ++ line).isEmpty then [] else [before ++ line] := by
  induction line generalizing before with
  | nil => rw [List.append_nil, linesFrom]
  | cons c line ih =>
    have other : c ≠ '\n' := fun same => single (same ▸ List.mem_cons_self)
    rw [linesFrom, if_neg other, ih _ fun member => single (List.mem_cons_of_mem _ member),
      List.append_assoc]
    rfl

theorem withoutReturn_of_ne {line : List Char} (plain : line.getLast? ≠ some '\r') :
    withoutReturn line = line := if_neg plain

theorem withoutReturn_return (line : List Char) : withoutReturn (line ++ ['\r']) = line := by
  simp [withoutReturn]

theorem lastSegment_of_not_mem {c : Char} {text : List Char} (absent : c ∉ text) :
    lastSegment c text = text := by
  rw [lastSegment, List.splitOn_eq_singleton absent]
  rfl

theorem lastSegment_append {c : Char} (before : List Char) {text : List Char} (absent : c ∉ text) :
    lastSegment c (before ++ c :: text) = text := by
  rw [lastSegment, List.splitOn_append_cons_self, List.splitOn_eq_singleton absent]
  simp

theorem utf8_of_ascii {text : List Char} (ascii : isAscii text = true) :
    utf8 text = text.map fun c => UInt8.ofNat c.toNat := by
  induction text with
  | nil => rfl
  | cons c rest ih =>
    obtain ⟨first, others⟩ := isAscii_cons.mp ascii
    have one : String.utf8EncodeChar c = [UInt8.ofNat c.toNat] := by
      rw [String.utf8EncodeChar_eq_singleton (utf8Size_of_ascii first)]
      rfl
    have tail : rest.flatMap String.utf8EncodeChar = rest.map fun c => UInt8.ofNat c.toNat := ih others
    rw [utf8, List.flatMap_cons, one, tail]
    rfl

theorem length_utf8 (text : List Char) : (utf8 text).length = len text := by
  induction text with
  | nil => rfl
  | cons c rest ih =>
    have tail : (rest.flatMap String.utf8EncodeChar).length = len rest := ih
    rw [utf8, List.flatMap_cons, List.length_append, tail, String.length_utf8EncodeChar]
    rfl

end FreenetMigrate.Text
