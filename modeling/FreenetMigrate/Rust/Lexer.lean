import FreenetMigrate.Text.Hex

namespace FreenetMigrate.Rust

open Text

/-! The lexical rules of Rust, one character at a time, for identifiers, decimal integers, strings,
    punctuation and line comments. Whatever else may stand in a program is refused. -/

/-- The identifier characters outside ASCII, which Unicode lists. -/
class Xid where
  start : Char → Bool
  continues : Char → Bool

inductive Token
  | ident (name : List Char)
  | int (value : Nat) (suffix : List Char)
  | str (content : List Char)
  | punct (c : Char)
  | comment (text : List Char)
  deriving DecidableEq

abbrev word (name : String) : Token := .ident name.toList

abbrev mark (c : Char) : Token := .punct c

inductive Mode
  | ready
  | word (name : List Char)
  | number (value : Nat)
  | suffix (value : Nat) (suffix : List Char)
  | str (content : List Char)
  | escape (content : List Char)
  | byteHigh (content : List Char)
  | byteLow (content : List Char) (high : Nat)
  | brace (content : List Char)
  | scalar (content : List Char) (value digits : Nat)
  | blank (content : List Char)
  | quoted (content : List Char)
  | slash
  | comment (text : List Char)
  deriving DecidableEq

def isWhitespace (c : Char) : Bool :=
  [0x9, 0xa, 0xb, 0xc, 0xd, 0x20, 0x85, 0x200e, 0x200f, 0x2028, 0x2029].contains c.toNat

def PUNCTUATION : List Char := "!#$%&()*+,-.:;<=>?@[]^\x7b|\x7d~".toList

def INTEGER_SUFFIXES : List (List Char) :=
  ["u8", "u16", "u32", "u64", "u128", "usize", "i8", "i16", "i32", "i64", "i128", "isize"].map
    String.toList

/-- A comment that is an attribute of what follows it. -/
def isDoc : List Char → Bool
  | '/' :: '/' :: _ => false
  | '/' :: _ => true
  | '!' :: _ => true
  | _ => false

section Steps

variable [Xid]

def isStart (c : Char) : Bool :=
  if c.toNat < 128 then c.isAlpha || c == '_' else Xid.start c && !isWhitespace c

def isContinue (c : Char) : Bool :=
  if c.toNat < 128 then c.isAlphanum || c == '_' else Xid.continues c

def stepReady (c : Char) : Option (List Token × Mode) :=
  if isWhitespace c then some ([], .ready)
  else if isStart c then some ([], .word [c])
  else if c.isDigit then some ([], .number (c.toNat - 48))
  else if c = '"' then some ([], .str [])
  else if c = '/' then some ([], .slash)
  else if c ∈ PUNCTUATION then some ([.punct c], .ready)
  else none

def emit (token : Token) (c : Char) : Option (List Token × Mode) :=
  (stepReady c).map fun (tokens, mode) => (token :: tokens, mode)

def stepStr (content : List Char) (c : Char) : Option (List Token × Mode) :=
  if c = '"' then some ([], .quoted content)
  else if c = '\\' then some ([], .escape content)
  else if c = '\r' then none
  else some ([], .str (content ++ [c]))

def stepEscape (content : List Char) (c : Char) : Option (List Token × Mode) :=
  match c with
  | 'n' => some ([], .str (content ++ ['\n']))
  | 'r' => some ([], .str (content ++ ['\r']))
  | 't' => some ([], .str (content ++ ['\t']))
  | '0' => some ([], .str (content ++ ['\x00']))
  | '\\' => some ([], .str (content ++ ['\\']))
  | '\'' => some ([], .str (content ++ ['\'']))
  | '"' => some ([], .str (content ++ ['"']))
  | 'x' => some ([], .byteHigh content)
  | 'u' => some ([], .brace content)
  | '\n' => some ([], .blank content)
  | _ => none

def stepScalar (content : List Char) (value digits : Nat) (c : Char) : Option (List Token × Mode) :=
  if c.toNat = 0x7d then
    if 0 < digits ∧ value.isValidChar then some ([], .str (content ++ [Char.ofNat value])) else none
  else if c = '_' ∧ 0 < digits then some ([], .scalar content value digits)
  else if digits < 6 then
    (toDigit16 c).map fun digit => ([], .scalar content (value * 16 + digit) (digits + 1))
  else none

def step (mode : Mode) (c : Char) : Option (List Token × Mode) :=
  match mode with
  | .ready => stepReady c
  | .word name =>
    if isContinue c then some ([], .word (name ++ [c]))
    else if c = '"' ∨ c = '\'' ∨ c = '#' then none
    else emit (.ident name) c
  | .number value =>
    if c.isDigit then some ([], .number (value * 10 + (c.toNat - 48)))
    else if c = '_' then some ([], .number value)
    else if isStart c then some ([], .suffix value [c])
    else if c = '.' then none
    else emit (.int value []) c
  | .suffix value suffix =>
    if isContinue c then some ([], .suffix value (suffix ++ [c]))
    else if suffix ∈ INTEGER_SUFFIXES then emit (.int value suffix) c
    else none
  | .str content => stepStr content c
  | .escape content => stepEscape content c
  | .byteHigh content =>
    match toDigit16 c with
    | some high => if high < 8 then some ([], .byteLow content high) else none
    | none => none
  | .byteLow content high =>
    (toDigit16 c).map fun low => ([], .str (content ++ [Char.ofNat (high * 16 + low)]))
  | .brace content => if c.toNat = 0x7b then some ([], .scalar content 0 0) else none
  | .scalar content value digits => stepScalar content value digits c
  | .blank content =>
    if c = ' ' ∨ c = '\t' ∨ c = '\n' ∨ c = '\r' then some ([], .blank content)
    else stepStr content c
  | .quoted content => if isStart c then none else emit (.str content) c
  | .slash =>
    if c = '/' then some ([], .comment [])
    else if c = '*' then none
    else emit (.punct '/') c
  | .comment text =>
    if c = '\n' then if isDoc text then none else some ([.comment text], .ready)
    else some ([], .comment (text ++ [c]))

def finish : Mode → Option (List Token)
  | .ready => some []
  | .word name => some [.ident name]
  | .number value => some [.int value []]
  | .suffix value suffix => if suffix ∈ INTEGER_SUFFIXES then some [.int value suffix] else none
  | .quoted content => some [.str content]
  | .slash => some [.punct '/']
  | .comment text => if isDoc text then none else some [.comment text]
  | _ => none

def run : Mode → List Char → Option (List Token × Mode)
  | mode, [] => some ([], mode)
  | mode, c :: rest => do
    let (tokens, behind) ← step mode c
    let (others, last) ← run behind rest
    return (tokens ++ others, last)

def normalizeCrlf : List Char → List Char
  | '\r' :: '\n' :: rest => '\n' :: normalizeCrlf rest
  | c :: rest => c :: normalizeCrlf rest
  | [] => []

def lex (text : List Char) : Option (List Token) := do
  let (tokens, mode) ← run .ready (normalizeCrlf text)
  let last ← finish mode
  return tokens ++ last

/-- A piece of a program, without carriage returns, and its tokens from one mode to another. -/
structure Lexes (mode : Mode) (text : List Char) (tokens : List Token) (last : Mode) : Prop where
  plain : '\r' ∉ text
  runs : run mode text = some (tokens, last)

theorem run_cons {mode last : Mode} {c : Char} {rest : List Char} {tokens : List Token} :
    run mode (c :: rest) = some (tokens, last) ↔ ∃ here between later,
      step mode c = some (here, between) ∧ run between rest = some (later, last) ∧
        tokens = here ++ later := by
  rw [run]
  simp only [Option.bind_eq_bind, Option.bind_eq_some_iff, Option.pure_def, Option.some.injEq,
    Prod.mk.injEq, Prod.exists]
  constructor
  · rintro ⟨here, between, stepped, later, _, ran, rfl, rfl⟩
    exact ⟨here, between, later, stepped, ran, rfl⟩
  · rintro ⟨here, between, later, stepped, ran, rfl⟩
    exact ⟨here, between, stepped, later, last, ran, rfl, rfl⟩

theorem run_append {mode behind last : Mode} {front back : List Char} {tokens others : List Token}
    (first : run mode front = some (tokens, behind)) (second : run behind back = some (others, last)) :
    run mode (front ++ back) = some (tokens ++ others, last) := by
  induction front generalizing mode tokens with
  | nil =>
    cases first
    exact second
  | cons c rest ih =>
    obtain ⟨here, between, later, stepped, ran, rfl⟩ := run_cons.mp first
    rw [List.append_assoc]
    exact run_cons.mpr ⟨here, between, later ++ others, stepped, ih ran, rfl⟩

namespace Lexes

theorem nil (mode : Mode) : Lexes mode [] [] mode := ⟨List.not_mem_nil, rfl⟩

theorem append {mode behind last : Mode} {front back : List Char} {tokens others : List Token}
    (first : Lexes mode front tokens behind) (second : Lexes behind back others last) :
    Lexes mode (front ++ back) (tokens ++ others) last := by
  refine ⟨?_, run_append first.runs second.runs⟩
  rw [List.mem_append]
  exact fun either => either.elim first.plain second.plain

theorem flatMap {α : Type} {mode : Mode} {text : α → List Char} {tokens : α → List Token}
    {items : List α} (each : ∀ item ∈ items, Lexes mode (text item) (tokens item) mode) :
    Lexes mode (items.flatMap text) (items.flatMap tokens) mode := by
  induction items with
  | nil => exact nil mode
  | cons item rest ih =>
    obtain ⟨first, others⟩ := List.forall_mem_cons.mp each
    rw [List.flatMap_cons, List.flatMap_cons]
    exact first.append (ih others)

theorem keeping {keep : List Char → Mode} {text : List Char} (plain : '\r' ∉ text)
    (kept : ∀ c ∈ text, ∀ before, step (keep before) c = some ([], keep (before ++ [c])))
    (before : List Char) : Lexes (keep before) text [] (keep (before ++ text)) := by
  refine ⟨plain, ?_⟩
  clear plain
  induction text generalizing before with
  | nil => rw [List.append_nil, run]
  | cons c rest ih =>
    obtain ⟨first, others⟩ := List.forall_mem_cons.mp kept
    have later := ih others (before ++ [c])
    rw [List.append_assoc] at later
    exact run_cons.mpr ⟨[], _, [], first before, later, rfl⟩

theorem lex_eq {text : List Char} {tokens : List Token} (lexes : Lexes .ready text tokens .ready) :
    lex text = some tokens := by
  have same {rest : List Char} (plain : '\r' ∉ rest) : normalizeCrlf rest = rest := by
    induction rest with
    | nil => rfl
    | cons c rest ih =>
      rw [List.mem_cons, not_or] at plain
      rw [normalizeCrlf, ih plain.2]
      rintro rest' rfl
      exact absurd rfl plain.1
  unfold lex
  rw [same lexes.plain, lexes.runs]
  simp [finish]

end Lexes

def IsIdent (name : List Char) : Prop :=
  ∃ c rest, name = c :: rest ∧ isStart c = true ∧ ∀ d ∈ rest, isContinue d = true

theorem step_ready_start {c : Char} (start : isStart c = true) :
    step .ready c = some ([], .word [c]) := by
  have blank : isWhitespace c = false := by
    unfold isStart at start
    split at start
    · rename_i small
      have table : ∀ n < 128, ((Char.ofNat n).isAlpha || Char.ofNat n == '_') = true →
          isWhitespace (Char.ofNat n) = false := by decide
      have here := table c.toNat small
      rw [Char.ofNat_toNat] at here
      exact here start
    · rw [Bool.and_eq_true, Bool.not_eq_true'] at start
      exact start.2
  rw [step, stepReady, blank, start]
  rfl

theorem isContinue_ne {c : Char} (continues : isContinue c = true) : c ≠ '\r' := by
  rintro rfl
  cases continues

theorem isStart_ne {c : Char} (start : isStart c = true) : c ≠ '\r' := by
  rintro rfl
  cases start

theorem Lexes.ident {name : List Char} (ident : IsIdent name) :
    Lexes .ready name [] (.word name) := by
  obtain ⟨c, rest, rfl, start, continues⟩ := ident
  have first : Lexes .ready [c] [] (.word [c]) := by
    refine ⟨by simpa using (isStart_ne start).symm, ?_⟩
    exact run_cons.mpr ⟨[], _, [], step_ready_start start, rfl, rfl⟩
  have others : Lexes (.word [c]) rest [] (.word ([c] ++ rest)) := by
    apply keeping
    · exact fun member => isContinue_ne (continues _ member) rfl
    · intro d member before
      rw [step, if_pos (continues d member)]
  exact first.append others

theorem Lexes.commented {text : List Char} (line : '\n' ∉ text) (plain : '\r' ∉ text)
    (ordinary : isDoc text = false) :
    Lexes .ready ('/' :: '/' :: text ++ ['\n']) [.comment text] .ready := by
  have opened : Lexes .ready ['/', '/'] [] (.comment []) := ⟨by decide, rfl⟩
  have kept : Lexes (.comment []) text [] (.comment ([] ++ text)) := by
    apply keeping plain
    intro c member before
    rw [step, if_neg (ne_of_mem_of_not_mem member line)]
  have closed : Lexes (.comment text) ['\n'] [.comment text] .ready := by
    refine ⟨by decide, run_cons.mpr ⟨[.comment text], _, [], ?_, rfl, rfl⟩⟩
    rw [step, if_pos rfl, ordinary]
    rfl
  exact (opened.append kept).append closed

/-- The decimal digits of a number, behind something that is not one. -/
theorem Lexes.number (n : Nat) : Lexes .ready (Nat.toDigits 10 n) [] (.number n) := by
  induction n using Nat.strongRecOn with
  | ind n ih =>
    by_cases short : n < 10
    · rw [Nat.toDigits_of_lt_base short]
      interval_cases n <;> exact ⟨by decide, rfl⟩
    · rw [Nat.toDigits_of_base_le (by decide) (by omega)]
      have digit : ∀ d < 10,
          Lexes (.number (n / 10)) [Nat.digitChar d] [] (.number (n / 10 * 10 + d)) := by
        intro d bound
        interval_cases d <;> exact ⟨by decide, rfl⟩
      have last := digit (n % 10) (Nat.mod_lt n (by decide))
      rw [Nat.div_add_mod' n 10] at last
      exact (ih (n / 10) (by omega)).append last

end Steps
end FreenetMigrate.Rust
