import FreenetMigrate.Bytes.Fixed
import Mathlib.Tactic.IntervalCases

namespace FreenetMigrate.Text

def toDigit16 (c : Char) : Option Nat :=
  if '0' ≤ c ∧ c ≤ '9' then some (c.toNat - 48)
  else if 'a' ≤ c ∧ c ≤ 'f' then some (c.toNat - 87)
  else if 'A' ≤ c ∧ c ≤ 'F' then some (c.toNat - 55)
  else none

inductive ParseIntError
  | empty
  | invalidDigit
  | posOverflow
  deriving DecidableEq

def ParseIntError.display : ParseIntError → String
  | .empty => "cannot parse integer from empty string"
  | .invalidDigit => "invalid digit found in string"
  | .posOverflow => "number too large to fit in target type"

def digitsLoop : Nat → List Char → Except ParseIntError Nat
  | result, [] => .ok result
  | result, c :: rest =>
    match toDigit16 c with
    | none => .error .invalidDigit
    | some digit =>
      if 256 ≤ result * 16 + digit then .error .posOverflow else digitsLoop (result * 16 + digit) rest

/-- `u8::from_str_radix(_, 16)`. A leading plus sign is part of what it reads. -/
def fromStrRadix16 : List Char → Except ParseIntError UInt8
  | [] => .error .empty
  | ['+'] => .error .invalidDigit
  | ['-'] => .error .invalidDigit
  | '+' :: digits => (digitsLoop 0 digits).map UInt8.ofNat
  | digits => (digitsLoop 0 digits).map UInt8.ofNat

def hexByte (byte : UInt8) : List Char :=
  [Nat.digitChar (byte.toNat / 16), Nat.digitChar (byte.toNat % 16)]

def hex (bytes : Bytes) : List Char := bytes.flatMap hexByte

def IsHexDigit (c : Char) : Prop := (toDigit16 c).isSome = true

instance (c : Char) : Decidable (IsHexDigit c) := inferInstanceAs (Decidable (_ = _))

/-- A text spells bytes when, in lower case, it is their digits. -/
def Spells (text : List Char) (bytes : Bytes) : Prop := text.map Char.toLower = hex bytes

theorem char_le_iff (c d : Char) : c ≤ d ↔ c.toNat ≤ d.toNat := by
  rw [Char.le_def, UInt32.le_iff_toNat_le]
  rfl

theorem toDigit16_table : ∀ n < 128, ∀ digit < 16,
    (toDigit16 (Char.ofNat n) = some digit ↔
      (Char.ofNat n).toLower = Nat.digitChar digit) := by decide +kernel

theorem digitChar_lt_128 : ∀ digit < 16, (Nat.digitChar digit).toNat < 128 := by decide

theorem toDigit16_lt {c : Char} {digit : Nat} (read : toDigit16 c = some digit) : digit < 16 := by
  unfold toDigit16 at read
  simp only [char_le_iff, Char.reduceToNat] at read
  split at read
  · cases read
    omega
  · split at read
    · cases read
      omega
    · split at read
      · cases read
        omega
      · cases read

theorem toDigit16_of_large {c : Char} (large : 128 ≤ c.toNat) : toDigit16 c = none := by
  unfold toDigit16
  simp only [char_le_iff, Char.reduceToNat]
  rw [if_neg (by omega), if_neg (by omega), if_neg (by omega)]

theorem toLower_of_large {c : Char} (large : 128 ≤ c.toNat) : c.toLower = c := by
  unfold Char.toLower
  rw [dif_neg]
  rintro ⟨-, below⟩
  have bound : c.toNat ≤ 'Z'.toNat := UInt32.le_iff_toNat_le.mp below
  simp only [Char.reduceToNat] at bound
  omega

theorem toDigit16_eq_some {c : Char} {digit : Nat} :
    toDigit16 c = some digit ↔ digit < 16 ∧ c.toLower = Nat.digitChar digit := by
  by_cases small : c.toNat < 128
  · have table := toDigit16_table c.toNat small
    rw [Char.ofNat_toNat] at table
    constructor
    · intro read
      have bound := toDigit16_lt read
      exact ⟨bound, (table digit bound).mp read⟩
    · rintro ⟨bound, lower⟩
      exact (table digit bound).mpr lower
  · have large : 128 ≤ c.toNat := by omega
    rw [toDigit16_of_large large, toLower_of_large large]
    simp only [reduceCtorEq, false_iff, not_and]
    rintro bound rfl
    have low := digitChar_lt_128 digit bound
    omega

theorem spells_cons {hi lo : Char} {rest : List Char} {byte : UInt8} {bytes : Bytes} :
    Spells (hi :: lo :: rest) (byte :: bytes) ↔
      toDigit16 hi = some (byte.toNat / 16) ∧ toDigit16 lo = some (byte.toNat % 16) ∧
        Spells rest bytes := by
  have bound := byte.toNat_lt
  unfold Spells hex
  rw [toDigit16_eq_some, toDigit16_eq_some, List.flatMap_cons, hexByte]
  simp only [List.map_cons, List.cons_append, List.nil_append, List.cons.injEq]
  constructor
  · rintro ⟨high, low, others⟩
    exact ⟨⟨by omega, high⟩, ⟨by omega, low⟩, others⟩
  · rintro ⟨⟨-, high⟩, ⟨-, low⟩, others⟩
    exact ⟨high, low, others⟩

theorem spells_nil {text : List Char} : Spells text [] ↔ text = [] := by simp [Spells, hex]

theorem spells_hex (bytes : Bytes) : Spells (hex bytes) bytes := by
  have lower : ∀ digit < 16, (Nat.digitChar digit).toLower = Nat.digitChar digit := by decide
  unfold Spells hex
  induction bytes with
  | nil => rfl
  | cons byte rest ih =>
    have bound := byte.toNat_lt
    have pair : (hexByte byte).map Char.toLower = hexByte byte := by
      rw [hexByte, List.map_cons, List.map_singleton, lower _ (by omega),
        lower _ (Nat.mod_lt _ (by decide))]
    rw [List.flatMap_cons, List.map_append, ih, pair]

theorem Spells.length_eq {text : List Char} {bytes : Bytes} (spells : Spells text bytes) :
    text.length = 2 * bytes.length := by
  have lengths := congrArg List.length spells
  simp only [List.length_map, hex, List.length_flatMap, hexByte, List.length_cons, List.length_nil,
    List.map_const', List.sum_replicate_nat] at lengths
  omega

/-- What two texts spell is the same only where they differ in case alone. -/
theorem Spells.lower_eq {text other : List Char} {bytes : Bytes} (spells : Spells text bytes)
    (others : Spells other bytes) : text.map Char.toLower = other.map Char.toLower :=
  spells.trans others.symm

theorem Spells.unique {text : List Char} {bytes others : Bytes} (spells : Spells text bytes)
    (also : Spells text others) : bytes = others := by
  induction bytes generalizing text others with
  | nil =>
    have length := also.length_eq
    rw [spells_nil.mp spells] at length
    exact (List.eq_nil_of_length_eq_zero (by simpa using length.symm)).symm
  | cons byte rest ih =>
    have length := spells.length_eq.symm.trans also.length_eq
    match others, text with
    | [], _ => simp at length
    | other :: more, [] => simp [Spells, hex, hexByte] at spells
    | other :: more, [_] => simp [Spells, hex, hexByte] at spells
    | other :: more, hi :: lo :: tail =>
      obtain ⟨high, low, others⟩ := spells_cons.mp spells
      obtain ⟨high', low', others'⟩ := spells_cons.mp also
      rw [high, Option.some.injEq] at high'
      rw [low, Option.some.injEq] at low'
      have same : byte = other := by
        apply UInt8.toNat_inj.mp
        omega
      rw [same, ih others others']

/-- An even number of hex digits, of either case. -/
def HexText (text : List Char) : Prop := text.length % 2 = 0 ∧ ∀ c ∈ text, IsHexDigit c

instance (text : List Char) : Decidable (HexText text) :=
  decidable_of_iff (text.length % 2 = 0 ∧ (text.all fun c => (toDigit16 c).isSome) = true)
    (and_congr_right fun _ => List.all_eq_true)

theorem hexText_cons {hi lo : Char} {rest : List Char} :
    HexText (hi :: lo :: rest) ↔ IsHexDigit hi ∧ IsHexDigit lo ∧ HexText rest := by
  have length : (hi :: lo :: rest).length % 2 = rest.length % 2 := by
    simp only [List.length_cons]
    omega
  unfold HexText
  rw [length, List.forall_mem_cons, List.forall_mem_cons]
  tauto

theorem spells_of_digits {hi lo : Char} {rest : List Char} {bytes : Bytes} {high low : Nat}
    (first : toDigit16 hi = some high) (second : toDigit16 lo = some low) (others : Spells rest bytes) :
    Spells (hi :: lo :: rest) (UInt8.ofNat (high * 16 + low) :: bytes) := by
  have above := toDigit16_lt first
  have below := toDigit16_lt second
  have value : (UInt8.ofNat (high * 16 + low)).toNat = high * 16 + low :=
    UInt8.toNat_ofNat_of_lt (by change _ < 256; omega)
  refine spells_cons.mpr ⟨?_, ?_, others⟩
  · rw [first, value]
    congr 1
    omega
  · rw [second, value]
    congr 1
    omega

theorem hexText_iff (text : List Char) : HexText text ↔ ∃ bytes, Spells text bytes := by
  match text with
  | [] => exact ⟨fun _ => ⟨[], rfl⟩, fun _ => ⟨rfl, by simp⟩⟩
  | [c] =>
    constructor
    · intro digits
      exact absurd digits.1 (by simp)
    · rintro ⟨bytes, spells⟩
      have length := spells.length_eq
      simp only [List.length_singleton] at length
      omega
  | hi :: lo :: rest =>
    rw [hexText_cons, hexText_iff rest]
    constructor
    · rintro ⟨first, second, bytes, others⟩
      obtain ⟨high, readHigh⟩ := Option.isSome_iff_exists.mp first
      obtain ⟨low, readLow⟩ := Option.isSome_iff_exists.mp second
      exact ⟨_, spells_of_digits readHigh readLow others⟩
    · rintro ⟨bytes, spells⟩
      cases bytes with
      | nil => simp [Spells, hex] at spells
      | cons byte others =>
        obtain ⟨high, low, tail⟩ := spells_cons.mp spells
        exact ⟨by rw [IsHexDigit, high]; rfl, by rw [IsHexDigit, low]; rfl, others, tail⟩

/-! What the integer parser makes of two characters. -/

def unsigned (c : Char) : Char := if c = '+' then '0' else c

/-- The text with the plus signs at the front of its pairs taken for zeros. -/
def unsign : List Char → List Char
  | hi :: lo :: rest => unsigned hi :: lo :: unsign rest
  | short => short

theorem digitsLoop_pair (hi lo : Char) :
    (digitsLoop 0 [hi, lo]).map UInt8.ofNat = match toDigit16 hi, toDigit16 lo with
      | some high, some low => .ok (UInt8.ofNat (high * 16 + low))
      | _, _ => .error .invalidDigit := by
  cases first : toDigit16 hi with
  | none => simp [digitsLoop, first, Except.map]
  | some high =>
    have above := toDigit16_lt first
    cases second : toDigit16 lo with
    | none => simp [digitsLoop, first, second, Except.map, show ¬ 256 ≤ high by omega]
    | some low =>
      have below := toDigit16_lt second
      simp [digitsLoop, first, second, Except.map, show ¬ 256 ≤ high by omega,
        show ¬ 256 ≤ high * 16 + low by omega]

theorem fromStrRadix16_pair (hi lo : Char) :
    fromStrRadix16 [hi, lo] = match toDigit16 (unsigned hi), toDigit16 lo with
      | some high, some low => .ok (UInt8.ofNat (high * 16 + low))
      | _, _ => .error .invalidDigit := by
  by_cases plus : hi = '+'
  · subst plus
    have zero : toDigit16 (unsigned '+') = some 0 := by decide
    rw [zero]
    cases second : toDigit16 lo with
    | none => simp [fromStrRadix16, digitsLoop, second, Except.map]
    | some low =>
      have below := toDigit16_lt second
      simp [fromStrRadix16, digitsLoop, second, Except.map, show ¬ 256 ≤ low by omega]
  · rw [unsigned, if_neg plus, ← digitsLoop_pair]
    unfold fromStrRadix16
    split
    · rename_i same
      cases same
    · rename_i same
      cases same
    · rename_i same
      cases same
    · rename_i same
      exact absurd (List.cons.inj same).1 plus
    · rfl

theorem length_unsign (text : List Char) : (unsign text).length = text.length := by
  match text with
  | [] => rfl
  | [c] => rfl
  | hi :: lo :: rest => simp [unsign, length_unsign rest]

theorem unsign_of_hexText {text : List Char} (digits : ∀ c ∈ text, IsHexDigit c) :
    unsign text = text := by
  match text with
  | [] => rfl
  | [c] => rfl
  | hi :: lo :: rest =>
    have other : hi ≠ '+' := by
      rintro rfl
      exact absurd (digits '+' (List.mem_cons_self ..)) (by decide)
    have tail : unsign rest = rest := unsign_of_hexText fun c member =>
      digits c (List.mem_cons_of_mem _ (List.mem_cons_of_mem _ member))
    rw [unsign, tail, unsigned, if_neg other]

end FreenetMigrate.Text
