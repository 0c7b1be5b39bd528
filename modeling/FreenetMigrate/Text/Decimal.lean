import FreenetMigrate.Text.Hex

namespace FreenetMigrate.Text

/-! `u32::from_str`. -/

def toDigit10 (c : Char) : Option Nat :=
  if '0' ≤ c ∧ c ≤ '9' then some (c.toNat - 48) else none

def decimalLoop : Nat → List Char → Except ParseIntError Nat
  | result, [] => .ok result
  | result, c :: rest =>
    match toDigit10 c with
    | none => .error .invalidDigit
    | some digit =>
      if 4294967296 ≤ 10 * result + digit then .error .posOverflow
      else decimalLoop (10 * result + digit) rest

/-- One plus sign is taken, a minus sign is not. -/
def u32FromStr : List Char → Except ParseIntError UInt32
  | [] => .error .empty
  | ['+'] => .error .invalidDigit
  | ['-'] => .error .invalidDigit
  | '+' :: digits => (decimalLoop 0 digits).map UInt32.ofNat
  | digits => (decimalLoop 0 digits).map UInt32.ofNat

def Digits (text : List Char) : Prop := ∀ c ∈ text, c.isDigit = true

theorem isDigit_iff (c : Char) : c.isDigit = true ↔ '0' ≤ c ∧ c ≤ '9' := by
  rw [char_le_iff, char_le_iff, Char.isDigit_iff_toNat]

theorem toDigit10_eq (c : Char) :
    toDigit10 c = if c.isDigit = true then some (c.toNat - 48) else none := by
  unfold toDigit10
  simp only [isDigit_iff]

theorem ofDigitChars_ge (value : Nat) (digits : List Char) :
    value ≤ Nat.ofDigitChars 10 digits value := by
  rw [Nat.ofDigitChars_eq_ofDigitChars_zero]
  have scale : value ≤ 10 ^ digits.length * value := Nat.le_mul_of_pos_left _ (by positivity)
  omega

theorem decimalLoop_eq_ok {value result : Nat} {text : List Char} (small : value < 4294967296) :
    decimalLoop value text = .ok result ↔
      Digits text ∧ Nat.ofDigitChars 10 text value = result ∧ result < 4294967296 := by
  induction text generalizing value with
  | nil =>
    simp only [decimalLoop, Except.ok.injEq, Digits, Nat.ofDigitChars_nil]
    constructor
    · rintro rfl
      exact ⟨by simp, rfl, small⟩
    · rintro ⟨-, rfl, -⟩
      rfl
  | cons c rest ih =>
    rw [decimalLoop, toDigit10_eq]
    by_cases digit : c.isDigit = true
    · simp only [digit, if_true]
      have digits : Digits (c :: rest) ↔ Digits rest := by simp [Digits, digit]
      have next : Nat.ofDigitChars 10 (c :: rest) value =
          Nat.ofDigitChars 10 rest (10 * value + (c.toNat - 48)) := Nat.ofDigitChars_cons
      rw [digits, next]
      split
      · rename_i overflow
        have above := ofDigitChars_ge (10 * value + (c.toNat - 48)) rest
        simp only [reduceCtorEq, false_iff, not_and]
        omega
      · exact ih (by omega)
    · simp only [digit, Bool.false_eq_true, if_false, reduceCtorEq, false_iff, not_and]
      intro digits
      exact absurd (digits c List.mem_cons_self) digit

theorem map_ofNat_eq_ok {value : Except ParseIntError Nat} {number : UInt32}
    (bound : ∀ result, value = .ok result → result < 4294967296) :
    value.map UInt32.ofNat = .ok number ↔ value = .ok number.toNat := by
  cases value with
  | error e => simp [Except.map]
  | ok result =>
    have small := bound result rfl
    simp only [Except.map, Except.ok.injEq]
    constructor
    · rintro rfl
      exact (UInt32.toNat_ofNat_of_lt' small).symm
    · rintro rfl
      exact UInt32.ofNat_toNat

theorem decimal_eq_ok {text : List Char} {number : UInt32} :
    (decimalLoop 0 text).map UInt32.ofNat = .ok number ↔
      Digits text ∧ Nat.ofDigitChars 10 text 0 = number.toNat := by
  rw [map_ofNat_eq_ok fun result read => ((decimalLoop_eq_ok (by decide)).mp read).2.2,
    decimalLoop_eq_ok (by decide)]
  have bound : number.toNat < 4294967296 := number.toNat_lt
  simp [bound]

/-- A text is a number exactly when it is digits, behind at most one plus sign, whose value fits. -/
theorem u32FromStr_eq_ok {text : List Char} {number : UInt32} :
    u32FromStr text = .ok number ↔ ∃ digits, (text = digits ∨ text = '+' :: digits) ∧
      digits ≠ [] ∧ Digits digits ∧ Nat.ofDigitChars 10 digits 0 = number.toNat := by
  have sign (c : Char) (digits : List Char) (all : Digits (c :: digits)) (other : c.isDigit = false) :
      False := by
    have digit := all c List.mem_cons_self
    rw [other] at digit
    cases digit
  unfold u32FromStr
  split
  · simp
  · simp only [reduceCtorEq, false_iff]
    rintro ⟨digits, rfl | same, filled, all, -⟩
    · exact sign '+' [] all rfl
    · cases same
      exact filled rfl
  · simp only [reduceCtorEq, false_iff]
    rintro ⟨digits, rfl | same, -, all, -⟩
    · exact sign '-' [] all rfl
    · cases same
  · rename_i digits unsigned
    rw [decimal_eq_ok]
    constructor
    · rintro ⟨all, value⟩
      exact ⟨digits, .inr rfl, fun empty => unsigned (by rw [empty]), all, value⟩
    · rintro ⟨others, rfl | same, -, all, value⟩
      · exact (sign '+' digits all rfl).elim
      · cases same
        exact ⟨all, value⟩
  · rename_i empty plus minus signed
    rw [decimal_eq_ok]
    constructor
    · rintro ⟨all, value⟩
      exact ⟨text, .inl rfl, empty, all, value⟩
    · rintro ⟨digits, rfl | same, -, all, value⟩
      · exact ⟨all, value⟩
      · exact absurd same (signed digits)

@[simp] theorem u32FromStr_toDigits (number : UInt32) :
    u32FromStr (Nat.toDigits 10 number.toNat) = .ok number :=
  u32FromStr_eq_ok.mpr ⟨_, .inl rfl, Nat.toDigits_ne_nil,
    fun _ member => Nat.isDigit_of_mem_toDigits (by decide) (by decide) member,
    Nat.ofDigitChars_ten_toDigits⟩

end FreenetMigrate.Text
