import Mathlib.Data.Nat.Digits.Lemmas

namespace FreenetMigrate.Digits

/-! Digit strings, most significant digit first, from one base to another. Leading zeros carry no
    value and are kept one for one. -/

def leadingZeros (digits : List Nat) : Nat := (digits.takeWhile (· == 0)).length

def rebase (b c : Nat) (digits : List Nat) : List Nat :=
  List.replicate (leadingZeros digits) 0 ++ (Nat.digits c (Nat.ofDigits b digits.reverse)).reverse

def Leading (digits : List Nat) : Prop := ∀ first, digits.head? = some first → first ≠ 0

theorem leadingZeros_append {digits : List Nat} (zeros : Nat) (leading : Leading digits) :
    leadingZeros (List.replicate zeros 0 ++ digits) = zeros := by
  have zero : ∀ digit ∈ List.replicate zeros 0, (digit == 0) = true := by
    intro digit member
    exact beq_iff_eq.mpr (List.eq_of_mem_replicate member)
  unfold leadingZeros
  rw [List.takeWhile_append_of_pos zero]
  cases digits with
  | nil => simp
  | cons first rest =>
    have positive := leading first rfl
    simp [positive]

theorem exists_leading (digits : List Nat) :
    ∃ zeros rest, digits = List.replicate zeros 0 ++ rest ∧ Leading rest := by
  induction digits with
  | nil => exact ⟨0, [], rfl, by simp [Leading]⟩
  | cons first rest ih =>
    by_cases zero : first = 0
    · obtain ⟨zeros, others, rfl, leading⟩ := ih
      exact ⟨zeros + 1, others, by rw [zero, List.replicate_succ, List.cons_append], leading⟩
    · refine ⟨0, first :: rest, rfl, ?_⟩
      intro other same
      cases same
      exact zero

theorem leading_digits (c number : Nat) : Leading (Nat.digits c number).reverse := by
  intro first head
  rw [List.head?_reverse] at head
  by_cases zero : number = 0
  · simp [zero] at head
  · have filled := Nat.digits_ne_nil_iff_ne_zero (b := c).mpr zero
    rw [List.getLast?_eq_some_getLast filled, Option.some.injEq] at head
    rw [← head]
    exact Nat.getLast_digit_ne_zero c zero

theorem digits_of_leading {b : Nat} (base : 1 < b) {digits : List Nat} (leading : Leading digits)
    (bound : ∀ digit ∈ digits, digit < b) :
    (Nat.digits b (Nat.ofDigits b digits.reverse)).reverse = digits := by
  rw [Nat.digits_ofDigits b base digits.reverse, List.reverse_reverse]
  · intro digit member
    exact bound digit (List.mem_reverse.mp member)
  · intro filled last
    rw [List.getLast_reverse] at last
    have head := List.head?_eq_some_head (List.reverse_ne_nil_iff.mp filled)
    exact leading _ head last

variable {b c : Nat}

theorem rebase_append (zeros : Nat) {digits : List Nat} (leading : Leading digits) :
    rebase b c (List.replicate zeros 0 ++ digits) =
      List.replicate zeros 0 ++ (Nat.digits c (Nat.ofDigits b digits.reverse)).reverse := by
  unfold rebase
  rw [leadingZeros_append zeros leading, List.reverse_append, List.reverse_replicate,
    Nat.ofDigits_append_replicate_zero]

theorem rebase_rebase (base : 1 < b) {digits : List Nat} (bound : ∀ digit ∈ digits, digit < b) :
    rebase c b (rebase b c digits) = digits := by
  obtain ⟨zeros, rest, rfl, leading⟩ := exists_leading digits
  have small : ∀ digit ∈ rest, digit < b :=
    fun digit member => bound digit (List.mem_append_right _ member)
  rw [rebase_append zeros leading, rebase_append zeros (leading_digits _ _), List.reverse_reverse,
    Nat.ofDigits_digits, digits_of_leading base leading small]

theorem rebase_lt (base : 1 < c) (digits : List Nat) : ∀ digit ∈ rebase b c digits, digit < c := by
  intro digit member
  rcases List.mem_append.mp member with zero | other
  · rw [List.eq_of_mem_replicate zero]
    omega
  · exact Nat.digits_lt_base base (List.mem_reverse.mp other)

/-- A longer base makes no more digits: `n` digits become at most `m` where `b ^ n ≤ c ^ m`. -/
theorem length_rebase_le (base : 1 < b) (other : 1 < c) (order : c ≤ b) {digits : List Nat}
    (bound : ∀ digit ∈ digits, digit < b) {most : Nat} (fits : b ^ digits.length ≤ c ^ most) :
    (rebase b c digits).length ≤ most := by
  obtain ⟨zeros, rest, rfl, leading⟩ := exists_leading digits
  have small : ∀ digit ∈ rest.reverse, digit < b :=
    fun digit member => bound digit (List.mem_append_right _ (List.mem_reverse.mp member))
  have value := Nat.ofDigits_lt_base_pow_length base small
  rw [List.length_reverse] at value
  rw [List.length_append, List.length_replicate] at fits
  have room : zeros + rest.length ≤ most := by
    by_contra more
    have grows : c ^ most < c ^ (zeros + rest.length) := Nat.pow_lt_pow_right other (by omega)
    have order' : c ^ (zeros + rest.length) ≤ b ^ (zeros + rest.length) := Nat.pow_le_pow_left order _
    omega
  have below : b ^ rest.length ≤ c ^ (most - zeros) := by
    have split : c ^ most = c ^ zeros * c ^ (most - zeros) := by rw [← pow_add]; congr 1; omega
    have scale : c ^ zeros * b ^ rest.length ≤ c ^ zeros * c ^ (most - zeros) := by
      calc c ^ zeros * b ^ rest.length ≤ b ^ zeros * b ^ rest.length :=
            Nat.mul_le_mul_right _ (Nat.pow_le_pow_left order zeros)
        _ = b ^ (zeros + rest.length) := (pow_add b zeros rest.length).symm
        _ ≤ c ^ most := fits
        _ = c ^ zeros * c ^ (most - zeros) := split
    exact Nat.le_of_mul_le_mul_left scale (Nat.pow_pos (by omega))
  have length := (Nat.digits_length_le_iff other _).mpr (lt_of_lt_of_le value below)
  rw [rebase_append zeros leading, List.length_append, List.length_replicate, List.length_reverse]
  omega

theorem length_rebase_le_length (base : 1 < b) (order : b ≤ c) {digits : List Nat}
    (bound : ∀ digit ∈ digits, digit < b) : (rebase b c digits).length ≤ digits.length := by
  obtain ⟨zeros, rest, rfl, leading⟩ := exists_leading digits
  have small : ∀ digit ∈ rest.reverse, digit < b :=
    fun digit member => bound digit (List.mem_append_right _ (List.mem_reverse.mp member))
  have value := Nat.ofDigits_lt_base_pow_length base small
  rw [List.length_reverse] at value
  have fits := lt_of_lt_of_le value (Nat.pow_le_pow_left order rest.length)
  have length := (Nat.digits_length_le_iff (lt_of_lt_of_le base order) _).mpr fits
  rw [rebase_append zeros leading, List.length_append, List.length_append, List.length_replicate,
    List.length_reverse]
  omega

end FreenetMigrate.Digits
