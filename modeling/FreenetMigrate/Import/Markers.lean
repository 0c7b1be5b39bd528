import FreenetMigrate.Migrate.SecretStore

namespace FreenetMigrate.Migrate

def decimal (n : Nat) : Bytes := ascii (toString n)

theorem decimal_eq_map (n : Nat) :
    decimal n = (Nat.toDigits 10 n).map fun c => UInt8.ofNat c.toNat := by
  unfold decimal ascii
  rw [Nat.toString_eq_repr, Nat.toList_repr]

theorem decimal_of_lt {n : Nat} (digit : n < 10) : decimal n = [UInt8.ofNat (48 + n)] := by
  rw [decimal_eq_map, Nat.toDigits_of_lt_base digit, List.map_singleton,
    Nat.toNat_digitChar_of_lt_ten digit]

theorem decimal_of_le {n : Nat} (longer : 10 ≤ n) :
    decimal n = decimal (n / 10) ++ decimal (n % 10) := by
  have digit : n % 10 < 10 := Nat.mod_lt n (by omega)
  rw [decimal_eq_map, decimal_eq_map, decimal_eq_map, Nat.toDigits_of_base_le (by omega) longer,
    Nat.toDigits_of_lt_base digit, List.map_append]

theorem decimal_ne_nil (n : Nat) : decimal n ≠ [] := by
  rw [decimal_eq_map, ne_eq, List.map_eq_nil_iff]
  exact Nat.toDigits_ne_nil

theorem readDigit_decimal {n : Nat} (digit : n < 10) (value : Nat) :
    (decimal n).foldlM (fun value digit =>
      if 48 ≤ digit ∧ digit ≤ 57 then some (10 * value + (digit.toNat - 48)) else none) value =
        some (10 * value + n) := by
  have small : (UInt8.ofNat (48 + n)).toNat = 48 + n := UInt8.toNat_ofNat_of_lt' (by
    change 48 + n < 256
    omega)
  have inside : 48 ≤ UInt8.ofNat (48 + n) ∧ UInt8.ofNat (48 + n) ≤ 57 := by
    rw [UInt8.le_iff_toNat_le, UInt8.le_iff_toNat_le, small]
    exact ⟨Nat.le_add_right 48 n, by change 48 + n ≤ 57; omega⟩
  rw [decimal_of_lt digit, List.foldlM_cons, if_pos inside, small, Nat.add_sub_cancel_left]
  rfl

theorem digitsValue_decimal (n : Nat) : digitsValue (decimal n) = some n := by
  induction n using Nat.strongRecOn with
  | ind n ih =>
    by_cases short : n < 10
    · have read := readDigit_decimal short 0
      rw [Nat.mul_zero, Nat.zero_add] at read
      exact read
    · have longer : 10 ≤ n := by omega
      have before := ih (n / 10) (by omega)
      unfold digitsValue at before ⊢
      rw [decimal_of_le longer, List.foldlM_append, before]
      have last := readDigit_decimal (Nat.mod_lt n (by omega)) (n / 10)
      rw [Nat.div_add_mod] at last
      exact last

theorem head_decimal (n : Nat) : (decimal n).head? ≠ some 43 := by
  rw [decimal_eq_map]
  intro plus
  rw [List.head?_map, Option.map_eq_some_iff] at plus
  obtain ⟨c, first, spelt⟩ := plus
  have digit := Nat.isDigit_of_mem_toDigits (by omega) (by omega) (List.mem_of_head? first)
  have bounds : 48 ≤ c.toNat ∧ c.toNat ≤ 57 := by
    simp only [Char.isDigit, Bool.and_eq_true, decide_eq_true_eq] at digit
    exact ⟨digit.1, digit.2⟩
  have value := congrArg UInt8.toNat spelt
  rw [UInt8.toNat_ofNat', show (43 : UInt8).toNat = 43 from rfl] at value
  omega

@[simp] theorem parseU32_decimal (n : UInt32) : parseU32 (decimal n.toNat) = some n := by
  have bound : n.toNat < UInt32.size := n.toNat_lt
  have some : (decimal n.toNat).isEmpty = false := by
    rw [List.isEmpty_eq_false_iff]
    exact decimal_ne_nil n.toNat
  unfold parseU32
  rw [if_neg (head_decimal n.toNat)]
  simp only [some, digitsValue_decimal, Option.bind_eq_bind, Option.bind_some, if_pos bound,
    Bool.false_eq_true, if_false, UInt32.ofNat_toNat]

theorem decimal_injective {first second : UInt32} (same : decimal first.toNat = decimal second.toNat) :
    first = second := by
  have read := parseU32_decimal first
  rw [same, parseU32_decimal] at read
  exact (Option.some.inj read).symm

def wipMarker (generation : UInt32) : Bytes := WIP_PREFIX ++ ascii (toString generation.toNat)

theorem doneMarker_eq_iff {first second : UInt32} :
    doneMarker first = doneMarker second ↔ first = second := by
  constructor
  · intro same
    exact decimal_injective (List.append_cancel_left same)
  · exact congrArg doneMarker

theorem wipMarker_ne_doneMarker (first second : UInt32) : wipMarker first ≠ doneMarker second :=
  append_ne_append 20 (by decide) (by decide) (by decide) _ _

theorem isMarker_wipMarker (generation : UInt32) : isMarker (wipMarker generation) = true :=
  isMarker_of_prefix (by decide) (List.prefix_append WIP_PREFIX _)

theorem isMarker_doneMarker (generation : UInt32) : isMarker (doneMarker generation) = true :=
  isMarker_of_done (List.prefix_append DONE_PREFIX _)

theorem predWipMarker_ne_wipMarker (p : DelegateKey) (generation : UInt32) :
    predWipMarker p ≠ wipMarker generation :=
  append_ne_append 18 (by decide) (by decide) (by decide) _ _

end FreenetMigrate.Migrate
