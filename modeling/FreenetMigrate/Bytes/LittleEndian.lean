import FreenetMigrate.Bytes.Fixed
import Mathlib.Data.Nat.Digits.Defs

namespace FreenetMigrate

/-- The number a byte string stands for, its least significant byte first. -/
def littleEndian (bytes : Bytes) : Nat := Nat.ofDigits 256 (bytes.map UInt8.toNat)

def toLeBytes (value : UInt32) : Fixed 4 := ⟨(toBeBytes value).toList.reverse, by simp⟩

theorem toBeBytes_injective : Function.Injective toBeBytes :=
  Function.LeftInverse.injective fromBeBytes_toBeBytes

theorem toLeBytes_injective : Function.Injective toLeBytes := by
  intro left right same
  have lists := congrArg Fixed.toList same
  exact toBeBytes_injective (Fixed.ext (List.reverse_injective lists))

theorem littleEndian_lt (bytes : Bytes) : littleEndian bytes < 256 ^ bytes.length := by
  unfold littleEndian
  rw [← List.length_map UInt8.toNat]
  apply Nat.ofDigits_lt_base_pow_length (by decide)
  intro digit member
  obtain ⟨byte, -, rfl⟩ := List.mem_map.mp member
  exact byte.toNat_lt

theorem littleEndian_concat (lower : Bytes) (top : UInt8) :
    littleEndian (lower ++ [top]) = littleEndian lower + 256 ^ lower.length * top.toNat := by
  simp only [littleEndian, List.map_append, List.map_singleton, Nat.ofDigits_append,
    Nat.ofDigits_singleton, List.length_map]

/-- Numbers of one length compare as their top bytes do, and below a common one as the rest does. -/
theorem littleEndian_concat_lt {lower other : Bytes} (same : lower.length = other.length)
    (top most : UInt8) :
    littleEndian (lower ++ [top]) < littleEndian (other ++ [most]) ↔
      top < most ∨ top = most ∧ littleEndian lower < littleEndian other := by
  have below := littleEndian_lt lower
  have above := littleEndian_lt other
  rw [littleEndian_concat, littleEndian_concat, same]
  rw [same] at below
  rcases lt_trichotomy top most with less | rfl | more
  · have step := Nat.mul_le_mul_left (256 ^ other.length) (UInt8.lt_iff_toNat_lt.mp less)
    rw [Nat.mul_succ] at step
    simp only [less, true_or, iff_true]
    omega
  · simp
  · have step := Nat.mul_le_mul_left (256 ^ other.length) (UInt8.lt_iff_toNat_lt.mp more)
    rw [Nat.mul_succ] at step
    simp only [more.not_gt, more.ne', false_and, or_false, iff_false]
    omega

theorem littleEndian_clear (lower : Bytes) (top : UInt8) :
    littleEndian (lower ++ [top &&& 0x7f]) =
      littleEndian (lower ++ [top]) % (256 ^ lower.length * 128) := by
  have below := littleEndian_lt lower
  have cleared : (top &&& 0x7f).toNat = top.toNat % 128 := by
    rw [UInt8.toNat_and]
    exact Nat.and_two_pow_sub_one_eq_mod top.toNat 7
  have place : 0 < 256 ^ lower.length := Nat.pow_pos (by decide)
  rw [littleEndian_concat, littleEndian_concat, cleared, Nat.mod_mul, Nat.add_mul_mod_self_left,
    Nat.mod_eq_of_lt below, Nat.add_mul_div_left _ _ place, Nat.div_eq_of_lt below, Nat.zero_add]

end FreenetMigrate
