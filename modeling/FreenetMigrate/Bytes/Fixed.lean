import Mathlib.Data.List.Lex

namespace FreenetMigrate

abbrev Bytes : Type := List UInt8

instance instLawfulBEqBytes : LawfulBEq Bytes := inferInstance

def ascii (text : String) : Bytes := text.toList.map fun c => UInt8.ofNat c.toNat

/-- A byte array of a fixed length, `[u8; n]`. -/
@[ext] structure Fixed (n : Nat) where
  toList : Bytes
  length_toList : toList.length = n
  deriving DecidableEq

namespace Fixed

attribute [simp] length_toList

theorem toList_injective {n : Nat} : Function.Injective (toList : Fixed n → Bytes) :=
  fun _ _ => Fixed.ext

def zero (n : Nat) : Fixed n := ⟨List.replicate n 0, List.length_replicate⟩

end Fixed

instance instLinearOrderUInt8 : LinearOrder UInt8 where
  le_refl := UInt8.le_refl
  le_trans _ _ _ := UInt8.le_trans
  lt_iff_le_not_ge a b := by
    rw [UInt8.lt_iff_toNat_lt, UInt8.le_iff_toNat_le, UInt8.le_iff_toNat_le]
    omega
  le_antisymm _ _ := UInt8.le_antisymm
  le_total := UInt8.le_total
  toOrd := inferInstance
  toDecidableLE := inferInstance
  toDecidableEq := inferInstance
  toDecidableLT := inferInstance
  toMin := inferInstance
  toMax := inferInstance
  min_def _ _ := rfl
  max_def _ _ := rfl
  compare_eq_compareOfLessAndEq _ _ := rfl

instance instLinearOrderUInt32 : LinearOrder UInt32 where
  le_refl := UInt32.le_refl
  le_trans _ _ _ := UInt32.le_trans
  lt_iff_le_not_ge a b := by
    rw [UInt32.lt_iff_toNat_lt, UInt32.le_iff_toNat_le, UInt32.le_iff_toNat_le]
    omega
  le_antisymm _ _ := UInt32.le_antisymm
  le_total := UInt32.le_total
  toOrd := inferInstance
  toDecidableLE := inferInstance
  toDecidableEq := inferInstance
  toDecidableLT := inferInstance
  toMin := inferInstance
  toMax := inferInstance
  min_def _ _ := rfl
  max_def _ _ := rfl
  compare_eq_compareOfLessAndEq _ _ := rfl

/-- Byte arrays compare as their bytes do, lexicographically. -/
instance instLinearOrderFixed (n : Nat) : LinearOrder (Fixed n) :=
  LinearOrder.lift' Fixed.toList Fixed.toList_injective

instance instLawfulEqOrdFixed (n : Nat) : Std.LawfulEqOrd (Fixed n) := ⟨compare_eq_iff_eq.mp⟩

/-- Keys of a map: found at once, rather than through the order of all lengths. -/
instance instTransOrdKey : Std.TransOrd (Fixed 32) := inferInstance

theorem not_lt_replicate_zero (bytes : Bytes) : ¬ bytes < List.replicate bytes.length 0 := by
  induction bytes with
  | nil => simp
  | cons head tail ih =>
    have notBelow : ¬ head < 0 := UInt8.not_lt.mpr UInt8.zero_le
    rw [List.length_cons, List.replicate_succ, List.cons_lt_cons_iff]
    rintro (below | ⟨-, below⟩)
    · exact notBelow below
    · exact ih below

/-- Behind prefixes of one length, the first difference decides: in the prefixes if they differ,
    after them otherwise. -/
theorem append_lt_append {left right leftRest rightRest : Bytes}
    (same : left.length = right.length) :
    left ++ leftRest < right ++ rightRest ↔ left < right ∨ (left = right ∧ leftRest < rightRest) := by
  induction left generalizing right with
  | nil =>
    obtain rfl := List.eq_nil_of_length_eq_zero same.symm
    simp
  | cons head tail ih =>
    cases right with
    | nil => simp at same
    | cons other rest =>
      have lengths : tail.length = rest.length := by simpa using same
      simp only [List.cons_append, List.cons_lt_cons_iff, ih lengths, List.cons.injEq]
      tauto

def toBeBytes (value : UInt32) : Fixed 4 :=
  ⟨[UInt8.ofNat (value.toNat / 0x1000000), UInt8.ofNat (value.toNat / 0x10000),
    UInt8.ofNat (value.toNat / 0x100), UInt8.ofNat value.toNat], rfl⟩

def fromBeBytes (bytes : Fixed 4) : UInt32 :=
  UInt32.ofNat (bytes.toList.foldl (fun value byte => value * 256 + byte.toNat) 0)

@[simp] theorem fromBeBytes_toBeBytes (value : UInt32) : fromBeBytes (toBeBytes value) = value := by
  have bound := value.toNat_lt
  apply UInt32.toNat_inj.mp
  simp only [fromBeBytes, toBeBytes, List.foldl_cons, List.foldl_nil, UInt8.toNat_ofNat',
    UInt32.toNat_ofNat']
  omega

@[simp] theorem toBeBytes_fromBeBytes (bytes : Fixed 4) : toBeBytes (fromBeBytes bytes) = bytes := by
  obtain ⟨list, length⟩ := bytes
  match list, length with
  | [a, b, c, d], _ =>
    have ha := a.toNat_lt
    have hb := b.toNat_lt
    have hc := c.toNat_lt
    have hd := d.toNat_lt
    apply Fixed.ext
    simp only [fromBeBytes, toBeBytes, List.foldl_cons, List.foldl_nil, UInt32.toNat_ofNat',
      List.cons.injEq, ← UInt8.toNat_inj, UInt8.toNat_ofNat', and_true]
    omega

end FreenetMigrate
