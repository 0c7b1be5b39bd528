import FreenetMigrate.Bytes.Fixed
import FreenetMigrate.Digits.Rebase

namespace FreenetMigrate.Text.Base58

open Digits

/-! The standard base58 codec, with the Bitcoin alphabet: bytes are digits in base 256. -/

def ALPHABET : List Char :=
  "123456789ABCDEFGHJKLMNPQRSTUVWXYZabcdefghijkmnopqrstuvwxyz".toList

def symbol (digit : Nat) : Char := ALPHABET.getD digit '1'

def digitOf (c : Char) : Option Nat := ALPHABET.findIdx? (· == c)

def encode (bytes : Bytes) : String :=
  .ofList ((rebase 256 58 (bytes.map UInt8.toNat)).map symbol)

def decode (text : String) : Option Bytes :=
  (text.toList.mapM digitOf).map fun digits => (rebase 58 256 digits).map UInt8.ofNat

theorem digitOf_symbol : ∀ digit < 58, digitOf (symbol digit) = some digit := by decide

theorem symbol_of_digitOf {c : Char} {digit : Nat} (read : digitOf c = some digit) :
    digit < 58 ∧ symbol digit = c := by
  obtain ⟨bound, same, -⟩ := List.findIdx?_eq_some_iff_getElem.mp read
  refine ⟨bound, ?_⟩
  unfold symbol
  rw [List.getD_eq_getElem?_getD, List.getElem?_eq_getElem bound, Option.getD_some]
  exact beq_iff_eq.mp same

theorem bytes_lt (bytes : Bytes) : ∀ digit ∈ bytes.map UInt8.toNat, digit < 256 := by
  intro digit member
  obtain ⟨byte, -, rfl⟩ := List.mem_map.mp member
  exact byte.toNat_lt

theorem map_ofNat_map_toNat (bytes : Bytes) : (bytes.map UInt8.toNat).map UInt8.ofNat = bytes := by
  rw [List.map_map]
  exact List.map_id'' (fun byte => UInt8.ofNat_toNat) bytes

theorem map_toNat_map_ofNat {digits : List Nat} (bound : ∀ digit ∈ digits, digit < 256) :
    (digits.map UInt8.ofNat).map UInt8.toNat = digits := by
  rw [List.map_map]
  apply (List.map_congr_left fun digit member => ?_).trans (List.map_id digits)
  exact UInt8.toNat_ofNat_of_lt (bound digit member)

theorem mapM_digitOf {digits : List Nat} (bound : ∀ digit ∈ digits, digit < 58) :
    (digits.map symbol).mapM digitOf = some digits := by
  induction digits with
  | nil => rfl
  | cons digit rest ih =>
    obtain ⟨small, others⟩ := List.forall_mem_cons.mp bound
    rw [List.map_cons, List.mapM_cons, digitOf_symbol digit small, ih others]
    rfl

theorem symbols_of_mapM {text : List Char} {digits : List Nat}
    (read : text.mapM digitOf = some digits) :
    (∀ digit ∈ digits, digit < 58) ∧ digits.map symbol = text := by
  induction text generalizing digits with
  | nil =>
    cases read
    exact ⟨by simp, rfl⟩
  | cons c rest ih =>
    rw [List.mapM_cons] at read
    cases first : digitOf c with
    | none =>
      rw [first] at read
      cases read
    | some digit =>
      cases others : rest.mapM digitOf with
      | none =>
        rw [first, others] at read
        cases read
      | some more =>
        rw [first, others] at read
        cases read
        obtain ⟨small, same⟩ := symbol_of_digitOf first
        obtain ⟨bound, tail⟩ := ih others
        exact ⟨List.forall_mem_cons.mpr ⟨small, bound⟩, by rw [List.map_cons, same, tail]⟩

theorem decode_encode (bytes : Bytes) : decode (encode bytes) = some bytes := by
  unfold decode encode
  rw [String.toList_ofList, mapM_digitOf (rebase_lt (by decide) _), Option.map_some,
    rebase_rebase (by decide) (bytes_lt bytes), map_ofNat_map_toNat]

/-- No two texts are decoded to the same bytes: what is decoded is its encoding. -/
theorem encode_of_decode {text : String} {bytes : Bytes} (read : decode text = some bytes) :
    encode bytes = text := by
  unfold decode at read
  cases digits : text.toList.mapM digitOf with
  | none =>
    rw [digits] at read
    cases read
  | some found =>
    rw [digits] at read
    cases read
    obtain ⟨bound, same⟩ := symbols_of_mapM digits
    unfold encode
    rw [map_toNat_map_ofNat (rebase_lt (by decide) _), rebase_rebase (by decide) bound, same,
      String.ofList_toList]

theorem length_encode_le {bytes : Bytes} (length : bytes.length = 32) :
    (encode bytes).toList.length ≤ 44 := by
  unfold encode
  rw [String.toList_ofList, List.length_map]
  apply length_rebase_le (by decide) (by decide) (by decide) (bytes_lt bytes)
  rw [List.length_map, length]
  decide

theorem length_le_of_decode {text : String} {bytes : Bytes} (read : decode text = some bytes) :
    bytes.length ≤ text.toList.length := by
  unfold decode at read
  cases digits : text.toList.mapM digitOf with
  | none => simp [digits] at read
  | some values =>
    obtain ⟨bound, same⟩ := symbols_of_mapM digits
    rw [digits, Option.map_some, Option.some.injEq] at read
    rw [← read, ← same, List.length_map, List.length_map]
    exact length_rebase_le_length (by decide) (by decide) bound

end FreenetMigrate.Text.Base58
