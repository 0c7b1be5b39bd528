import FreenetMigrate.Build.Validate
import FreenetMigrate.Pointer.Author
import FreenetMigrate.Text.Lines

namespace FreenetMigrate.Publisher

open Text Pointer Build

def toHex (bytes : Bytes) : String := .ofList (hex bytes)

def nibble (byte : UInt8) : Option Nat := toDigit16 (Char.ofNat byte.toNat)

def joinPairs : Bytes → Bytes
  | hi :: lo :: rest =>
    UInt8.ofNat ((nibble hi).getD 0 * 16 + (nibble lo).getD 0) :: joinPairs rest
  | _ => []

def fromHex (text : List Char) : Except String Bytes :=
  let b := utf8 text
  if b.length % 2 ≠ 0 then .error s!"hex string has an odd length ({b.length} chars)"
  else match b.find? fun c => (nibble c).isNone with
    | some bad =>
      .error s!"not a hex string: contains the byte 0x{toHex [bad]}, which is not a hex digit"
    | none => .ok (joinPairs b)

def contains (text part : String) : Bool :=
  text.toList.tails.any fun tail => part.toList.isPrefixOf tail

def rejectWrongKeyType (s wantTag what : String) : Except String Unit :=
  let parts := s.toList.splitOn ':'
  if parts.length < 2 then .ok ()
  else
    let tag := String.ofList (parts.getD (parts.length - 2) [])
    if !(["vk", "sk", "sig"].contains tag) || tag == wantTag then .ok ()
    else if tag == "sk" then .error
      (s!"refusing to read a SIGNING key as the {what}: the value is tagged ':sk:'.\n" ++
        "A private key must never be passed as a flag - it is visible in `ps` to\n" ++
        "every user on this machine and lands in your shell history. Pass the\n" ++
        "VERIFYING key (':vk:') here; the signing key is read from stdin.")
    else .error s!"the value given for the {what} is tagged ':{tag}:', not ':{wantTag}:'"

def keyToken (s : String) : List Char := trim (lastSegment ':' s.toList)

section Decoding

variable [Bs58]

/-- Hex is for a text of exactly twice the length. What is wrong with a signing key is said without
    the decoder's own words, which quote a character of it. -/
def decodeKeyMaterial (s : String) (want : Nat) (what : String) : Except String Bytes :=
  let token := keyToken s
  if token.isEmpty then .error s!"empty {what}"
  else if len token = want * 2 ∧ (token.all fun c => (toDigit16 c).isSome) = true then
    (fromHex token).mapError fun e => s!"{what}: {e}"
  else
    match Bs58.onto (len token) (.ofList token) with
    | .error e =>
      if contains what "signing key" then
        .error s!"{what} is neither {want * 2}-char hex nor valid base58"
      else .error s!"{what} is neither {want * 2}-char hex nor base58: {e}"
    | .ok decoded =>
      if decoded.length ≠ want then
        .error s!"{what} decoded to {decoded.length} bytes, expected {want}"
      else .ok decoded

/-- A quoted value ends at its closing quote, another at a comment. -/
def unquoteTomlValue (v : List Char) : List Char :=
  match trim v with
  | '"' :: rest => if rest.contains '"' then rest.takeWhile (· != '"') else trim rest
  | v => if v.contains '#' then trim (v.takeWhile (· != '#')) else v

def isSigningKeyLine (line : List Char) : Bool :=
  let line := trimStart line
  "signing_key".toList.isPrefixOf line &&
    "=".toList.isPrefixOf (trimStart (line.drop "signing_key".toList.length))

def signingKeyToken (text : String) : Except String String :=
  match (lines text.toList).find? isSigningKeyLine with
  | some line =>
    match splitOnce (.ofList line) '=' with
    | some (_, v) => .ok (.ofList (unquoteTomlValue v.toList))
    | none => .error "a 'signing_key' line was found but has no '= value'"
  | none => .ok (.ofList (trim text.toList))

def signingKeyFromText {SigningKey : Type} (VerifyingKey : Type) [Signer SigningKey VerifyingKey]
    (text : String) : Except String SigningKey :=
  if (trim text.toList).isEmpty then
    .error "no signing key on stdin (redirect a key file into this command)"
  else do
    let token ← signingKeyToken text
    rejectWrongKeyType token "sk" "signing key"
    let bytes ← decodeKeyMaterial token 32 "signing key"
    return Signer.fromBytes VerifyingKey (filled 32 bytes)

end Decoding

theorem exists_large {c : Char} (large : 128 ≤ c.toNat) :
    ∃ byte ∈ String.utf8EncodeChar c, 128 ≤ byte.toNat := by
  have orBound (a b : UInt8) (high : 128 ≤ b.toNat) : 128 ≤ (a ||| b).toNat := by
    rw [UInt8.toNat_or]
    exact high.trans Nat.right_le_or
  rcases c.utf8Size_eq with size | size | size | size
  · have small := Char.utf8Size_eq_one_iff.mp size
    rw [UInt32.le_iff_toNat_le] at small
    have bound : c.toNat ≤ 127 := small
    omega
  · rw [String.utf8EncodeChar_eq_cons_cons size]
    exact ⟨_, List.mem_cons_self, orBound _ _ (by decide)⟩
  · rw [String.utf8EncodeChar_eq_cons_cons_cons size]
    exact ⟨_, List.mem_cons_self, orBound _ _ (by decide)⟩
  · rw [String.utf8EncodeChar_eq_cons_cons_cons_cons size]
    exact ⟨_, List.mem_cons_self, orBound _ _ (by decide)⟩

theorem toNat_ofNat_byte (byte : UInt8) : (Char.ofNat byte.toNat).toNat = byte.toNat := by
  have bound := byte.toNat_lt
  have valid : byte.toNat.isValidChar := .inl (by omega)
  rw [Char.ofNat, dif_pos valid]
  rfl

theorem nibble_of_large {byte : UInt8} (large : 128 ≤ byte.toNat) : nibble byte = none :=
  toDigit16_of_large (by rwa [toNat_ofNat_byte])

theorem nibble_of_ascii {c : Char} (ascii : c.toNat < 128) :
    nibble (UInt8.ofNat c.toNat) = toDigit16 c := by
  have same : (UInt8.ofNat c.toNat).toNat = c.toNat := by
    rw [UInt8.toNat_ofNat']
    omega
  rw [nibble, same, Char.ofNat_toNat]

theorem hexDigit_ascii {c : Char} (digit : IsHexDigit c) : c.toNat < 128 := by
  by_contra large
  rw [IsHexDigit, toDigit16_of_large (by omega)] at digit
  cases digit

/-- All bytes of a text are digits exactly when all its characters are. -/
theorem find_bad_eq_none {text : List Char} :
    ((utf8 text).find? fun c => (nibble c).isNone) = none ↔ ∀ c ∈ text, IsHexDigit c := by
  rw [List.find?_eq_none]
  constructor
  · intro good c member
    have bytes (byte : UInt8) (inside : byte ∈ String.utf8EncodeChar c) : (nibble byte).isSome = true := by
      have fine := good byte (List.mem_flatMap.mpr ⟨c, member, inside⟩)
      simpa [Option.isSome_iff_ne_none] using fine
    by_cases small : c.toNat < 128
    · have one : utf8 [c] = _ := utf8_of_ascii (isAscii_cons.mpr ⟨small, rfl⟩)
      rw [utf8, List.flatMap_cons, List.flatMap_nil, List.append_nil] at one
      have digit := bytes (UInt8.ofNat c.toNat) (one ▸ List.mem_singleton_self _)
      rwa [nibble_of_ascii small] at digit
    · obtain ⟨byte, inside, large⟩ := exists_large (Nat.le_of_not_lt small)
      have digit := bytes byte inside
      rw [nibble_of_large large] at digit
      cases digit
  · intro digits byte member
    have ascii : isAscii text = true := by
      rw [isAscii, List.all_eq_true]
      exact fun c inside => decide_eq_true (hexDigit_ascii (digits c inside))
    rw [utf8_of_ascii ascii] at member
    obtain ⟨c, inside, rfl⟩ := List.mem_map.mp member
    have digit := digits c inside
    rw [nibble_of_ascii (hexDigit_ascii digit)]
    simpa [IsHexDigit, Option.isSome_iff_ne_none] using digit

theorem joinPairs_spells {text : List Char} (hexText : HexText text) :
    Spells text (joinPairs (text.map fun c => UInt8.ofNat c.toNat)) := by
  match text with
  | [] => rfl
  | [c] => cases hexText.1
  | hi :: lo :: rest =>
    obtain ⟨first, second, others⟩ := hexText_cons.mp hexText
    obtain ⟨high, readHigh⟩ := Option.isSome_iff_exists.mp first
    obtain ⟨low, readLow⟩ := Option.isSome_iff_exists.mp second
    have tail := joinPairs_spells others
    simp only [List.map_cons, joinPairs, nibble_of_ascii (hexDigit_ascii first),
      nibble_of_ascii (hexDigit_ascii second), readHigh, readLow, Option.getD_some]
    exact spells_of_digits readHigh readLow tail

theorem fromHex_eq_ok {text : List Char} {bytes : Bytes} :
    fromHex text = .ok bytes ↔ Spells text bytes := by
  have ascii (digits : ∀ c ∈ text, IsHexDigit c) : isAscii text = true := by
    rw [isAscii, List.all_eq_true]
    exact fun c inside => decide_eq_true (hexDigit_ascii (digits c inside))
  constructor
  · intro read
    simp only [fromHex] at read
    split at read
    · cases read
    · rename_i even
      split at read
      · cases read
      · rename_i good
        have digits := find_bad_eq_none.mp good
        rw [utf8_of_ascii (ascii digits)] at read even
        obtain rfl := Except.ok.inj read
        exact joinPairs_spells ⟨by simpa using even, digits⟩
  · intro spells
    have hexText := (hexText_iff text).mpr ⟨bytes, spells⟩
    have joined := joinPairs_spells hexText
    rw [← utf8_of_ascii (ascii hexText.2)] at joined
    have even : (utf8 text).length % 2 = 0 := by
      rw [utf8_of_ascii (ascii hexText.2), List.length_map]
      exact hexText.1
    simp only [fromHex, find_bad_eq_none.mpr hexText.2, even, ne_eq, not_true_eq_false, if_false,
      Except.ok.injEq]
    exact joined.unique spells

theorem len_of_digits {text : List Char} (digits : ∀ c ∈ text, IsHexDigit c) : len text = text.length := by
  apply len_of_ascii
  rw [isAscii, List.all_eq_true]
  exact fun c inside => decide_eq_true (hexDigit_ascii (digits c inside))

theorem all_isSome_iff {text : List Char} :
    (text.all fun c => (toDigit16 c).isSome) = true ↔ ∀ c ∈ text, IsHexDigit c := List.all_eq_true

section Exact

variable [Bs58]

/-- Key material is read exactly where the last segment is the hex or the base58 of that many bytes,
    and no segment is both. -/
theorem decodeKeyMaterial_eq_ok [LawfulBs58] {s what : String} {bytes : Bytes} :
    decodeKeyMaterial s 32 what = .ok bytes ↔ bytes.length = 32 ∧
      (Spells (keyToken s) bytes ∨ Base58.encode bytes = .ofList (keyToken s)) := by
  simp only [decodeKeyMaterial]
  generalize keyToken s = token
  constructor
  · intro read
    split at read
    · cases read
    · split at read
      · rename_i hexadecimal
        obtain ⟨length, digits⟩ := hexadecimal
        have spells := fromHex_eq_ok.mp (PointerContract.mapError_eq_ok.mp read)
        have twice := spells.length_eq
        rw [len_of_digits (all_isSome_iff.mp digits)] at length
        exact ⟨by omega, .inl spells⟩
      · split at read
        · split at read <;> cases read
        · rename_i decoded written
          split at read
          · cases read
          · rename_i fits
            obtain rfl := Except.ok.inj read
            exact ⟨by simpa using fits,
              .inr (Base58.encode_of_decode (LawfulBs58.onto_eq_ok.mp written).1)⟩
  · rintro ⟨length, spells | encoded⟩
    · have hexText := (hexText_iff token).mpr ⟨bytes, spells⟩
      have twice := spells.length_eq
      have filled : token.isEmpty = false := by
        rw [List.isEmpty_eq_false_iff, ← List.length_pos_iff]
        omega
      have long : len token = 32 * 2 := by rw [len_of_digits hexText.2]; omega
      rw [filled, if_neg Bool.false_ne_true, if_pos ⟨long, all_isSome_iff.mpr hexText.2⟩,
        fromHex_eq_ok.mpr spells]
      rfl
    · have decoded := Base58.decode_encode bytes
      have short := Base58.length_encode_le length
      have room := Base58.length_le_of_decode decoded
      rw [encoded] at decoded short room
      rw [String.toList_ofList] at short room
      have filled : token.isEmpty = false := by
        rw [List.isEmpty_eq_false_iff, ← List.length_pos_iff]
        omega
      have base58 : ¬ (len token = 32 * 2 ∧ (token.all fun c => (toDigit16 c).isSome) = true) := by
        rintro ⟨long, digits⟩
        rw [len_of_digits (all_isSome_iff.mp digits)] at long
        omega
      have written : Bs58.onto (len token) (.ofList token) = .ok bytes :=
        LawfulBs58.onto_eq_ok.mpr ⟨decoded, room.trans (length_le_len token)⟩
      rw [filled, if_neg Bool.false_ne_true, if_neg base58, written]
      simp [length]

end Exact

end FreenetMigrate.Publisher
