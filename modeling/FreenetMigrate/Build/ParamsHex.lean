import FreenetMigrate.Build.Registry

namespace FreenetMigrate.Build

open Text Outcome

/-- What the decoder makes of pairs: bytes, when the text spells them once unsigned, else an error. -/
inductive Reads (text : List Char) (outcome : Outcome String Bytes) : Prop
  | bytes (bytes : Bytes) (returns : outcome = pure bytes) (spells : Spells (unsign text) bytes)
  | fails (reason : String) (throws : outcome = throw reason)
      (none : ∀ bytes, ¬ Spells (unsign text) bytes)

theorem decodePairs_of_ascii {front back : List Char} {n : Nat}
    (ascii : isAscii (front ++ back) = true) (length : back.length = 2 * n) :
    Reads back (decodePairs (front ++ back) (List.range' front.length n 2)) := by
  induction n generalizing front back with
  | zero =>
    obtain rfl := List.eq_nil_of_length_eq_zero length
    exact .bytes [] rfl rfl
  | succ n ih =>
    match back, length with
    | hi :: lo :: rest, length =>
      have split : front ++ hi :: lo :: rest = front ++ [hi, lo] ++ rest := by simp
      have asciiPair : isAscii (front ++ [hi, lo]) = true := by
        rw [split] at ascii
        exact (isAscii_append.mp ascii).1
      have pair := slice_of_ascii rest asciiPair
      have more : rest.length = 2 * n := by
        simp only [List.length_cons] at length
        omega
      have others : Reads rest
          (decodePairs (front ++ hi :: lo :: rest) (List.range' (front.length + 2) n 2)) := by
        have tail : Reads rest (decodePairs (front ++ [hi, lo] ++ rest)
            (List.range' (front ++ [hi, lo]).length n 2)) := ih (split ▸ ascii) more
        rwa [← split, List.length_append] at tail
      change slice (front ++ hi :: lo :: rest) front.length (front.length + 2) = some [hi, lo] at pair
      rw [List.range'_succ, decodePairs, pair, orPanic_some, pure_bind, fromStrRadix16_pair]
      have unread (missing : toDigit16 (unsigned hi) = none ∨ toDigit16 lo = none) (bytes : Bytes) :
          ¬ Spells (unsign (hi :: lo :: rest)) bytes := by
        intro spells
        cases bytes with
        | nil => simp [Spells, hex, unsign] at spells
        | cons byte bytes =>
          obtain ⟨first, second, -⟩ := spells_cons.mp spells
          rcases missing with missing | missing
          · rw [missing] at first
            cases first
          · rw [missing] at second
            cases second
      cases first : toDigit16 (unsigned hi) with
      | none => exact .fails _ rfl (unread (.inl first))
      | some high =>
        cases second : toDigit16 lo with
        | none => exact .fails _ rfl (unread (.inr second))
        | some low =>
          cases others with
          | bytes bytes returns spells =>
            refine .bytes (UInt8.ofNat (high * 16 + low) :: bytes) ?_
              (spells_of_digits first second spells)
            simp only [Except.mapError, ofExcept_ok, pure_bind, returns]
          | fails reason throws none =>
            refine .fails reason ?_ ?_
            · simp only [Except.mapError, ofExcept_ok, pure_bind, throws, throw_bind]
            · intro bytes spells
              cases bytes with
              | nil => simp [Spells, hex, unsign] at spells
              | cons byte bytes => exact none bytes (spells_cons.mp spells).2.2

theorem isHexDigit_ascii {c : Char} (digit : IsHexDigit c) : c.toNat < 128 := by
  by_contra large
  rw [IsHexDigit, toDigit16_of_large (by omega)] at digit
  cases digit

theorem isAscii_of_hexText {text : List Char} (digits : ∀ c ∈ text, IsHexDigit c) :
    isAscii text = true := by
  apply List.all_eq_true.mpr
  intro c member
  exact decide_eq_true (isHexDigit_ascii (digits c member))

theorem isAscii_of_unsign {text : List Char} (ascii : isAscii (unsign text) = true) :
    isAscii text = true := by
  match text with
  | [] => rfl
  | [c] => exact ascii
  | hi :: lo :: rest =>
    obtain ⟨first, others⟩ := isAscii_cons.mp ascii
    obtain ⟨second, tail⟩ := isAscii_cons.mp others
    refine isAscii_cons.mpr ⟨?_, isAscii_cons.mpr ⟨second, isAscii_of_unsign tail⟩⟩
    by_cases plus : hi = '+'
    · subst plus
      decide
    · rwa [unsigned, if_neg plus] at first

theorem decodeHex_reads (value : String) : Reads value.toList (decodeHex value) := by
  have spelled {bytes : Bytes} (spells : Spells (unsign value.toList) bytes) :=
    (hexText_iff _).mpr ⟨bytes, spells⟩
  unfold decodeHex
  generalize value.toList = text at spelled ⊢
  dsimp only
  by_cases ascii : isAscii text = true
  · rw [len_of_ascii ascii, ascii]
    simp only [Bool.not_true, Bool.false_eq_true, if_false]
    by_cases even : text.length % 2 = 0
    · rw [if_neg (by omega)]
      apply @decodePairs_of_ascii [] text _ ascii
      omega
    · rw [if_pos even]
      refine .fails _ rfl fun bytes spells => even ?_
      have length := (spelled spells).1
      rwa [length_unsign] at length
  · rw [if_pos (by simpa using ascii)]
    exact .fails _ rfl fun bytes spells =>
      ascii (isAscii_of_unsign (isAscii_of_hexText (spelled spells).2))

theorem Reads.eq_pure {text : List Char} {outcome : Outcome String Bytes}
    (reads : Reads text outcome) (bytes : Bytes) :
    outcome = pure bytes ↔ Spells (unsign text) bytes := by
  cases reads with
  | bytes found returns spells =>
    rw [returns, pure_inj]
    constructor
    · rintro rfl
      exact spells
    · exact spells.unique
  | fails reason throws none =>
    rw [throws]
    exact ⟨fun same => absurd same throw_ne_pure, fun spells => absurd spells (none bytes)⟩

namespace DelegateRow

variable (row : DelegateRow)

theorem paramsBytes_eq_pure (bytes : Bytes) :
    row.paramsBytes = pure bytes ↔ Spells (unsign row.paramsHex.toList) bytes := by
  unfold paramsBytes
  rw [adapt_eq_pure]
  exact (decodeHex_reads row.paramsHex).eq_pure bytes

theorem paramsBytes_ne_panics : row.paramsBytes ≠ panics := by
  unfold paramsBytes
  rcases decodeHex_reads row.paramsHex with ⟨bytes, returns, -⟩ | ⟨reason, throws, -⟩
  · rw [returns]
    exact fun same => panics_ne_pure same.symm
  · rw [throws, adapt_throw]
    exact fun same => panics_ne_throw same.symm

theorem paramsBytes_eq_throw (unread : ∀ bytes, ¬ Spells (unsign row.paramsHex.toList) bytes) :
    ∃ reason, row.paramsBytes = throw (.invalidParams row.paramsHex reason) := by
  unfold paramsBytes
  rcases decodeHex_reads row.paramsHex with ⟨bytes, -, spells⟩ | ⟨reason, throws, -⟩
  · exact absurd spells (unread bytes)
  · exact ⟨reason, by rw [throws, adapt_throw]⟩

/-- The parser's grammar, at one row: hex text gives the bytes it spells, anything else the error. -/
structure ParamsExact : Prop where
  accepts : ∀ bytes, row.paramsBytes = pure bytes ↔
    HexText row.paramsHex.toList ∧ Spells row.paramsHex.toList bytes
  rejects : ¬ HexText row.paramsHex.toList →
    ∃ reason, row.paramsBytes = throw (.invalidParams row.paramsHex reason)

end DelegateRow

/-- Hex text but for plus signs: at least one pair of characters is a plus sign and a digit. -/
def SignedHex (text : List Char) : Prop := HexText (unsign text) ∧ unsign text ≠ text

instance (text : List Char) : Decidable (SignedHex text) := inferInstanceAs (Decidable (_ ∧ _))

theorem paramsExact_iff (row : DelegateRow) :
    row.ParamsExact ↔ ¬ SignedHex row.paramsHex.toList := by
  constructor
  · rintro ⟨accepts, -⟩ ⟨digits, signed⟩
    obtain ⟨bytes, spells⟩ := (hexText_iff _).mp digits
    have read := (row.paramsBytes_eq_pure bytes).mpr spells
    exact signed (unsign_of_hexText ((accepts bytes).mp read).1.2)
  · intro unsignedText
    have plain (digits : HexText row.paramsHex.toList) :
        unsign row.paramsHex.toList = row.paramsHex.toList := unsign_of_hexText digits.2
    have back {bytes : Bytes} (spells : Spells (unsign row.paramsHex.toList) bytes) :
        unsign row.paramsHex.toList = row.paramsHex.toList := by
      by_contra signed
      exact unsignedText ⟨(hexText_iff _).mpr ⟨bytes, spells⟩, signed⟩
    refine ⟨?_, ?_⟩
    · intro bytes
      rw [row.paramsBytes_eq_pure]
      constructor
      · intro spells
        rw [back spells] at spells
        exact ⟨(hexText_iff _).mpr ⟨bytes, spells⟩, spells⟩
      · rintro ⟨digits, spells⟩
        rwa [plain digits]
    · intro other
      apply row.paramsBytes_eq_throw
      intro bytes spells
      rw [back spells] at spells
      exact other ((hexText_iff _).mpr ⟨bytes, spells⟩)

/-- The parameters never panic, and are parsed by the grammar exactly where no plus sign stands in
    for a digit. Texts read as the same parameters then differ in case alone. -/
theorem params_exact (row : DelegateRow) :
    row.paramsBytes ≠ panics ∧
    (row.ParamsExact ↔ ¬ SignedHex row.paramsHex.toList) ∧
    ∀ (other : DelegateRow) (bytes : Bytes), ¬ SignedHex row.paramsHex.toList →
      ¬ SignedHex other.paramsHex.toList → row.paramsBytes = pure bytes →
      other.paramsBytes = pure bytes →
      row.paramsHex.toList.map Char.toLower = other.paramsHex.toList.map Char.toLower := by
  refine ⟨row.paramsBytes_ne_panics, paramsExact_iff row, ?_⟩
  intro other bytes plain otherPlain read otherRead
  have spells := (((paramsExact_iff row).mpr plain).accepts bytes).mp read
  have otherSpells := (((paramsExact_iff other).mpr otherPlain).accepts bytes).mp otherRead
  exact spells.2.lower_eq otherSpells.2

def rowWithParams (paramsHex : String) : DelegateRow := ⟨0, "", "", paramsHex, false, ""⟩

theorem params_exact_mixed : (rowWithParams "0aFF").ParamsExact :=
  (params_exact (rowWithParams "0aFF")).2.1.mpr (by decide)

/-- A plus sign in place of a digit is accepted, and read as the digit zero is. -/
theorem plus_sign_accepted :
    (rowWithParams "+a").paramsBytes = pure [0x0a] ∧ ¬ HexText (rowWithParams "+a").paramsHex.toList ∧
    (rowWithParams "0a").paramsBytes = pure [0x0a] := by
  have plus := (rowWithParams "+a").paramsBytes_eq_pure [0x0a]
  have zero := (rowWithParams "0a").paramsBytes_eq_pure [0x0a]
  exact ⟨plus.mpr (by unfold Spells; decide +kernel), by decide +kernel,
    zero.mpr (by unfold Spells; decide +kernel)⟩

end FreenetMigrate.Build
