import FreenetMigrate.Rust.Lexer

namespace FreenetMigrate.Rust

open Text

/-- `char::escape_unicode`, in the fewest digits. -/
def escapeUnicode (c : Char) : List Char :=
  ['\\', 'u', '\x7b'] ++ (Nat.toDigits 16 c.toNat ++ ['\x7d'])

def escapeChar (c : Char) : List Char :=
  if c = '\t' then ['\\', 't']
  else if c = '\r' then ['\\', 'r']
  else if c = '\n' then ['\\', 'n']
  else if c = '\\' ∨ c = '\'' ∨ c = '"' then ['\\', c]
  else if 0x20 ≤ c.toNat ∧ c.toNat ≤ 0x7e then [c]
  else escapeUnicode c

def escapeDefault (text : List Char) : List Char := text.flatMap escapeChar

theorem toDigit16_digitChar : ∀ digit < 16, toDigit16 (Nat.digitChar digit) = some digit := by decide

theorem digitChar_plain : ∀ digit < 16, (Nat.digitChar digit).toNat ≠ 0x7d ∧
    Nat.digitChar digit ≠ '_' ∧ '\r' ≠ Nat.digitChar digit := by decide

variable [Xid]

namespace Lexes

theorem scalarDigit {digit digits : Nat} (bound : digit < 16) (room : digits < 6) (content : List Char)
    (value : Nat) : Lexes (.scalar content value digits) [Nat.digitChar digit] []
      (.scalar content (value * 16 + digit) (digits + 1)) := by
  obtain ⟨notBrace, notLow, plain⟩ := digitChar_plain digit bound
  refine ⟨?_, run_cons.mpr ⟨[], _, [], ?_, rfl, rfl⟩⟩
  · exact fun member => plain (List.mem_singleton.mp member)
  rw [step, stepScalar, if_neg notBrace, if_neg (fun both => notLow both.1), if_pos room,
    toDigit16_digitChar digit bound]
  rfl

theorem scalarDigits {n : Nat} (bound : n < 16 ^ 6) (content : List Char) :
    Lexes (.scalar content 0 0) (Nat.toDigits 16 n) []
      (.scalar content n (Nat.toDigits 16 n).length) := by
  induction n using Nat.strongRecOn with
  | ind n ih =>
    by_cases short : n < 16
    · have digit : Lexes (.scalar content 0 0) [Nat.digitChar n] []
          (.scalar content (0 * 16 + n) (0 + 1)) := scalarDigit short (by decide) content 0
      rw [Nat.zero_mul, Nat.zero_add] at digit
      rw [Nat.toDigits_of_lt_base short]
      exact digit
    · have fewer : (Nat.toDigits 16 (n / 16)).length < 6 := by
        apply Nat.lt_succ_of_le
        rw [Nat.length_toDigits_le_iff (by decide) (by decide)]
        omega
      have last := scalarDigit (Nat.mod_lt n (by decide)) fewer content (n / 16)
      rw [Nat.div_add_mod' n 16] at last
      rw [Nat.toDigits_of_base_le (by decide) (by omega), List.length_append, List.length_singleton]
      exact (ih (n / 16) (by omega) (by omega)).append last

theorem escapeUnicode (c : Char) (content : List Char) :
    Lexes (.str content) (escapeUnicode c) [] (.str (content ++ [c])) := by
  have opened : Lexes (.str content) ['\\', 'u', '\x7b'] [] (.scalar content 0 0) := ⟨by decide, rfl⟩
  have small : c.toNat < 16 ^ 6 := by
    have valid := c.valid
    simp only [UInt32.isValidChar, Nat.isValidChar] at valid
    change c.val.toNat < 16 ^ 6
    omega
  have closed : Lexes (.scalar content c.toNat (Nat.toDigits 16 c.toNat).length) ['\x7d'] []
      (.str (content ++ [c])) := by
    refine ⟨by decide, run_cons.mpr ⟨[], _, [], ?_, rfl, rfl⟩⟩
    rw [step, stepScalar, if_pos (by decide), if_pos ⟨Nat.length_toDigits_pos, c.valid⟩, Char.ofNat_toNat]
  exact opened.append ((scalarDigits small content).append closed)

theorem escapeChar (c : Char) (content : List Char) :
    Lexes (.str content) (escapeChar c) [] (.str (content ++ [c])) := by
  unfold Rust.escapeChar
  by_cases tab : c = '\t'
  · subst tab
    exact ⟨by decide, rfl⟩
  by_cases carriage : c = '\r'
  · subst carriage
    exact ⟨by decide, rfl⟩
  by_cases line : c = '\n'
  · subst line
    exact ⟨by decide, rfl⟩
  rw [if_neg tab, if_neg carriage, if_neg line]
  by_cases backslashed : c = '\\' ∨ c = '\'' ∨ c = '"'
  · rw [if_pos backslashed]
    rcases backslashed with rfl | rfl | rfl <;> exact ⟨by decide, rfl⟩
  rw [if_neg backslashed]
  by_cases printable : 0x20 ≤ c.toNat ∧ c.toNat ≤ 0x7e
  · rw [if_pos printable]
    refine ⟨by simpa using fun same => carriage same.symm, run_cons.mpr ⟨[], _, [], ?_, rfl, rfl⟩⟩
    rw [step, stepStr, if_neg (fun quote => backslashed (.inr (.inr quote))),
      if_neg (fun slash => backslashed (.inl slash)), if_neg carriage]
  · rw [if_neg printable]
    exact escapeUnicode c content

theorem escapeDefault (text content : List Char) :
    Lexes (.str content) (escapeDefault text) [] (.str (content ++ text)) := by
  induction text generalizing content with
  | nil =>
    rw [List.append_nil]
    exact nil _
  | cons c rest ih =>
    have later := ih (content ++ [c])
    rw [List.append_assoc] at later
    exact (escapeChar c content).append later

theorem quote (text : List Char) :
    Lexes .ready ('"' :: (Rust.escapeDefault text ++ ['"'])) [] (.quoted text) := by
  have opened : Lexes .ready ['"'] [] (.str []) := ⟨by decide, rfl⟩
  have closed : Lexes (.str text) ['"'] [] (.quoted text) := ⟨by decide, rfl⟩
  exact opened.append ((escapeDefault text []).append closed)

end Lexes
end FreenetMigrate.Rust
