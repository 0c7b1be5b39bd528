import FreenetMigrate.Pointer.Params

namespace FreenetMigrate.Pointer

class Signer (SigningKey VerifyingKey : Type) where
  fromBytes : Fixed 32 → SigningKey
  verifyingKey : SigningKey → VerifyingKey
  sign : SigningKey → Bytes → Fixed 64

/-- A signature verifies under the public half unless that is weak, and is never all zeros. -/
class LawfulSigner (SigningKey VerifyingKey : Type) [Ed25519 VerifyingKey]
    [Signer SigningKey VerifyingKey] : Prop where
  verifies : ∀ (key : SigningKey) (message : Bytes),
    Ed25519.isWeak (Signer.verifyingKey key : VerifyingKey) = false →
    Ed25519.verifyStrict (Signer.verifyingKey key : VerifyingKey) message
      (Signer.sign VerifyingKey key message) = true
  sign_ne_zero : ∀ (key : SigningKey) (message : Bytes),
    Signer.sign VerifyingKey key message ≠ Fixed.zero 64

end FreenetMigrate.Pointer

namespace FreenetMigrate.PointerContract

open Pointer PointerClient

variable {SigningKey VerifyingKey : Type} [Ed25519 VerifyingKey] [Signer SigningKey VerifyingKey]

variable (VerifyingKey) in
def signRecord (signingKey : SigningKey) (params : Bytes) (version : UInt32) (codeHash : Fixed 32) :
    Except PointerError PointerRecord :=
  if version = 0 then .error .zeroVersion
  else if MAX_VERSION < version then .error .reservedVersion
  else do
    let _ ← PointerParams.parse VerifyingKey params
    return ⟨version, codeHash,
      Signer.sign VerifyingKey signingKey (signingMessage params version codeHash)⟩

theorem signRecord_eq_ok {signingKey : SigningKey} {params : Bytes} {version : UInt32}
    {codeHash : Fixed 32} {record : PointerRecord} :
    signRecord VerifyingKey signingKey params version codeHash = .ok record ↔
      version ≠ 0 ∧ version ≤ MAX_VERSION ∧
      (∃ parsed, PointerParams.parse VerifyingKey params = .ok parsed) ∧
      record = ⟨version, codeHash,
        Signer.sign VerifyingKey signingKey (signingMessage params version codeHash)⟩ := by
  unfold signRecord
  by_cases zero : version = 0
  · simp [zero]
  · by_cases reserved : MAX_VERSION < version
    · simp [zero, reserved, not_le.mpr reserved]
    · cases parses : PointerParams.parse VerifyingKey params with
      | error e => simp [zero, reserved, Bind.bind, Except.bind]
      | ok parsed =>
        simp [zero, reserved, not_lt.mp reserved, Bind.bind, Except.bind, Pure.pure, Except.pure,
          eq_comm]

theorem verify_signRecord [LawfulSigner SigningKey VerifyingKey] {signingKey : SigningKey}
    {params : Bytes} {authorVk : VerifyingKey} {version : UInt32} {codeHash : Fixed 32}
    {record : PointerRecord} (strong : Ed25519.isWeak authorVk = false)
    (own : Signer.verifyingKey signingKey = authorVk)
    (signed : signRecord VerifyingKey signingKey params version codeHash = .ok record) :
    verify record params authorVk = .ok () := by
  obtain ⟨positive, below, -, rfl⟩ := signRecord_eq_ok.mp signed
  rw [verify_eq_ok]
  refine ⟨positive, fun top => not_lt.mpr below ((reserved_iff version).mpr top),
    LawfulSigner.sign_ne_zero _ _, ?_⟩
  rw [← own] at strong ⊢
  exact LawfulSigner.verifies signingKey _ strong

end FreenetMigrate.PointerContract
