import FreenetMigrate.Bytes.LittleEndian
import FreenetMigrate.Pointer.Record

namespace FreenetMigrate.Successor

open Pointer

def SIGNING_DOMAIN : Bytes := ascii "freenet-migrate/successor-v1"

/-- The bytes a release holder signs: domain, code hash, little-endian generation, app id. -/
def signingMessage (successorCodeHash : Fixed 32) (generation : UInt32) (appId : Bytes) : Bytes :=
  SIGNING_DOMAIN ++ successorCodeHash.toList ++ (toLeBytes generation).toList ++ appId

structure SuccessorPointer where
  successorCodeHash : Fixed 32
  generation : UInt32
  sig : Fixed 64
  deriving DecidableEq

inductive MigrateError
  | badSignature
  | staleGeneration (pointer current : UInt32)
  | emptyAppId
  deriving DecidableEq

variable {VerifyingKey : Type} [Ed25519 VerifyingKey]

namespace SuccessorPointer

def verify (pointer : SuccessorPointer) (releasePk : VerifyingKey) (appId : Bytes) :
    Except MigrateError Unit :=
  if appId.isEmpty then .error .emptyAppId
  else if Ed25519.verifyStrict releasePk
      (signingMessage pointer.successorCodeHash pointer.generation appId) pointer.sig then .ok ()
  else .error .badSignature

def supersedes (pointer : SuccessorPointer) (currentGeneration : UInt32) : Bool :=
  currentGeneration < pointer.generation

def verifyAndCheckSupersedes (pointer : SuccessorPointer) (releasePk : VerifyingKey) (appId : Bytes)
    (currentGeneration : UInt32) : Except MigrateError Unit := do
  pointer.verify releasePk appId
  if !pointer.supersedes currentGeneration then
    throw (.staleGeneration pointer.generation currentGeneration)

theorem verify_eq_ok {pointer : SuccessorPointer} {releasePk : VerifyingKey} {appId : Bytes} :
    pointer.verify releasePk appId = .ok () ↔ appId ≠ [] ∧ Ed25519.verifyStrict releasePk
      (signingMessage pointer.successorCodeHash pointer.generation appId) pointer.sig = true := by
  unfold verify
  by_cases empty : appId = []
  · simp [empty]
  · simp [empty]

theorem verifyAndCheckSupersedes_eq_ok {pointer : SuccessorPointer} {releasePk : VerifyingKey}
    {appId : Bytes} {current : UInt32} :
    pointer.verifyAndCheckSupersedes releasePk appId current = .ok () ↔
      pointer.verify releasePk appId = .ok () ∧ current < pointer.generation := by
  unfold verifyAndCheckSupersedes supersedes
  cases verified : pointer.verify releasePk appId with
  | error e => simp [Bind.bind, Except.bind]
  | ok =>
    by_cases newer : current < pointer.generation
    · simp [newer, Bind.bind, Except.bind, Pure.pure, Except.pure]
    · simp [newer, Bind.bind, Except.bind, throw, throwThe, MonadExceptOf.throw]

end SuccessorPointer

theorem signingMessage_injective {codeHash otherHash : Fixed 32} {generation other : UInt32}
    {appId otherId : Bytes}
    (same : signingMessage codeHash generation appId = signingMessage otherHash other otherId) :
    codeHash = otherHash ∧ generation = other ∧ appId = otherId := by
  unfold signingMessage at same
  obtain ⟨fixed, ids⟩ := List.append_inj same (by simp)
  obtain ⟨hashes, generations⟩ := List.append_inj fixed (by simp)
  have hash := List.append_cancel_left hashes
  exact ⟨Fixed.ext hash, toLeBytes_injective (Fixed.ext generations), ids⟩

end FreenetMigrate.Successor
