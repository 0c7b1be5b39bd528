import FreenetMigrate.Import.Once
import FreenetMigrate.Journal.Cbor

namespace FreenetMigrate.Migrate

open Journal

inductive ExportError
  | unauthorizedOrigin
  | truncatedExport (returned cap : Nat)
  | codec (message : String)
  deriving DecidableEq

class ExportCiborium where
  intoWriter : ExportedSecrets → Except String Bytes
  fromReader : Bytes → Except String ExportedSecrets

class LawfulExportCiborium [ExportCiborium] : Prop where
  intoWriter_ok (exported : ExportedSecrets) :
    ∃ bytes, ExportCiborium.intoWriter exported = .ok bytes
  fromReader_intoWriter (exported : ExportedSecrets) {bytes : Bytes}
    (written : ExportCiborium.intoWriter exported = .ok bytes) :
    ExportCiborium.fromReader bytes = .ok exported

namespace ExportedSecrets

variable [ExportCiborium]

def toBytes (exported : ExportedSecrets) : Except ExportError Bytes :=
  (ExportCiborium.intoWriter exported).mapError .codec

def fromBytes (bytes : Bytes) : Except ExportError ExportedSecrets :=
  (ExportCiborium.fromReader bytes).mapError .codec

theorem toBytes_ok [LawfulExportCiborium] (exported : ExportedSecrets) :
    ∃ bytes, toBytes exported = .ok bytes ∧ fromBytes bytes = .ok exported := by
  obtain ⟨bytes, written⟩ := LawfulExportCiborium.intoWriter_ok exported
  refine ⟨bytes, ?_, ?_⟩
  · rw [toBytes, written]
    rfl
  · rw [fromBytes, LawfulExportCiborium.fromReader_intoWriter exported written]
    rfl

end ExportedSecrets

namespace ExportCbor

open Journal.Cbor

/-! The wire form of an export in CBOR: byte strings go as arrays of numbers, pairs as arrays of two. -/

def writeByte (byte : UInt8) : Bytes := writeUint 0 byte.toUInt32

def readByte (bytes : Bytes) : Option (UInt8 × Bytes) := do
  let (n, bytes) ← readUint 0 bytes
  some (n.toUInt8, bytes)

def writeSecretPair (pair : SecretPair) : Bytes :=
  0x82 :: (writeSeq writeByte pair.1 ++ writeSeq writeByte pair.2)

def readSecretPair (bytes : Bytes) : Option (SecretPair × Bytes) := do
  let (key, bytes) ← readSeq readByte (← expect [0x82] bytes)
  let (value, bytes) ← readSeq readByte bytes
  some ((key, value), bytes)

def exportStart : Bytes := 0xa2 :: writeText "source_generation"

def writeExport (exported : ExportedSecrets) : Bytes :=
  exportStart ++ (writeUint 0 exported.sourceGeneration ++
    (writeText "secrets" ++ writeSeq writeSecretPair exported.secrets))

def readExport (bytes : Bytes) : Option (ExportedSecrets × Bytes) := do
  let (sourceGeneration, bytes) ← readUint 0 (← expect exportStart bytes)
  let (secrets, bytes) ← readSeq readSecretPair (← expect (writeText "secrets") bytes)
  some (⟨sourceGeneration, secrets⟩, bytes)

scoped instance : ExportCiborium where
  intoWriter exported := .ok (writeExport exported)
  fromReader bytes := ((readExport bytes).map Prod.fst).elim (.error "invalid") .ok

theorem items_byte : Items writeByte readByte where
  reads byte rest := by
    unfold readByte writeByte
    rw [readUint_writeUint]
    simp only [Option.bind_eq_bind, Option.bind_some, UInt8.toUInt8_toUInt32]
  starts byte := by
    apply writeUint_head
    intro form small same
    rw [UInt8.zero_add] at same
    subst same
    revert small
    decide

theorem items_pair : Items writeSecretPair readSecretPair where
  reads pair rest := by
    unfold readSecretPair writeSecretPair
    have start := expect_append [0x82] (writeSeq writeByte pair.1 ++ (writeSeq writeByte pair.2 ++ rest))
    rw [List.singleton_append] at start
    rw [List.cons_append, List.append_assoc, start]
    simp only [Option.bind_eq_bind, Option.bind_some, items_byte.readSeq]
  starts pair := ⟨0x82, _, rfl, by decide⟩

theorem readExport_writeExport (exported : ExportedSecrets) :
    readExport (writeExport exported) = some (exported, []) := by
  unfold readExport writeExport
  have secrets := items_pair.readSeq exported.secrets []
  rw [List.append_nil] at secrets
  simp only [expect_append, Option.bind_eq_bind, Option.bind_some, readUint_writeUint, secrets]

scoped instance : LawfulExportCiborium where
  intoWriter_ok exported := ⟨writeExport exported, rfl⟩
  fromReader_intoWriter exported bytes written := by
    obtain rfl := Except.ok.inj written
    change ((readExport (writeExport exported)).map Prod.fst).elim _ _ = _
    rw [readExport_writeExport]
    rfl

end ExportCbor

end FreenetMigrate.Migrate
