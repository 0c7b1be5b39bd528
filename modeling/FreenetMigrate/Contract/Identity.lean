import FreenetMigrate.Build.Validate
import FreenetMigrate.Pointer.Params
import FreenetMigrate.Probe.Driver

namespace FreenetMigrate.Contract

open Text Build Probe
open PointerClient (ContractInstanceId)

/-- What carrying a contract forward can fail with. A code hash is shown with what is wrong with it. -/
inductive MigrateError
  | merge (reason : String)
  | verify (reason : String)
  | badCodeHash (value reason : String)
  | codec (reason : String)
  deriving DecidableEq

def contractIdFromCodeHash [Blake3] (codeHash : Fixed 32) (params : Parameters) : ContractInstanceId :=
  Blake3.hash (codeHash.toList ++ params)

def predecessorIds [Blake3] (params : Parameters) (lineage : List ContractLineageEntry) :
    List ContractInstanceId :=
  lineage.map fun e => contractIdFromCodeHash e.codeHash params

variable [Bs58]

def decodeB58_32 (s : String) : Except MigrateError (Fixed 32) :=
  match Bs58.onto 32 s with
  | .error e => .error (.badCodeHash s e)
  | .ok bytes =>
    if bytes.length ≠ 32 then
      .error (.badCodeHash s s!"decoded {bytes.length} bytes, expected 32")
    else .ok (filled 32 bytes)

def contractIdFromCodeHashB58 [Blake3] (codeHashB58 : String) (params : Parameters) :
    Except MigrateError ContractInstanceId := do
  let codeHash ← decodeB58_32 codeHashB58
  return contractIdFromCodeHash codeHash params

theorem decodeB58_32_eq_ok [LawfulBs58] {s : String} {hash : Fixed 32} :
    decodeB58_32 s = .ok hash ↔ Base58.encode hash.toList = s := by
  unfold decodeB58_32
  constructor
  · intro read
    split at read
    · cases read
    · rename_i bytes written
      split at read
      · cases read
      · rename_i fits
        obtain rfl := Except.ok.inj read
        rw [filled_toList (by simpa using fits)]
        exact Base58.encode_of_decode (LawfulBs58.onto_eq_ok.mp written).1
  · rintro rfl
    have written : Bs58.onto 32 (Base58.encode hash.toList) = .ok hash.toList :=
      LawfulBs58.onto_eq_ok.mpr ⟨Base58.decode_encode _, hash.length_toList.le⟩
    have whole : filled 32 hash.toList = hash := Fixed.ext (filled_toList hash.length_toList)
    rw [written]
    simp only [Fixed.length_toList, ne_eq, not_true_eq_false, if_false, whole]

end FreenetMigrate.Contract

namespace FreenetMigrate.PointerClient

open Text Build Contract Pointer

def POINTER_CODE_HASH_B58 : String := "8wnAPaSRY1oYZCz723fdwK6BgzL6q8ozP3buVovXnt6v"

variable [Bs58] [Blake3]

/-- The address of the pointer with these params. The code panics where the constant does not decode. -/
def pointerContractIdFromParams (params : Bytes) : Option ContractInstanceId :=
  (decodeB58_32 POINTER_CODE_HASH_B58).toOption.map fun codeHash =>
    contractIdFromCodeHash codeHash params

def pointerContractId {VerifyingKey : Type} [Ed25519 VerifyingKey] (authorVk : VerifyingKey)
    (appId : Bytes) : Option (Except PointerError ContractInstanceId) :=
  match pointerParams authorVk appId with
  | .error e => some (.error e)
  | .ok params => (pointerContractIdFromParams params).map .ok

def pointerCodeHash : Fixed 32 := ⟨[
    0x76, 0x0a, 0x3c, 0xa4, 0x1c, 0x63, 0x09, 0x11, 0x2f, 0x1d, 0xdb, 0xff, 0x03, 0x2f, 0xde, 0x9b,
    0x64, 0x29, 0xc8, 0xfb, 0x0a, 0xd6, 0xf5, 0xa2, 0xbc, 0xb7, 0x18, 0x45, 0x08, 0xee, 0x30, 0x0b], rfl⟩

omit [Bs58] [Blake3] in
theorem encode_pointerCodeHash : Base58.encode pointerCodeHash.toList = POINTER_CODE_HASH_B58 := by
  apply Base58.encode_of_decode
  decide +kernel

theorem pointerContractIdFromParams_eq [LawfulBs58] (params : Bytes) :
    pointerContractIdFromParams params = some (contractIdFromCodeHash pointerCodeHash params) := by
  rw [pointerContractIdFromParams, decodeB58_32_eq_ok.mpr encode_pointerCodeHash]
  rfl

end FreenetMigrate.PointerClient
