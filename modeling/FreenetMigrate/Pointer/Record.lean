import FreenetMigrate.Bytes.Fixed
import Mathlib.Data.Prod.Lex

namespace FreenetMigrate.Pointer

def SIGNING_DOMAIN : Bytes := ascii "freenet-pointer/state-v1"
def VERIFYING_KEY_LEN : Nat := 32
def CODE_HASH_LEN : Nat := 32
def SIGNATURE_LEN : Nat := 64
def STATE_LEN : Nat := 4 + CODE_HASH_LEN + SIGNATURE_LEN

/-- `u32::MAX` is reserved: a record there could never be superseded. -/
def MAX_VERSION : UInt32 := 4294967294

/-- The all-zero code hash: the app is withdrawn. -/
def TOMBSTONE_CODE_HASH : Fixed 32 := Fixed.zero 32

def MAX_APP_ID_LEN : Nat := 64
def MIN_PARAMS_LEN : Nat := VERIFYING_KEY_LEN + 1
def MAX_PARAMS_LEN : Nat := VERIFYING_KEY_LEN + MAX_APP_ID_LEN

/-- What the Ed25519 crate offers. Whether bytes are a point, whether a key is weak and whether a
    signature verifies are arbitrary here. -/
class Ed25519 (VerifyingKey : Type) where
  fromBytes : Fixed 32 → Option VerifyingKey
  asBytes : VerifyingKey → Fixed 32
  isWeak : VerifyingKey → Bool
  verifyStrict : VerifyingKey → Bytes → Fixed 64 → Bool

def isValidAppIdByte (b : UInt8) : Bool :=
  (97 ≤ b && b ≤ 122) || (48 ≤ b && b ≤ 57) || b == 46 || b == 45 || b == 95

/-- `2^255 - 19`, little-endian. -/
def fieldPrime : Bytes := 0xed :: (List.replicate 30 0xff ++ [0x7f])

/-- Compare two byte strings from the top down, deciding at the first difference. -/
def lessFromTop : Bytes → Bytes → Bool
  | y :: ys, p :: ps => if y < p then true else if p < y then false else lessFromTop ys ps
  | _, _ => false

def isCanonicalFieldElement (bytes : Fixed 32) : Bool :=
  let y := bytes.toList.set 31 (bytes.toList.getD 31 0 &&& 0x7f)
  lessFromTop y.reverse fieldPrime.reverse

structure PointerRecord where
  version : UInt32
  codeHash : Fixed 32
  signature : Fixed 64
  deriving DecidableEq

/-- The bytes an author signs: domain, params, big-endian version, code hash. -/
def signingMessage (params : Bytes) (version : UInt32) (codeHash : Fixed 32) : Bytes :=
  SIGNING_DOMAIN ++ params ++ (toBeBytes version).toList ++ codeHash.toList

namespace PointerRecord

def ofBytes (bytes : Bytes) (length : bytes.length = STATE_LEN) : PointerRecord where
  version := fromBeBytes ⟨bytes.take 4, by simp [length, STATE_LEN, CODE_HASH_LEN, SIGNATURE_LEN]⟩
  codeHash := ⟨(bytes.drop 4).take 32, by simp [length, STATE_LEN, CODE_HASH_LEN, SIGNATURE_LEN]⟩
  signature := ⟨bytes.drop (4 + CODE_HASH_LEN), by
    simp [length, STATE_LEN, CODE_HASH_LEN, SIGNATURE_LEN]⟩

def encode (record : PointerRecord) : Bytes :=
  (toBeBytes record.version).toList ++ record.codeHash.toList ++ record.signature.toList

def isTombstone (record : PointerRecord) : Bool := record.codeHash == TOMBSTONE_CODE_HASH

@[simp] theorem encode_length (record : PointerRecord) : record.encode.length = STATE_LEN := by
  simp [encode, STATE_LEN, CODE_HASH_LEN, SIGNATURE_LEN]

theorem encode_ne_nil (record : PointerRecord) : record.encode ≠ [] := by
  intro empty
  have length := record.encode_length
  rw [empty] at length
  cases length

@[simp] theorem ofBytes_encode (record : PointerRecord) (length : record.encode.length = STATE_LEN) :
    ofBytes record.encode length = record := by
  obtain ⟨version, ⟨hash, hashLength⟩, ⟨signature, signatureLength⟩⟩ := record
  simp only [ofBytes, encode, CODE_HASH_LEN, mk.injEq, Fixed.mk.injEq]
  refine ⟨?_, ?_, ?_⟩
  · rw [← fromBeBytes_toBeBytes version]
    congr 1
    apply Fixed.ext
    simp
  · simp [hashLength]
  · simp [List.drop_append, hashLength]

@[simp] theorem encode_ofBytes (bytes : Bytes) (length : bytes.length = STATE_LEN) :
    (ofBytes bytes length).encode = bytes := by
  simp only [encode, ofBytes, toBeBytes_fromBeBytes, CODE_HASH_LEN]
  rw [← List.drop_drop, List.append_assoc, List.take_append_drop, List.take_append_drop]

theorem encode_injective : Function.Injective encode := by
  intro left right same
  rw [← ofBytes_encode left left.encode_length, ← ofBytes_encode right right.encode_length]
  simp only [same]

end PointerRecord
end FreenetMigrate.Pointer
