import FreenetMigrate.Build.Outcome
import FreenetMigrate.Text.Slice
import FreenetMigrate.Text.Hex

namespace FreenetMigrate.Build

open Text

inductive BuildError
  | invalidCodeHash (value reason : String)
  | invalidParams (value reason : String)
  | duplicateGeneration (component : String) (generation : UInt32)
  | duplicateCodeHash (component codeHash : String)
  | delegateKeyMismatch (generation : UInt32) (expected found : String)
  | nothingToEmit
  deriving DecidableEq

/-- The base58 crate: its encoder, and its decoder into an array of some length. The decoder's bytes
    are the ones it wrote, its error is the text it displays. -/
class Bs58 where
  encode : Bytes → String
  onto : Nat → String → Except String Bytes

class Blake3 where
  hash : Bytes → Fixed 32

def filled (n : Nat) (bytes : Bytes) : Fixed n :=
  ⟨(bytes ++ List.replicate n 0).take n, by simp⟩

def decodePairs (value : List Char) : List Nat → Outcome String Bytes
  | [] => pure []
  | i :: rest => do
    let pair ← Outcome.orPanic (slice value i (i + 2))
    let byte ← Outcome.ofExcept ((fromStrRadix16 pair).mapError ParseIntError.display)
    return byte :: (← decodePairs value rest)

def decodeHex (value : String) : Outcome String Bytes :=
  let text := value.toList
  if !isAscii text then throw "contains non-ASCII characters"
  else if len text % 2 ≠ 0 then throw s!"odd length {len text}"
  else decodePairs text (List.range' 0 ((len text + 1) / 2) 2)

structure ContractRow where
  generation : UInt32
  codeHash : String
  note : String
  deriving DecidableEq

structure DelegateRow where
  generation : UInt32
  codeHash : String
  delegateKey : String
  paramsHex : String
  irregularKey : Bool
  note : String
  deriving DecidableEq

structure Registry where
  contract : List ContractRow
  delegate : List DelegateRow
  deriving DecidableEq

def DelegateRow.paramsBytes (row : DelegateRow) : Outcome BuildError Bytes :=
  (decodeHex row.paramsHex).adapt fun reason => .invalidParams row.paramsHex reason

section Hashes

variable [Bs58]

def decodeHash32 (value : String) : Outcome BuildError (Fixed 32) :=
  let text := value.toList
  if len text = 64 ∧ (text.all fun c => (toDigit16 c).isSome) = true then do
    let bytes ← (decodePairs text (List.range' 0 32 2)).adapt fun reason =>
      .invalidCodeHash value reason
    return filled 32 bytes
  else do
    let bytes ← Outcome.ofExcept ((Bs58.onto 32 value).mapError fun e =>
      .invalidCodeHash value ("not 64-char hex, and not base58: " ++ e))
    if bytes.length ≠ 32 then
      throw (.invalidCodeHash value s!"base58 decoded {bytes.length} bytes, expected 32")
    return filled 32 bytes

def ContractRow.codeHashBytes (row : ContractRow) : Outcome BuildError (Fixed 32) :=
  decodeHash32 row.codeHash

def DelegateRow.codeHashBytes (row : DelegateRow) : Outcome BuildError (Fixed 32) :=
  decodeHash32 row.codeHash

def DelegateRow.delegateKeyBytes (row : DelegateRow) : Outcome BuildError (Fixed 32) :=
  decodeHash32 row.delegateKey

def b58 (bytes : Fixed 32) : String := Bs58.encode bytes.toList

def seeRow (component : String) (seen : List UInt32 × List (Fixed 32)) (row : UInt32 × String) :
    Outcome BuildError (List UInt32 × List (Fixed 32)) := do
  let decoded ← decodeHash32 row.2
  if seen.1.contains row.1 then throw (.duplicateGeneration component row.1)
  else if seen.2.contains decoded then throw (.duplicateCodeHash component row.2)
  else return (row.1 :: seen.1, decoded :: seen.2)

def validateUnique (component : String) (gensAndHashes : List (UInt32 × String)) :
    Outcome BuildError PUnit := do
  let _ ← gensAndHashes.foldlM (seeRow component) ([], [])

end Hashes

def deriveDelegateKey [Blake3] (codeHash : Fixed 32) (params : Bytes) : Fixed 32 :=
  Blake3.hash (codeHash.toList ++ params)

variable [Bs58] [Blake3]

/-- The cross-check of one row: the flag is set on the rows whose key does not derive, on no other. -/
def DelegateRow.checkKey (row : DelegateRow) : Outcome BuildError PUnit := do
  let codeHash ← row.codeHashBytes
  let delegateKey ← row.delegateKeyBytes
  let params ← row.paramsBytes
  let derived := deriveDelegateKey codeHash params
  if row.irregularKey = true ∧ derived = delegateKey then
    throw (.delegateKeyMismatch row.generation
      "the stored key itself — it derives correctly, so remove `irregular_key = true`"
      row.delegateKey)
  else if row.irregularKey = false ∧ derived ≠ delegateKey then
    throw (.delegateKeyMismatch row.generation (b58 derived) row.delegateKey)

def Registry.validate (registry : Registry) : Outcome BuildError PUnit := do
  validateUnique "contract" (registry.contract.map fun row => (row.generation, row.codeHash))
  validateUnique "delegate" (registry.delegate.map fun row => (row.generation, row.codeHash))
  registry.delegate.forM DelegateRow.checkKey

end FreenetMigrate.Build
