import FreenetMigrate.Contract.Identity
import FreenetMigrate.Publisher.KeyFile
import FreenetMigrate.Publisher.Opts
import FreenetMigrate.Text.Decimal

namespace FreenetMigrate.Publisher

open Text Pointer PointerContract Build
open PointerClient (ContractInstanceId)

def FLAGS_KEY : List String := ["--author-vk", "--app-id"]

def FLAGS_SIGN : List String := ["--author-vk", "--app-id", "--version", "--code-hash"]

def CODEHASH : String :=
  "# The pointer contract's code hash: base58(BLAKE3(pointer-v1.wasm)).\n" ++
  "#\n" ++
  "# This value is the root of the whole convention. Every pointer key in the\n" ++
  "# ecosystem is BLAKE3(this || that pointer's params), so if this changes, every\n" ++
  "# published pointer re-keys and every consumer resolving through one is\n" ++
  "# stranded -- with no pointer left to point at the pointer.\n" ++
  "#\n" ++
  "# It is enforced by CI (`./build-wasm.sh --check`). Changing it is a flag day.\n" ++
  "# See WASM-STABILITY.md.\n" ++
  "8wnAPaSRY1oYZCz723fdwK6BgzL6q8ozP3buVovXnt6v\n"

def isCodeLine (l : List Char) : Bool := !("#".toList.isPrefixOf l) && !(trim l).isEmpty

/-- The first line that is neither blank nor a comment. -/
def pointerCodeHash : Option String :=
  ((lines CODEHASH.toList).find? isCodeLine).map fun line => .ofList (trim line)

/-- What the tool reads besides its arguments: standard input, as text or as bytes, and files. What
    the Ed25519 crate says of bytes that are no key is a text of its own. -/
structure Env where
  stdinText : Except String String
  stdinBytes : Except String Bytes
  file : String → Option (Except String Bytes)
  keyError : String

section Tool

variable [Bs58] [Blake3]

/-- `ContractKey::from_params`, of which only the instance is used. -/
def contractKeyFromParams (codeHash : String) (params : Bytes) : Except String ContractInstanceId :=
  (Bs58.onto 32 codeHash).map fun bytes =>
    Contract.contractIdFromCodeHash (filled 32 bytes) params

/-- The bytes of an app id that was accepted, which are ASCII. -/
def fromUtf8Lossy (bytes : Bytes) : String := .ofList (bytes.map fun byte => Char.ofNat byte.toNat)

variable {SigningKey VerifyingKey : Type} [Ed25519 VerifyingKey] [Signer SigningKey VerifyingKey]

namespace Opts

variable (VerifyingKey) in
def authorVk (opts : Opts) (env : Env) : Except String VerifyingKey := do
  let raw ← opts.req "--author-vk"
  rejectWrongKeyType raw "vk" "author verifying key"
  let bytes ← decodeKeyMaterial raw 32 "author verifying key"
  match Ed25519.fromBytes (filled 32 bytes) with
  | some vk => return vk
  | none => throw s!"--author-vk is not a valid ed25519 verifying key: {env.keyError}"

def appId (opts : Opts) : Except String Bytes := do
  let raw ← opts.req "--app-id"
  return utf8 raw.toList

def parseU32 (k v : String) : Except String UInt32 :=
  (u32FromStr v.toList).mapError fun e => s!"{k} must be a u32: {e.display}"

def reqU32 (opts : Opts) (k : String) : Except String UInt32 := do
  parseU32 k (← opts.req k)

def optU32 (opts : Opts) (k : String) : Except String (Option UInt32) :=
  match opts.get k with
  | none => .ok none
  | some v => (parseU32 k v).map some

def codeHash (opts : Opts) (k : String) : Except String (Fixed 32) := do
  let raw ← opts.req k
  let bytes ← decodeKeyMaterial raw 32 k
  return filled 32 bytes

def optCodeHash (opts : Opts) (k : String) : Except String (Option (Fixed 32)) :=
  match opts.get k with
  | none => .ok none
  | some _ => (opts.codeHash k).map some

/-- A file wins over hex. -/
def state (opts : Opts) (env : Env) : Except String Bytes := do
  let raw ← opts.req "--state"
  if raw == "-" then env.stdinBytes.mapError fun e => s!"reading --state from stdin: {e}"
  else match env.file raw with
    | some read => read.mapError fun e => s!"reading --state file '{raw}': {e}"
    | none => (fromHex (trim raw.toList)).mapError fun e =>
        s!"--state is neither a readable file nor hex: {e}"

end Opts

/-- The address of a pointer and its params. The code panics where CODEHASH has no line. -/
def derive (vk : VerifyingKey) (appId : Bytes) : Except String (ContractInstanceId × Bytes) := do
  let params ← (PointerParams.encode vk appId).mapError PointerError.display
  let key ← (contractKeyFromParams (pointerCodeHash.getD "") params).mapError fun e =>
    s!"deriving the pointer key from CODEHASH failed: {e}"
  return (key, params)

def keyLines (key : ContractInstanceId) (params : Bytes) : List String :=
  [s!"key={b58 key}", s!"params={toHex params}"]

def signRecordLines (sk : SigningKey) (expectedVk : VerifyingKey) (appId : Bytes) (version : UInt32)
    (codeHash : Fixed 32) : Except String (List String) :=
  let actualVk : VerifyingKey := Signer.verifyingKey sk
  if Ed25519.asBytes actualVk ≠ Ed25519.asBytes expectedVk then
    .error ("the signing key on stdin does NOT match --author-vk.\n" ++
      s!"  --author-vk (expected, from the app's FREENET.md): {toHex (Ed25519.asBytes expectedVk).toList}\n" ++
      s!"  stdin key derives to                             : {toHex (Ed25519.asBytes actualVk).toList}\n" ++
      "Refusing to sign. Either the key file is not the app's author key, or\n" ++
      "FREENET.md publishes a key the app no longer signs with. Both are\n" ++
      "worth stopping for.")
  else do
    let (key, params) ← derive actualVk appId
    let record ← (signRecord VerifyingKey sk params version codeHash).mapError PointerError.display
    let _ ← (decodeVerified VerifyingKey record.encode params).mapError fun e =>
      s!"BUG: freshly signed record does not verify: {e.display}"
    return keyLines key params ++
      [s!"version={version}", s!"code_hash={toHex codeHash.toList}", s!"state={toHex record.encode}"]

def mismatches (key : ContractInstanceId) (record : PointerRecord) (expectVersion : Option UInt32)
    (expectCodeHash : Option (Fixed 32)) (expectKey : Option String) : List String :=
  ((expectVersion.filter fun want => record.version != want).toList.map fun want =>
      s!"version: expected {want}, record has {record.version}") ++
    ((expectCodeHash.filter fun want => record.codeHash != want).toList.map fun want =>
      s!"code_hash: expected {toHex want.toList}, record has {toHex record.codeHash.toList}") ++
    ((expectKey.filter fun want => b58 key != want).toList.map fun want =>
      s!"key: expected {want}, derives to {b58 key}")

def verifyRecordLines (vk : VerifyingKey) (appId state : Bytes) (expectVersion : Option UInt32)
    (expectCodeHash : Option (Fixed 32)) (expectKey : Option String) : Except String (List String) := do
  let (key, params) ← derive vk appId
  let record ← (decodeVerified VerifyingKey state params).mapError fun e =>
    s!"record does not verify under author_vk={toHex (Ed25519.asBytes vk).toList} " ++
      s!"app_id={fromUtf8Lossy appId}: {e.display}"
  let bad := mismatches key record expectVersion expectCodeHash expectKey
  if !bad.isEmpty then
    throw ("the record's SIGNATURE is valid, but it does not say what was expected:\n  " ++
      "\n  ".intercalate bad)
  return [s!"key={b58 key}", s!"version={record.version}",
    s!"code_hash={toHex record.codeHash.toList}", "verified=true"]

variable (VerifyingKey) in
def cmdKey (opts : Opts) (env : Env) : Except String (List String) := do
  let vk ← opts.authorVk VerifyingKey env
  let appId ← opts.appId
  let (key, params) ← derive vk appId
  return keyLines key params

def readSigningKeyFromStdin (SigningKey VerifyingKey : Type) [Signer SigningKey VerifyingKey]
    (env : Env) : Except String SigningKey := do
  let buf ← env.stdinText.mapError fun e => s!"reading the signing key from stdin: {e}"
  signingKeyFromText VerifyingKey buf

variable (SigningKey VerifyingKey) in
def cmdSign (opts : Opts) (env : Env) : Except String (List String) := do
  let expectedVk ← opts.authorVk VerifyingKey env
  let appId ← opts.appId
  let version ← opts.reqU32 "--version"
  let codeHash ← opts.codeHash "--code-hash"
  let sk ← readSigningKeyFromStdin SigningKey VerifyingKey env
  signRecordLines sk expectedVk appId version codeHash

variable (VerifyingKey) in
def cmdVerify (opts : Opts) (env : Env) : Except String (List String) := do
  let vk ← opts.authorVk VerifyingKey env
  let appId ← opts.appId
  let state ← opts.state env
  let expectVersion ← opts.optU32 "--expect-version"
  let expectCodeHash ← opts.optCodeHash "--expect-code-hash"
  verifyRecordLines vk appId state expectVersion expectCodeHash (opts.get "--expect-key")

def println (lines : List String) : String := String.join (lines.map (· ++ "\n"))

variable (SigningKey VerifyingKey) in
def run (env : Env) : List String → Except String String
  | [] => .error ("no subcommand given\n\n" ++ USAGE)
  | cmd :: rest =>
    if cmd == "key" then do
      return println (← cmdKey VerifyingKey (← Opts.parse rest FLAGS_KEY) env)
    else if cmd == "sign" then do
      return println (← cmdSign SigningKey VerifyingKey (← Opts.parse rest FLAGS_SIGN) env)
    else if cmd == "verify" then do
      return println (← cmdVerify VerifyingKey (← Opts.parse rest FLAGS_VERIFY) env)
    else if ["-h", "--help", "help"].contains cmd then .ok USAGE
    else .error ("unknown subcommand '" ++ cmd ++ "'\n\n" ++ USAGE)

end Tool

end FreenetMigrate.Publisher
