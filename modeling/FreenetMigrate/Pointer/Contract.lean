import FreenetMigrate.Pointer.Record

namespace FreenetMigrate.PointerContract

open Pointer

inductive PointerError
  | paramsLength (length : Nat)
  | paramsKey
  | paramsKeyNonCanonical
  | paramsKeyWeak
  | paramsAppId (byte : UInt8)
  | stateLength (length : Nat)
  | zeroVersion
  | signatureUnset
  | badSignature
  | reservedVersion
  deriving DecidableEq

def hexDigit (value : Nat) : Char := if value < 10 then Char.ofNat (48 + value) else Char.ofNat (87 + value)

def hexByte (byte : UInt8) : String :=
  "0x" ++ String.ofList [hexDigit (byte.toNat / 16), hexDigit (byte.toNat % 16)]

def PointerError.display : PointerError → String
  | .paramsLength n => s!"pointer params must be {MIN_PARAMS_LEN}..={MAX_PARAMS_LEN} bytes, got {n}"
  | .paramsKey => "pointer params do not start with a valid Ed25519 key"
  | .paramsKeyNonCanonical =>
    "the author key is not a canonical Ed25519 encoding (y >= the field prime)"
  | .paramsKeyWeak => "the author key is small-order; no signature can ever verify under it"
  | .paramsAppId b => s!"invalid app_id byte {hexByte b}; allowed: a-z 0-9 . - _"
  | .stateLength n => s!"pointer state must be exactly {STATE_LEN} bytes, got {n}"
  | .zeroVersion => "pointer version 0 is reserved and never valid"
  | .reservedVersion =>
    "pointer version 4294967295 is reserved: a pointer there could never be superseded. " ++
      "Use a counter, not a timestamp"
  | .signatureUnset => "the pointer signature is all zeros: the record was built but never signed"
  | .badSignature =>
    "pointer signature verification failed. Ed25519 cannot distinguish the cause; check, in " ++
      "this order: (1) you signed with the private key matching the author_verifying_key in " ++
      "these exact params; (2) you signed over these exact params bytes, app_id included, not " ++
      "a different app's; (3) your signed message is DOMAIN || params || version_be || " ++
      "code_hash with version big-endian -- see TEST-VECTORS.md"

/-- The errors a contract call can end in, as the platform classifies them. -/
inductive ContractError
  | deser (message : String)
  | invalidUpdate
  | invalidUpdateWithInfo (reason : String)
  | invalidState
  | invalidDelta
  | other (message : String)
  deriving DecidableEq

def PointerError.toContractError : PointerError → ContractError
  | .stateLength _ | .zeroVersion | .reservedVersion | .signatureUnset | .badSignature => .invalidState
  | other => .other other.display

inductive ValidateResult
  | valid
  | invalid
  deriving DecidableEq

/-- One entry of an update. The payloads that are about another contract carry none for this one. -/
inductive UpdateData
  | state (state : Bytes)
  | delta (delta : Bytes)
  | stateAndDelta (state delta : Bytes)
  | relatedState (relatedTo : Fixed 32) (state : Bytes)
  | relatedDelta (relatedTo : Fixed 32) (delta : Bytes)
  | relatedStateAndDelta (relatedTo : Fixed 32) (state delta : Bytes)
  deriving DecidableEq

def UpdateData.payload : UpdateData → Option Bytes
  | .state bytes => some bytes
  | .delta bytes => some bytes
  | .stateAndDelta bytes _ => some bytes
  | _ => none

structure PointerParams (VerifyingKey : Type) where
  authorVk : VerifyingKey
  appId : Bytes
  deriving DecidableEq

variable {VerifyingKey : Type} [Ed25519 VerifyingKey]

namespace PointerParams

variable (VerifyingKey) in
def parse (bytes : Bytes) : Except PointerError (PointerParams VerifyingKey) :=
  if h : MIN_PARAMS_LEN ≤ bytes.length ∧ bytes.length ≤ MAX_PARAMS_LEN then
    let key : Fixed 32 := ⟨bytes.take 32, by
      simp only [MIN_PARAMS_LEN, VERIFYING_KEY_LEN] at h
      rw [List.length_take]
      omega⟩
    let appId := bytes.drop VERIFYING_KEY_LEN
    if isCanonicalFieldElement key then
      match Ed25519.fromBytes key with
      | none => .error .paramsKey
      | some (authorVk : VerifyingKey) =>
        if Ed25519.isWeak authorVk then .error .paramsKeyWeak else
        match appId.find? fun b => !isValidAppIdByte b with
        | some bad => .error (.paramsAppId bad)
        | none => .ok ⟨authorVk, appId⟩
    else .error .paramsKeyNonCanonical
  else .error (.paramsLength bytes.length)

def encode (authorVk : VerifyingKey) (appId : Bytes) : Except PointerError Bytes :=
  if appId.isEmpty || MAX_APP_ID_LEN < appId.length then
    .error (.paramsLength (VERIFYING_KEY_LEN + appId.length))
  else match appId.find? fun b => !isValidAppIdByte b with
    | some bad => .error (.paramsAppId bad)
    | none =>
      if isCanonicalFieldElement (Ed25519.asBytes authorVk) then
        if Ed25519.isWeak authorVk then .error .paramsKeyWeak
        else .ok ((Ed25519.asBytes authorVk).toList ++ appId)
      else .error .paramsKeyNonCanonical

end PointerParams

/-- Read a record off a state. Checks the length only. -/
def decode (bytes : Bytes) : Except PointerError PointerRecord :=
  if h : bytes.length = STATE_LEN then .ok (.ofBytes bytes h) else .error (.stateLength bytes.length)

def verify (record : PointerRecord) (params : Bytes) (authorVk : VerifyingKey) :
    Except PointerError Unit :=
  if record.version = 0 then .error .zeroVersion
  else if MAX_VERSION < record.version then .error .reservedVersion
  else if record.signature = Fixed.zero 64 then .error .signatureUnset
  else if Ed25519.verifyStrict authorVk
      (signingMessage params record.version record.codeHash) record.signature then .ok ()
  else .error .badSignature

variable (VerifyingKey) in
def decodeVerified (bytes params : Bytes) : Except PointerError PointerRecord := do
  let parsed ← PointerParams.parse VerifyingKey params
  let record ← decode bytes
  verify record params parsed.authorVk
  return record

/-- Higher version wins. At one version the lower encoding does. -/
def merge (current candidate : PointerRecord) : PointerRecord :=
  match compare candidate.version current.version with
  | .gt => candidate
  | .lt => current
  | .eq => if candidate.encode < current.encode then candidate else current

variable (VerifyingKey) in
def validateState (params state : Bytes) : Except ContractError ValidateResult := do
  let parsed ← (PointerParams.parse VerifyingKey params).mapError PointerError.toContractError
  match decode state >>= fun record => verify record params parsed.authorVk with
  | .ok () => return .valid
  | .error _ => return .invalid

/-- One entry of the batch against the best record so far and whether any candidate was seen. -/
def applyUpdate (params : Bytes) (authorVk : VerifyingKey) (progress : Option PointerRecord × Bool)
    (update : UpdateData) : Except ContractError (Option PointerRecord × Bool) :=
  match update.payload with
  | none => .ok progress
  | some bytes =>
    if bytes.isEmpty then .ok progress else do
      let candidate ← (decode bytes).mapError fun e => .deser e.display
      (verify candidate params authorVk).mapError fun e => .other e.display
      return (some (progress.1.elim candidate fun current => merge current candidate), true)

variable (VerifyingKey) in
def updateState (params state : Bytes) (data : List UpdateData) : Except ContractError Bytes := do
  let parsed ← (PointerParams.parse VerifyingKey params).mapError PointerError.toContractError
  let held := (decodeVerified VerifyingKey state params).toOption
  let (best, sawCandidate) ← data.foldlM (applyUpdate params parsed.authorVk) (held, false)
  if sawCandidate then
    match best with
    | some winner => return winner.encode
    -- The code panics here. It is never reached: a candidate that was seen is held.
    | none => throw (.other "saw_candidate implies best is Some")
  else
    match best with
    | some current => return current.encode
    | none => throw (.deser "no usable pointer record in the update, and no local state to keep")

variable (VerifyingKey) in
def summarizeState (params state : Bytes) : Except ContractError Bytes :=
  match decodeVerified VerifyingKey state params with
  | .error _ => .ok []
  | .ok record => .ok record.encode

variable (VerifyingKey) in
def getStateDelta (params state summary : Bytes) : Except ContractError Bytes :=
  match decodeVerified VerifyingKey state params with
  | .error _ => .ok []
  | .ok ours =>
    let owed := match (decodeVerified VerifyingKey summary params).toOption with
      | none => true
      | some theirs => merge theirs ours != theirs
    .ok (if owed then ours.encode else [])

inductive VectorKey
  | author
  deriving DecidableEq

def vectorKeyBytes : Fixed 32 := ⟨[
    0x8a, 0x88, 0xe3, 0xdd, 0x74, 0x09, 0xf1, 0x95, 0xfd, 0x52, 0xdb, 0x2d, 0x3c, 0xba, 0x5d, 0x72,
    0xca, 0x67, 0x09, 0xbf, 0x1d, 0x94, 0x12, 0x1b, 0xf3, 0x74, 0x88, 0x01, 0xb4, 0x0f, 0x6f, 0x5c], rfl⟩

def vectorAppId : Bytes := ascii "river.room-contract"

def vectorParams : Bytes := vectorKeyBytes.toList ++ vectorAppId

def vectorRecord : PointerRecord where
  version := 7
  codeHash := ⟨List.replicate 32 0xaa, rfl⟩
  signature := ⟨[
    0xee, 0x3c, 0x33, 0xcf, 0x7b, 0xac, 0x4f, 0x2c, 0x2d, 0xc4, 0xd3, 0xa0, 0xef, 0xf2, 0x30, 0x0a,
    0x12, 0x17, 0x4d, 0x44, 0x08, 0x4f, 0x34, 0x0d, 0x6d, 0x68, 0xc9, 0x8d, 0x63, 0xa6, 0x39, 0x53,
    0x5f, 0xec, 0xe9, 0xee, 0xd8, 0x5c, 0x22, 0x18, 0xaf, 0x2b, 0xa5, 0x66, 0xbd, 0xa2, 0x4f, 0x4c,
    0x63, 0xec, 0x2f, 0xca, 0x14, 0x0f, 0x6a, 0x35, 0xbc, 0x62, 0x30, 0x81, 0x1f, 0x27, 0xa1, 0x0d], rfl⟩

/-- Signature checking as far as the published vectors determine it: one key, one signed message. -/
instance : Ed25519 VectorKey where
  fromBytes bytes := if bytes = vectorKeyBytes then some .author else none
  asBytes _ := vectorKeyBytes
  isWeak _ := false
  verifyStrict _ message signature :=
    message == signingMessage vectorParams vectorRecord.version vectorRecord.codeHash &&
      signature == vectorRecord.signature

theorem parse_vectorParams :
    PointerParams.parse VectorKey vectorParams = .ok ⟨.author, vectorAppId⟩ := by decide +kernel

theorem decodeVerified_vectorRecord :
    decodeVerified VectorKey vectorRecord.encode vectorParams = .ok vectorRecord := by decide +kernel

end FreenetMigrate.PointerContract
