import FreenetMigrate.Pointer.Record

namespace FreenetMigrate.PointerClient

open Pointer

abbrev ContractInstanceId : Type := Fixed 32

inductive PointerError
  | paramsLength (length : Nat)
  | paramsKey
  | paramsKeyNonCanonical
  | paramsKeyWeak
  | paramsAppId (byte : UInt8)
  | stateLength (length : Nat)
  | zeroVersion
  | reservedVersion
  | signatureUnset
  | badSignature
  | floorVersion (version : UInt32)
  | floorTombstone
  deriving DecidableEq

def PointerError.mayUseBakedInFallback (_ : PointerError) : Bool := false

structure ResolvedPointer where
  version : UInt32
  codeHash : Fixed 32
  deriving DecidableEq

structure PointerFloor where
  version : UInt32
  codeHash : Option (Fixed 32)
  deriving DecidableEq

namespace PointerFloor

def neverResolved : PointerFloor := ⟨0, none⟩

def atVersion (version : UInt32) (codeHash : Fixed 32) : Except PointerError PointerFloor :=
  if version = 0 ∨ MAX_VERSION < version then .error (.floorVersion version)
  else if codeHash = TOMBSTONE_CODE_HASH then .error .floorTombstone
  else .ok ⟨version, some codeHash⟩

def withdrawnAt (version : UInt32) : Except PointerError PointerFloor :=
  if version = 0 ∨ MAX_VERSION < version then .error (.floorVersion version)
  else .ok ⟨version, some TOMBSTONE_CODE_HASH⟩

def isWithdrawn (floor : PointerFloor) : Bool := floor.codeHash == some TOMBSTONE_CODE_HASH

def hasEverResolved (floor : PointerFloor) : Bool := decide (0 < floor.version)

end PointerFloor

inductive PointerOutcome
  | resolved (pointer : ResolvedPointer)
  | unchanged (pointer : ResolvedPointer)
  | competingRecord (version : UInt32)
  | withdrawn (version : UInt32)
  | neverPublished
  | stale (served floor : UInt32)
  | unavailable
  deriving DecidableEq

namespace PointerOutcome

def mayUseBakedInFallback : PointerOutcome → Bool
  | .neverPublished => true
  | _ => false

def pointer : PointerOutcome → Option ResolvedPointer
  | .resolved r => some r
  | .unchanged r => some r
  | _ => none

/-- The floor to persist. An outcome that taught nothing has none. -/
def nextFloor : PointerOutcome → Option PointerFloor
  | .resolved r => (PointerFloor.atVersion r.version r.codeHash).toOption
  | .unchanged r => (PointerFloor.atVersion r.version r.codeHash).toOption
  | .withdrawn version => (PointerFloor.withdrawnAt version).toOption
  | .neverPublished => none
  | .stale _ _ => none
  | .competingRecord _ => none
  | .unavailable => none

end PointerOutcome

variable {VerifyingKey : Type} [Ed25519 VerifyingKey]

def pointerParams (authorVk : VerifyingKey) (appId : Bytes) : Except PointerError Bytes :=
  if appId.isEmpty || MAX_APP_ID_LEN < appId.length then
    .error (.paramsLength (VERIFYING_KEY_LEN + appId.length))
  else match appId.find? fun b => !isValidAppIdByte b with
    | some bad => .error (.paramsAppId bad)
    | none =>
      if isCanonicalFieldElement (Ed25519.asBytes authorVk) then
        if Ed25519.isWeak authorVk then .error .paramsKeyWeak
        else .ok ((Ed25519.asBytes authorVk).toList ++ appId)
      else .error .paramsKeyNonCanonical

/-- Read a record off a response. Checks the length only. -/
def decode (bytes : Bytes) : Except PointerError PointerRecord :=
  if h : bytes.length = STATE_LEN then .ok (.ofBytes bytes h) else .error (.stateLength bytes.length)

def verify (record : PointerRecord) (params : Bytes) (authorVk : VerifyingKey) :
    Except PointerError Unit :=
  if record.version = 0 then .error .zeroVersion
  else if MAX_VERSION < record.version then .error .reservedVersion
  else if record.signature = Fixed.zero 64 then .error .signatureUnset
  else if Ed25519.verifyStrict authorVk
      (signingMessage params record.version record.codeHash) record.signature then .ok ()
  else .error .badSignature

inductive Phase
  | fetching
  /-- The answer, until it is taken. -/
  | done (outcome : Option (Except PointerError PointerOutcome))

inductive Step
  | get (id : ContractInstanceId)
  | done
  deriving DecidableEq

structure PointerResolver (VerifyingKey : Type) where
  params : Bytes
  authorVk : VerifyingKey
  pointerId : ContractInstanceId
  floor : PointerFloor
  outstanding : Bool
  phase : Phase

namespace PointerResolver

/-- `contractId` is the hash of the frozen pointer code and the params. -/
def new (contractId : Bytes → ContractInstanceId) (authorVk : VerifyingKey) (appId : Bytes)
    (floor : PointerFloor) : Except PointerError (PointerResolver VerifyingKey) := do
  let params ← pointerParams authorVk appId
  return { params, authorVk, pointerId := contractId params, floor, outstanding := false,
           phase := .fetching }

def nextAction (resolver : PointerResolver VerifyingKey) : Step × PointerResolver VerifyingKey :=
  match resolver.phase with
  | .done _ => (.done, resolver)
  | .fetching => (.get resolver.pointerId, { resolver with outstanding := true })

def accepts (resolver : PointerResolver VerifyingKey) (id : ContractInstanceId) : Bool :=
  resolver.outstanding && id == resolver.pointerId &&
    match resolver.phase with
    | .done _ => false
    | .fetching => true

def adopt (record : PointerRecord) : PointerOutcome :=
  if record.isTombstone then .withdrawn record.version
  else .resolved ⟨record.version, record.codeHash⟩

def unchanged (record : PointerRecord) : PointerOutcome :=
  if record.isTombstone then .withdrawn record.version
  else .unchanged ⟨record.version, record.codeHash⟩

def order (resolver : PointerResolver VerifyingKey) (record : PointerRecord) : PointerOutcome :=
  match resolver.floor.codeHash with
  | none =>
    if resolver.floor.version = 0 then adopt record
    else if resolver.floor.version < record.version then adopt record
    else .stale record.version resolver.floor.version
  | some floorHash =>
    match compare record.version resolver.floor.version with
    | .lt => .stale record.version resolver.floor.version
    | .gt => adopt record
    | .eq =>
      match compare record.codeHash floorHash with
      | .lt => adopt record
      | .eq => unchanged record
      | .gt => .competingRecord record.version

def judge (resolver : PointerResolver VerifyingKey) (state : Bytes) :
    Except PointerError PointerOutcome :=
  if state.isEmpty then .ok .unavailable else do
    let record ← decode state
    verify record resolver.params resolver.authorVk
    return resolver.order record

def finish (resolver : PointerResolver VerifyingKey) (result : Except PointerError PointerOutcome) :
    PointerResolver VerifyingKey :=
  { resolver with outstanding := false, phase := .done (some result) }

def onResponse (resolver : PointerResolver VerifyingKey) (id : ContractInstanceId) (state : Bytes) :
    Bool × PointerResolver VerifyingKey :=
  if resolver.accepts id then (true, resolver.finish (resolver.judge state)) else (false, resolver)

def onAbsent (resolver : PointerResolver VerifyingKey) (id : ContractInstanceId) :
    Bool × PointerResolver VerifyingKey :=
  if resolver.accepts id then
    (true, resolver.finish (.ok (if resolver.floor.hasEverResolved then .unavailable
      else .neverPublished)))
  else (false, resolver)

def onUnreachable (resolver : PointerResolver VerifyingKey) (id : ContractInstanceId) :
    Bool × PointerResolver VerifyingKey :=
  if resolver.accepts id then (true, resolver.finish (.ok .unavailable)) else (false, resolver)

def takeOutcome (resolver : PointerResolver VerifyingKey) :
    Option (Except PointerError PointerOutcome) × PointerResolver VerifyingKey :=
  match resolver.phase with
  | .done outcome => (outcome, { resolver with phase := .done none })
  | .fetching => (none, resolver)

end PointerResolver

end FreenetMigrate.PointerClient
