import FreenetMigrate.Import.Carriage
import FreenetMigrate.Import.Enumeration
import FreenetMigrate.Pointer.Resolver

namespace FreenetMigrate.Migrate

open SecretStore
open PointerClient (ContractInstanceId)

/-- The caller that the runtime attests. The type may grow. -/
inductive MessageOrigin
  | webApp (id : ContractInstanceId)
  | delegate (key : DelegateKey)
  | other (kind : Nat)
  deriving DecidableEq

inductive OriginPolicy
  | sameWebApp (id : ContractInstanceId)
  | fromDelegate (key : DelegateKey)
  | any
  deriving DecidableEq

namespace OriginPolicy

/-- A caller that nobody attests is never trusted, except by the policy that takes anyone. -/
def authorize : OriginPolicy → Option MessageOrigin → Except ExportError Unit
  | any, _ => .ok ()
  | _, none => .error .unauthorizedOrigin
  | sameWebApp id, some (.webApp origin) =>
    if origin = id then .ok () else .error .unauthorizedOrigin
  | fromDelegate key, some (.delegate origin) =>
    if origin = key then .ok () else .error .unauthorizedOrigin
  | _, _ => .error .unauthorizedOrigin

def Admits : OriginPolicy → Option MessageOrigin → Prop
  | sameWebApp id, origin => origin = some (.webApp id)
  | fromDelegate key, origin => origin = some (.delegate key)
  | any, _ => True

theorem authorize_cases (policy : OriginPolicy) (origin : Option MessageOrigin) :
    (policy.Admits origin ∧ policy.authorize origin = .ok ()) ∨
      (¬ policy.Admits origin ∧ policy.authorize origin = .error .unauthorizedOrigin) := by
  cases policy with
  | any => exact .inl ⟨trivial, by cases origin <;> rfl⟩
  | sameWebApp id =>
    simp only [Admits]
    rcases origin with _ | (other | _ | _)
    · exact .inr ⟨by simp, rfl⟩
    · by_cases same : other = id
      · exact .inl ⟨by rw [same], if_pos same⟩
      · exact .inr ⟨by simp [same], if_neg same⟩
    · exact .inr ⟨by simp, rfl⟩
    · exact .inr ⟨by simp, rfl⟩
  | fromDelegate key =>
    simp only [Admits]
    rcases origin with _ | (_ | other | _)
    · exact .inr ⟨by simp, rfl⟩
    · exact .inr ⟨by simp, rfl⟩
    · by_cases same : other = key
      · exact .inl ⟨by rw [same], if_pos same⟩
      · exact .inr ⟨by simp [same], if_neg same⟩
    · exact .inr ⟨by simp, rfl⟩

theorem authorize_of_admits {policy : OriginPolicy} {origin : Option MessageOrigin}
    (admitted : policy.Admits origin) : policy.authorize origin = .ok () := by
  rcases policy.authorize_cases origin with ⟨-, taken⟩ | ⟨unmatched, -⟩
  · exact taken
  · exact absurd admitted unmatched

end OriginPolicy

structure SingleAppDelegateAck

inductive ExportScope
  | keyPrefix (start : Bytes)
  | entireDelegate (ack : SingleAppDelegateAck)

structure ExportRequest where
  sourceGeneration : UInt32

structure ApplicationMessage where
  payload : Bytes
  processed : Bool

def ApplicationMessage.new (payload : Bytes) : ApplicationMessage := ⟨payload, false⟩

inductive OutboundDelegateMsg
  | applicationMessage (message : ApplicationMessage)

section Model

variable {Store : Type} [SecretStore Store]

/-- One listed key: never a marker, and nothing where the store has no value for it. -/
def exportKey (store : Store) (out : List SecretPair) (key : Bytes) : List SecretPair :=
  if isMarker key then out
  else match getSecret store key with
    | some value => out ++ [(key, value)]
    | none => out

/-- The secrets of a scope. The whole scope must be short of the cap, also for one prefix of it. -/
def exportScoped (store : Store) (scope : ExportScope) : Except ExportError (List SecretPair) :=
  let allKeys := listSecrets store []
  if HOST_ENUMERATION_CAP ≤ allKeys.length then
    .error (.truncatedExport allKeys.length HOST_ENUMERATION_CAP)
  else
    let keys := match scope with
      | .entireDelegate _ => allKeys
      | .keyPrefix start => listSecrets store start
    .ok (keys.foldl (exportKey store) [])

def handleExportRequest [ExportCiborium] (store : Store) (origin : Option MessageOrigin)
    (policy : OriginPolicy) (scope : ExportScope) (req : ExportRequest) :
    Except ExportError (List OutboundDelegateMsg) := do
  policy.authorize origin
  let secrets ← exportScoped store scope
  let payload ← ExportedSecrets.toBytes ⟨req.sourceGeneration, secrets⟩
  return [.applicationMessage { ApplicationMessage.new payload with processed := true }]

end Model

def ExportScope.start : ExportScope → Bytes
  | .keyPrefix start => start
  | .entireDelegate _ => []

section Statement

variable {Store : Type} [SecretStore Store]

/-- One pair for every key of the app that the scope lists, with the store's value, and no other. -/
structure CompleteExport (store : Store) (scope : ExportScope) (secrets : List SecretPair) : Prop where
  once : ∀ key ∈ listSecrets store scope.start, isMarker key = false →
    ∃ value, getSecret store key = some value ∧
      secrets.filter (fun pair => pair.1 = key) = [(key, value)]
  within : ∀ pair ∈ secrets, pair.1 ∈ listSecrets store scope.start ∧ isMarker pair.1 = false ∧
    scope.start <+: pair.1

structure CompleteOrRefused [ExportCiborium] (store : Store) (origin : Option MessageOrigin)
    (policy : OriginPolicy) (scope : ExportScope) (req : ExportRequest) : Prop where
  complete : ∀ messages, handleExportRequest store origin policy scope req = .ok messages →
    ∃ payload exported, messages = [.applicationMessage ⟨payload, true⟩] ∧
      ExportedSecrets.fromBytes payload = .ok exported ∧ CompleteExport store scope exported.secrets
  truncated : HOST_ENUMERATION_CAP ≤ (listSecrets store []).length →
    ∃ error, handleExportRequest store origin policy scope req = .error error
  unreadable : ∀ key ∈ listSecrets store scope.start, isMarker key = false →
    getSecret store key = none →
      ∃ error, handleExportRequest store origin policy scope req = .error error
  unauthorized : policy ≠ .any → ¬ policy.Admits origin →
    ∃ error, handleExportRequest store origin policy scope req = .error error

/-- Every key of the app that the scope lists can be read, and is listed once. -/
def ReadableOnce (store : Store) (scope : ExportScope) : Prop :=
  ∀ key ∈ listSecrets store scope.start, isMarker key = false →
    (getSecret store key).isSome = true ∧ (listSecrets store scope.start).count key = 1

end Statement

section Main

variable {Store : Type} [SecretStore Store] {store : Store} {scope : ExportScope}

def exportedPair (store : Store) (key : Bytes) : Option SecretPair :=
  if isMarker key then none else (getSecret store key).map fun value => (key, value)

theorem exportedPair_eq_some {key : Bytes} {pair : SecretPair} :
    exportedPair store key = some pair ↔
      isMarker key = false ∧ pair.1 = key ∧ getSecret store key = some pair.2 := by
  unfold exportedPair
  obtain ⟨name, value⟩ := pair
  cases marker : isMarker key with
  | true => simp
  | false =>
    rw [if_neg (by decide), Option.map_eq_some_iff]
    constructor
    · rintro ⟨found, held, same⟩
      obtain ⟨rfl, rfl⟩ := Prod.mk.inj same
      exact ⟨rfl, rfl, held⟩
    · rintro ⟨-, rfl, held⟩
      exact ⟨value, held, rfl⟩

theorem exportKey_eq (out : List SecretPair) (key : Bytes) :
    exportKey store out key = out ++ (exportedPair store key).toList := by
  unfold exportKey exportedPair
  split
  · exact (List.append_nil out).symm
  · cases getSecret store key with
    | none => exact (List.append_nil out).symm
    | some value => rfl

theorem foldl_exportKey (keys : List Bytes) (out : List SecretPair) :
    keys.foldl (exportKey store) out = out ++ keys.filterMap (exportedPair store) := by
  induction keys generalizing out with
  | nil => exact (List.append_nil out).symm
  | cons key rest ih =>
    rw [List.foldl_cons, ih, exportKey_eq, List.append_assoc]
    cases pair : exportedPair store key with
    | none => rw [List.filterMap_cons_none pair, Option.toList_none, List.nil_append]
    | some pair' => rw [List.filterMap_cons_some pair, Option.toList_some, List.singleton_append]

theorem filter_exported (keys : List Bytes) {key : Bytes} {pair : SecretPair}
    (found : exportedPair store key = some pair) :
    (keys.filterMap (exportedPair store)).filter (fun pair => pair.1 = key) =
      List.replicate (keys.count key) pair := by
  have named : pair.1 = key := (exportedPair_eq_some.mp found).2.1
  induction keys with
  | nil => rfl
  | cons other rest ih =>
    by_cases same : other = key
    · subst same
      rw [List.filterMap_cons_some found, List.filter_cons, if_pos (decide_eq_true named), ih,
        List.count_cons_self, List.replicate_succ]
    · rw [List.count_cons_of_ne same]
      cases came : exportedPair store other with
      | none => rw [List.filterMap_cons_none came, ih]
      | some pair' =>
        have apart : pair'.1 ≠ key := (exportedPair_eq_some.mp came).2.1.trans_ne same
        rw [List.filterMap_cons_some came, List.filter_cons, if_neg (by simpa using apart), ih]

theorem exportScoped_eq (short : (listSecrets store []).length < HOST_ENUMERATION_CAP) :
    exportScoped store scope = .ok ((listSecrets store scope.start).filterMap (exportedPair store)) := by
  unfold exportScoped
  rw [if_neg (Nat.not_le.mpr short)]
  cases scope <;> exact congrArg Except.ok (foldl_exportKey _ [])

theorem completeExport_iff
    (lists : ∀ start key, key ∈ listSecrets store start → start <+: key) :
    CompleteExport store scope ((listSecrets store scope.start).filterMap (exportedPair store)) ↔
      ReadableOnce store scope := by
  constructor
  · intro complete key listed app
    obtain ⟨value, held, alone⟩ := complete.once key listed app
    have found : exportedPair store key = some (key, value) := exportedPair_eq_some.mpr ⟨app, rfl, held⟩
    rw [filter_exported _ found] at alone
    have one := congrArg List.length alone
    rw [List.length_replicate] at one
    exact ⟨by rw [held, Option.isSome_some], one⟩
  · intro readable
    constructor
    · intro key listed app
      obtain ⟨held, one⟩ := readable key listed app
      obtain ⟨value, held⟩ := Option.isSome_iff_exists.mp held
      refine ⟨value, held, ?_⟩
      have found : exportedPair store key = some (key, value) :=
        exportedPair_eq_some.mpr ⟨app, rfl, held⟩
      rw [filter_exported _ found, one, List.replicate_one]
    · intro pair member
      obtain ⟨key, listed, came⟩ := List.mem_filterMap.mp member
      obtain ⟨app, rfl, -⟩ := exportedPair_eq_some.mp came
      exact ⟨listed, app, lists _ _ listed⟩

variable [ExportCiborium] {origin : Option MessageOrigin} {policy : OriginPolicy} {req : ExportRequest}

theorem handle_refused (scope : ExportScope) (req : ExportRequest)
    (cause : ¬ policy.Admits origin ∨
      HOST_ENUMERATION_CAP ≤ (listSecrets store []).length) :
    ∃ error, handleExportRequest store origin policy scope req = .error error := by
  rcases policy.authorize_cases origin with ⟨admitted, taken⟩ | ⟨-, denied⟩
  · have long := cause.resolve_left (not_not_intro admitted)
    have refused : exportScoped store scope =
        .error (.truncatedExport (listSecrets store []).length HOST_ENUMERATION_CAP) := if_pos long
    rw [handleExportRequest, taken, refused]
    exact ⟨_, rfl⟩
  · rw [handleExportRequest, denied]
    exact ⟨_, rfl⟩

theorem completeOrRefused_of_refused {error : ExportError}
    (refused : handleExportRequest store origin policy scope req = .error error) :
    CompleteOrRefused store origin policy scope req where
  complete messages answered := by
    rw [refused] at answered
    cases answered
  truncated _ := ⟨error, refused⟩
  unreadable _ _ _ _ := ⟨error, refused⟩
  unauthorized _ _ := ⟨error, refused⟩

variable [LawfulExportCiborium]

theorem handle_exported (scope : ExportScope) (req : ExportRequest)
    (admitted : policy.Admits origin)
    (short : (listSecrets store []).length < HOST_ENUMERATION_CAP) :
    ∃ payload, handleExportRequest store origin policy scope req =
        .ok [.applicationMessage ⟨payload, true⟩] ∧
      ExportedSecrets.fromBytes payload = .ok ⟨req.sourceGeneration,
        (listSecrets store scope.start).filterMap (exportedPair store)⟩ := by
  obtain ⟨payload, written, read⟩ := ExportedSecrets.toBytes_ok
    ⟨req.sourceGeneration, (listSecrets store scope.start).filterMap (exportedPair store)⟩
  refine ⟨payload, ?_, read⟩
  rw [handleExportRequest, OriginPolicy.authorize_of_admits admitted, exportScoped_eq short]
  simp only [bind, Except.bind, written]
  rfl

theorem completeOrRefused_iff_readable
    (lists : ∀ start key, key ∈ listSecrets store start → start <+: key)
    (admitted : policy.Admits origin)
    (short : (listSecrets store []).length < HOST_ENUMERATION_CAP) :
    CompleteOrRefused store origin policy scope req ↔ ReadableOnce store scope := by
  obtain ⟨payload, answered, read⟩ := handle_exported scope req admitted short
  rw [← completeExport_iff lists]
  constructor
  · intro asked
    obtain ⟨payload', exported, same, read', complete⟩ := asked.complete _ answered
    obtain rfl : payload = payload' := by simpa using same
    obtain rfl := Except.ok.inj (read.symm.trans read')
    exact complete
  · intro complete
    constructor
    · intro messages came
      obtain rfl := Except.ok.inj (answered.symm.trans came)
      exact ⟨payload, _, rfl, read, complete⟩
    · intro long
      exact absurd long (Nat.not_le.mpr short)
    · intro key listed app unread
      obtain ⟨value, held, -⟩ := complete.once key listed app
      rw [unread] at held
      cases held
    · intro _ unmatched
      exact absurd admitted unmatched

/-- An export is complete or refused if and only if its origin does not match the policy, the scope is
    at the cap, or the scope is readable. -/
theorem export_complete_or_refused_iff
    (lists : ∀ start key, key ∈ listSecrets store start → start <+: key) :
    CompleteOrRefused store origin policy scope req ↔
      ¬ policy.Admits origin ∨ HOST_ENUMERATION_CAP ≤ (listSecrets store []).length ∨
        ReadableOnce store scope := by
  by_cases cause : ¬ policy.Admits origin ∨
      HOST_ENUMERATION_CAP ≤ (listSecrets store []).length
  · obtain ⟨error, refused⟩ := handle_refused scope req cause
    rw [← or_assoc]
    exact ⟨fun _ => .inl cause, fun _ => completeOrRefused_of_refused refused⟩
  · rw [not_or, not_not, Nat.not_le] at cause
    obtain ⟨admitted, short⟩ := cause
    rw [completeOrRefused_iff_readable lists admitted short]
    constructor
    · exact fun readable => .inr (.inr readable)
    · rintro (unmatched | long | readable)
      · exact absurd admitted unmatched
      · exact absurd short (Nat.not_lt.mpr long)
      · exact readable

/-- So it is where the store reads whatever it lists, and lists no key twice. -/
theorem export_complete_or_refused_of_sound [SoundSecretStore Store]
    (nodup : (listSecrets store scope.start).Nodup) :
    CompleteOrRefused store origin policy scope req := by
  by_cases cause : ¬ policy.Admits origin ∨
      HOST_ENUMERATION_CAP ≤ (listSecrets store []).length
  · obtain ⟨error, refused⟩ := handle_refused scope req cause
    exact completeOrRefused_of_refused refused
  · rw [not_or, not_not, Nat.not_le] at cause
    have lists : ∀ start key, key ∈ listSecrets store start → start <+: key :=
      fun start key listed => (SoundSecretStore.held_of_listed store start key listed).1
    rw [completeOrRefused_iff_readable lists cause.1 cause.2]
    intro key listed _
    refine ⟨(SoundSecretStore.held_of_listed store scope.start key listed).2, ?_⟩
    exact nodup.count.trans (if_pos listed)

end Main

section Samples

open scoped ExportCbor

structure FailingStore where
  inner : MemStore
  unreadable : List Bytes

instance : SecretStore FailingStore where
  listSecrets store start := listSecrets store.inner start
  getSecret store key := if key ∈ store.unreadable then none else getSecret store.inner key
  hasSecret store key := hasSecret store.inner key
  setSecret store key value :=
    let (ok, inner) := setSecret store.inner key value
    (ok, { store with inner })

def twoSecrets : MemStore := ⟨[(ascii "rooms_data", [1]), (ascii "signing_key", [2])], []⟩

theorem listSecrets_failing (store : FailingStore) (start key : Bytes)
    (listed : key ∈ listSecrets store start) : start <+: key :=
  (SoundSecretStore.held_of_listed store.inner start key listed).1

theorem export_complete_or_refused_iff_two :
    CompleteOrRefused (FailingStore.mk twoSecrets []) (some (.webApp (.zero 32)))
      (.sameWebApp (.zero 32)) (.entireDelegate ⟨⟩) ⟨3⟩ := by
  apply (export_complete_or_refused_iff (listSecrets_failing _)).mpr
  refine .inr (.inr ?_)
  unfold ReadableOnce
  decide +kernel

/-- The second secret cannot be read: the export is answered without it. -/
theorem unreadable_key_dropped :
    ∃ payload, handleExportRequest (FailingStore.mk twoSecrets [ascii "signing_key"])
        (some (.webApp (.zero 32))) (.sameWebApp (.zero 32)) (.entireDelegate ⟨⟩) ⟨3⟩ =
          .ok [.applicationMessage ⟨payload, true⟩] ∧
      ExportedSecrets.fromBytes payload = .ok ⟨3, [(ascii "rooms_data", [1])]⟩ ∧
      ¬ CompleteOrRefused (FailingStore.mk twoSecrets [ascii "signing_key"])
        (some (.webApp (.zero 32))) (.sameWebApp (.zero 32)) (.entireDelegate ⟨⟩) ⟨3⟩ := by
  refine ⟨_, rfl, rfl, fun asked => ?_⟩
  obtain ⟨error, refused⟩ := asked.unreadable (ascii "signing_key") (by decide +kernel)
    (by decide +kernel) (by decide +kernel)
  cases refused

end Samples

end FreenetMigrate.Migrate
