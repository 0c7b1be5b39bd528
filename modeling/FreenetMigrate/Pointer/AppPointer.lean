import FreenetMigrate.Pointer.Network
import FreenetMigrate.Probe.Pump

namespace FreenetMigrate.PointerClient

open Pointer Joins

variable {Io Error : Type}

/-- One GET of the pointer's state, awaited. An error aborts the resolution. -/
structure PointerIo (Io Error : Type) where
  getPointer : Io → ContractInstanceId → Except Error PointerFetch × Io

/-- `ConservativeProbeIo`: the transport of a backward probe, its three answers carried across. -/
def conservativeProbeIo (io : Probe.ProbeIo Io Error) : PointerIo Io Error where
  getPointer transport id :=
    match io.get transport id with
    | (.error error, transport) => (.error error, transport)
    | (.ok (.state bytes), transport) => (.ok (.state bytes), transport)
    | (.ok .absent, transport) => (.ok .absent, transport)
    | (.ok .unknown, transport) => (.ok .unreachable, transport)

inductive ResolveError (Error : Type)
  | transport (error : Error)
  | pointer (error : PointerError)

def ResolveError.mayUseBakedInFallback (_ : ResolveError Error) : Bool := false

variable {VerifyingKey : Type} [Ed25519 VerifyingKey]

/-- The loop of `resolve_app_pointer`. It fails where the code would panic, on an event that is not
    accepted where assertions are on, and where the fuel runs out. -/
def PointerResolver.pump (io : PointerIo Io Error) (debugAssertions : Bool) :
    Nat → PointerResolver VerifyingKey → Io →
      Option (Except (ResolveError Error) PointerOutcome × Io)
  | 0, _, _ => none
  | fuel + 1, resolver, transport =>
    match resolver.nextAction with
    | (.get id, resolver) =>
      match io.getPointer transport id with
      | (.error error, transport) => some (.error (.transport error), transport)
      | (.ok fetched, transport) =>
        let (accepted, resolver) := match fetched with
          | .state bytes => resolver.onResponse id bytes
          | .absent => resolver.onAbsent id
          | .unreachable => resolver.onUnreachable id
        if accepted then resolver.pump io debugAssertions fuel transport
        else if debugAssertions then none
        else some (.ok .unavailable, transport)
    | (.done, resolver) =>
      resolver.takeOutcome.1.map fun result => (result.mapError .pointer, transport)

/-- The loop runs at most twice. -/
def resolveAppPointer (contractId : Bytes → ContractInstanceId) (io : PointerIo Io Error)
    (debugAssertions : Bool) (transport : Io) (authorVk : VerifyingKey) (appId : Bytes)
    (floor : PointerFloor) : Option (Except (ResolveError Error) PointerOutcome × Io) :=
  match PointerResolver.new contractId authorVk appId floor with
  | .error e => some (.error (.pointer e), transport)
  | .ok resolver => resolver.pump io debugAssertions 2 transport

def returnedFallback : Except (ResolveError Error) PointerOutcome → Bool
  | .ok outcome => outcome.mayUseBakedInFallback
  | .error e => e.mayUseBakedInFallback

def keepFloor (floor : PointerFloor) : Except (ResolveError Error) PointerOutcome → PointerFloor
  | .ok outcome => outcome.nextFloor.getD floor
  | .error _ => floor

def consult (contractId : Bytes → ContractInstanceId) (io : PointerIo Io Error)
    (debugAssertions : Bool) (authorVk : VerifyingKey) (appId : Bytes) :
    Nat → PointerFloor × Io → Option (PointerFloor × Io)
  | 0, kept => some kept
  | calls + 1, kept => do
    let (floor, transport) ← consult contractId io debugAssertions authorVk appId calls kept
    let (result, transport) ←
      resolveAppPointer contractId io debugAssertions transport authorVk appId floor
    return (keepFloor floor result, transport)

def answersOf (io : PointerIo Io Error) (id : ContractInstanceId) :
    Nat → Io → List (Except Error PointerFetch) × Io
  | 0, transport => ([], transport)
  | calls + 1, transport =>
    let (answers, transport) := answersOf io id calls transport
    let (answer, transport) := io.getPointer transport id
    (answers ++ [answer], transport)

def vouches (params : Bytes) (authorVk : VerifyingKey) :
    Except Error PointerFetch → Option PointerRecord
  | .ok fetched => certified params authorVk fetched
  | .error _ => none

variable {contractId : Bytes → ContractInstanceId} {authorVk : VerifyingKey} {appId params : Bytes}
  {io : PointerIo Io Error} {debugAssertions : Bool} {transport : Io} {floor : PointerFloor}

def returned (contractId : Bytes → ContractInstanceId) (authorVk : VerifyingKey) (params : Bytes)
    (floor : PointerFloor) :
    Except Error PointerFetch → Except (ResolveError Error) PointerOutcome
  | .ok fetched => (verdict (armed contractId authorVk params floor) fetched).mapError .pointer
  | .error error => .error (.transport error)

/-- A call makes one GET, of the pointer, and never panics. -/
theorem resolveAppPointer_eq (accepted : pointerParams authorVk appId = .ok params) :
    resolveAppPointer contractId io debugAssertions transport authorVk appId floor =
      some (returned contractId authorVk params floor (io.getPointer transport (contractId params)).1,
        (io.getPointer transport (contractId params)).2) := by
  have made : PointerResolver.new contractId authorVk appId floor =
      .ok ⟨params, authorVk, contractId params, floor, false, .fetching⟩ := by
    simp only [PointerResolver.new, accepted, Bind.bind, Except.bind, Pure.pure, Except.pure]
  unfold resolveAppPointer
  rw [made]
  simp only [PointerResolver.pump, PointerResolver.nextAction]
  rcases io.getPointer transport (contractId params) with ⟨error | fetched, after⟩
  · rfl
  · cases fetched <;>
      simp only [PointerResolver.onResponse, PointerResolver.onAbsent, PointerResolver.onUnreachable,
        PointerResolver.accepts, beq_self_eq_true, Bool.and_true, if_true] <;> rfl

theorem keepFloor_returned {best : Option PointerRecord} (answer : Except Error PointerFetch) :
    keepFloor (floorFor best) (returned contractId authorVk params (floorFor best) answer) =
      floorFor (keepGreatest best (vouches params authorVk answer).toList) := by
  cases answer with
  | error error => rfl
  | ok fetched =>
    have kept : persist (floorFor best)
        (some (verdict (armed contractId authorVk params (floorFor best)) fetched)) =
      floorFor (keepGreatest best (certified params authorVk fetched).toList) := persist_verdict fetched
    rw [vouches, ← kept, returned]
    cases verdict (armed contractId authorVk params (floorFor best)) fetched <;> rfl

theorem returnedFallback_returned (floor : PointerFloor) (answer : Except Error PointerFetch) :
    returnedFallback (returned contractId authorVk params floor answer) = true ↔
      answer = .ok .absent ∧ floor.version = 0 := by
  cases answer with
  | error error => simp [returned, returnedFallback, ResolveError.mayUseBakedInFallback]
  | ok fetched =>
    have same : returnedFallback (returned contractId authorVk params floor (.ok fetched : Except Error _)) =
        permitsFallback (verdict (armed contractId authorVk params floor) fetched) := by
      rw [returned]
      cases verdict (armed contractId authorVk params floor) fetched <;> rfl
    rw [same, permitsFallback_verdict, Except.ok.injEq]
    rfl

theorem verify_of_vouches {answer : Except Error PointerFetch} {record : PointerRecord}
    (found : vouches params authorVk answer = some record) : verify record params authorVk = .ok () := by
  cases answer with
  | error error => cases found
  | ok fetched => exact (certified_eq_some.mp found).2

theorem version_floorFor {best : Option PointerRecord}
    (verified : ∀ record, best = some record → verify record params authorVk = .ok ()) :
    (floorFor best).version = 0 ↔ best = none := by
  cases best with
  | none => exact ⟨fun _ => rfl, fun _ => rfl⟩
  | some record =>
    constructor
    · intro unset
      exact absurd (.inl unset) (version_of_verify (verified record rfl))
    · intro nothing
      cases nothing

theorem pointer_returned {best : Option PointerRecord} {answer : Except Error PointerFetch}
    {outcome : PointerOutcome} {p : ResolvedPointer}
    (result : returned contractId authorVk params (floorFor best) answer = .ok outcome)
    (published : outcome.pointer = some p) :
    ∃ record, vouches params authorVk answer = some record ∧
      p = ⟨record.version, record.codeHash⟩ ∧ p.codeHash ≠ TOMBSTONE_CODE_HASH ∧
      floorFor (keepGreatest best [record]) = floorOf record := by
  cases answer with
  | error error => cases result
  | ok fetched =>
    have result : verdict (armed contractId authorVk params (floorFor best)) fetched =
        .ok outcome := by
      rw [returned] at result
      cases found : verdict (armed contractId authorVk params (floorFor best)) fetched with
      | error e =>
        rw [found] at result
        cases result
      | ok other =>
        rw [found] at result
        cases result
        rfl
    rcases verdict_ordered result with rfl | rfl | ⟨bytes, record, rfl, decoded, verified, rfl⟩
    · cases published
    · cases published
    · obtain ⟨rfl, alive⟩ := order_published published
      obtain rfl := decode_eq_ok.mp decoded
      refine ⟨record, certified_eq_some.mpr ⟨rfl, verified⟩, rfl, alive, ?_⟩
      have kept := persist_order (armed contractId authorVk params (floorFor best)) rfl verified
      rw [persist, PointerNetwork.nextFloor_of_pointer verified published, Option.getD_some] at kept
      exact kept.symm

/-- After any number of calls the floor stands for the greatest record the transport's answers
    certified. -/
theorem consult_eq (accepted : pointerParams authorVk appId = .ok params) (calls : Nat)
    (transport : Io) :
    consult contractId io debugAssertions authorVk appId calls (.neverResolved, transport) =
      some (floorFor (keepGreatest none ((answersOf io (contractId params) calls transport).1.filterMap
        (vouches params authorVk))), (answersOf io (contractId params) calls transport).2) := by
  induction calls with
  | zero => rfl
  | succ calls ih =>
    have append (answers : List (Except Error PointerFetch)) (answer : Except Error PointerFetch) :
        (answers ++ [answer]).filterMap (vouches params authorVk) =
          answers.filterMap (vouches params authorVk) ++ (vouches params authorVk answer).toList := by
      cases found : vouches params authorVk answer <;> simp [found]
    simp only [consult, ih, Option.bind_eq_bind, Option.bind_some, resolveAppPointer_eq accepted,
      keepFloor_returned, answersOf, append, keepGreatest_append]
    rfl

/-- Runs of `resolve_app_pointer`. Whatever the transport answers, and however often it aborts, no
    call panics; the floor kept stands for the greatest record certified so far; the fallback is
    open exactly to a call that is told there is no pointer, before anything was certified; and a
    pointer handed out is a record this call was served, which no earlier one beats. -/
theorem app_pointer_runs (contractId : Bytes → ContractInstanceId) (io : PointerIo Io Error)
    (debugAssertions : Bool) (transport : Io) (accepted : pointerParams authorVk appId = .ok params)
    (calls : Nat) :
    ∃ certs answer floor later result after,
      certs = (answersOf io (contractId params) calls transport).1.filterMap (vouches params authorVk) ∧
      answersOf io (contractId params) (calls + 1) transport =
        ((answersOf io (contractId params) calls transport).1 ++ [answer], after) ∧
      consult contractId io debugAssertions authorVk appId calls (.neverResolved, transport) =
        some (floor, later) ∧
      resolveAppPointer contractId io debugAssertions later authorVk appId floor =
        some (result, after) ∧
      floor = floorFor (keepGreatest none certs) ∧
      (returnedFallback result = true ↔ answer = .ok .absent ∧ certs = []) ∧
      (∀ outcome p, result = .ok outcome → outcome.pointer = some p → ∃ record,
        vouches params authorVk answer = some record ∧ p = ⟨record.version, record.codeHash⟩ ∧
        p.codeHash ≠ TOMBSTONE_CODE_HASH ∧
        ∀ other ∈ certs, other.version < record.version ∨
          (other.version = record.version ∧ record.codeHash ≤ other.codeHash)) ∧
      ∀ probe : Probe.ProbeIo Io Error, io = conservativeProbeIo probe →
        (∀ transport, (probe.get transport (contractId params)).1 ≠ .ok .absent) →
        returnedFallback result = false := by
  let certs := (answersOf io (contractId params) calls transport).1.filterMap
    (vouches params authorVk)
  let best := keepGreatest none certs
  let later := (answersOf io (contractId params) calls transport).2
  let answer := (io.getPointer later (contractId params)).1
  have verified (record : PointerRecord) (found : best = some record) :
      verify record params authorVk = .ok () := by
    rcases mem_of_keepGreatest found with held | member
    · cases held
    · obtain ⟨_, -, vouched⟩ := List.mem_filterMap.mp member
      exact verify_of_vouches vouched
  have nothing : best = none ↔ certs = [] := by
    rw [keepGreatest_eq_none, Set.not_nonempty_iff_eq_empty, List.eq_nil_iff_forall_not_mem]
    simp [everHeld, Set.eq_empty_iff_forall_notMem]
  have fallback : returnedFallback (returned contractId authorVk params (floorFor best) answer) = true ↔
      answer = .ok .absent ∧ certs = [] := by
    rw [returnedFallback_returned, version_floorFor verified, nothing]
  refine ⟨certs, answer, floorFor best, later,
    returned contractId authorVk params (floorFor best) answer,
    (io.getPointer later (contractId params)).2, rfl, rfl, consult_eq accepted calls transport,
    resolveAppPointer_eq accepted, rfl, fallback, ?_, ?_⟩
  · intro outcome p result published
    obtain ⟨record, vouched, same, alive, replaces⟩ := pointer_returned result published
    refine ⟨record, vouched, same, alive, ?_⟩
    intro other member
    obtain ⟨greatest, kept, -, bound⟩ := keepGreatest_isGreatest none (certs ++ [record])
      ⟨other, .inr (List.mem_append_left _ member)⟩
    rw [← keepGreatest_append, kept] at replaces
    exact le_floorOf (bound (.inr (List.mem_append_left _ member))) replaces.symm
  · rintro probe rfl silent
    rw [Bool.eq_false_iff, ne_eq, fallback]
    rintro ⟨absent, -⟩
    have told := silent later
    simp only [answer, conservativeProbeIo] at absent
    split at absent
    · cases absent
    · cases absent
    · rename_i found
      exact told (congrArg Prod.fst found)
    · cases absent

section

open PointerContract (VectorKey vectorAppId vectorParams vectorRecord)

def vectorIo : PointerIo Bool Unit where
  getPointer
    | false, _ => (.error (), true)
    | true, _ => (.ok (.state vectorRecord.encode), true)

theorem app_pointer_runs_vector :
    ∃ floor, consult (fun _ => Fixed.zero 32) vectorIo true VectorKey.author vectorAppId 2
        (.neverResolved, false) = some (floor, true) ∧ floor = floorOf vectorRecord := by
  have found : vouches vectorParams VectorKey.author
      (.ok (.state vectorRecord.encode) : Except Unit PointerFetch) = some vectorRecord :=
    certified_eq_some.mpr ⟨rfl, verify_vectorRecord⟩
  obtain ⟨certs, answer, floor, later, result, after, served, -, consulted, -, stands, -⟩ :=
    app_pointer_runs (fun _ => Fixed.zero 32) vectorIo true false pointerParams_vector 2
  have once : certs = [vectorRecord] := by
    rw [served]
    have answered : (answersOf vectorIo (Fixed.zero 32) 2 false).1 =
        [.error (), .ok (.state vectorRecord.encode)] := rfl
    rw [answered, List.filterMap_cons_none rfl, List.filterMap_cons_some found,
      List.filterMap_nil]
  have same : later = true := by
    have ran : consult (fun _ => Fixed.zero 32) vectorIo true VectorKey.author vectorAppId 2
        (.neverResolved, false) = some (_, true) := consult_eq pointerParams_vector 2 false
    rw [ran, Option.some.injEq, Prod.mk.injEq] at consulted
    exact consulted.2.symm
  rw [once] at stands
  exact ⟨floor, same ▸ consulted, stands⟩

end

end FreenetMigrate.PointerClient
