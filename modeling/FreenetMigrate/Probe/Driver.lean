import FreenetMigrate.Pointer.Resolver
import Mathlib.Data.List.Sort

namespace FreenetMigrate.Probe

open PointerClient (ContractInstanceId Step)

inductive ProbeAnswer
  | state (bytes : Bytes)
  | absent
  | unknown
  deriving DecidableEq

/-- What the app's states mean: which bytes are one, which are real, and how they merge. -/
structure ProbeStateOps (State : Type) where
  decode : Bytes → Option State
  isReal : State → Bool
  mergeWithLocal : State → State → State
  mergeGenerations : State → State → State := fun newer _ => newer
  prepareForward : State → State := id

structure ContractLineageEntry where
  generation : UInt32
  codeHash : Fixed 32

abbrev Parameters : Type := Bytes

structure NewestFirst where
  candidates : List ContractInstanceId

namespace NewestFirst

def rows (contractIdFromCodeHash : Fixed 32 → Parameters → ContractInstanceId) (params : Parameters)
    (lineage : List ContractLineageEntry) : List (UInt32 × ContractInstanceId) :=
  (lineage.map fun e => (e.generation, contractIdFromCodeHash e.codeHash params)).insertionSort
    fun a b => b.1 ≤ a.1

def fromLineage (contractIdFromCodeHash : Fixed 32 → Parameters → ContractInstanceId)
    (params : Parameters) (lineage : List ContractLineageEntry) : NewestFirst :=
  ⟨(rows contractIdFromCodeHash params lineage).map Prod.snd⟩

def assumeOrdered (candidates : List ContractInstanceId) : NewestFirst := ⟨candidates⟩

end NewestFirst

inductive SelectionPolicy
  | newestFirstWins
  | foldAll
  deriving DecidableEq

def SelectionPolicy.unknownTerminates : SelectionPolicy → Bool
  | .newestFirstWins => true
  | .foldAll => false

theorem SelectionPolicy.newest_or_fold (policy : SelectionPolicy) :
    policy = .newestFirstWins ∨ policy = .foldAll := by
  cases policy with
  | newestFirstWins => exact .inl rfl
  | foldAll => exact .inr rfl

theorem SelectionPolicy.newest_of_terminates {policy : SelectionPolicy} {continuing : Bool}
    (halts : (policy.unknownTerminates && !continuing) = true) : policy = .newestFirstWins := by
  cases policy with
  | newestFirstWins => rfl
  | foldAll => cases halts

inductive Outcome (State : Type)
  | recovered (merged : State) (source : ContractInstanceId) (truncatedFold : Bool)
      (unresolved : List ContractInstanceId)
  | seedLocal (localState : State)
  | indeterminate (localState : State) (unresolved : List ContractInstanceId)
  | noLegacy (localState : State)

inductive Phase (State : Type)
  | probing
  /-- The outcome, until it is taken. -/
  | done (outcome : Option (Outcome State))

def Phase.isDone {State : Type} : Phase State → Bool
  | .probing => false
  | .done _ => true

def DEFAULT_MAX_PROBE_HOPS : Nat := 64

structure ProbeDriver (State : Type) where
  ops : ProbeStateOps State
  policy : SelectionPolicy
  localState : Option State
  remaining : List ContractInstanceId
  outstanding : Option ContractInstanceId
  hops : Nat
  maxHops : Nat
  foldAcc : Option (ContractInstanceId × State)
  unresolved : List ContractInstanceId
  continuePastUnknown : Bool
  phase : Phase State

def addUnresolved (unresolved : List ContractInstanceId) (id : ContractInstanceId) :
    List ContractInstanceId :=
  if id ∈ unresolved then unresolved else unresolved ++ [id]

namespace ProbeDriver

variable {State : Type}

def new (ops : ProbeStateOps State) (localSnapshot : State) (candidates : NewestFirst)
    (policy : SelectionPolicy) : ProbeDriver State where
  ops
  policy
  localState := if candidates.candidates.isEmpty then none else some localSnapshot
  remaining := candidates.candidates
  outstanding := none
  hops := 0
  maxHops := DEFAULT_MAX_PROBE_HOPS
  foldAcc := none
  unresolved := []
  continuePastUnknown := false
  phase := if candidates.candidates.isEmpty then .done (some (.noLegacy localSnapshot)) else .probing

def withMaxHops (driver : ProbeDriver State) (maxHops : Nat) : ProbeDriver State :=
  { driver with maxHops }

def continuingPastUnknown (driver : ProbeDriver State) : ProbeDriver State :=
  { driver with continuePastUnknown := true }

def configured (driver : ProbeDriver State) (maxHops : Nat) (continuing : Bool) : ProbeDriver State :=
  let driver := driver.withMaxHops maxHops
  if continuing then driver.continuingPastUnknown else driver

/-- Everything left unprobed joins what is unresolved. Fails where the local snapshot is gone, as
    the code would panic. -/
def finishExhausted (driver : ProbeDriver State) : Option (ProbeDriver State) := do
  let localState ← driver.localState
  let unresolved := driver.remaining.foldl addUnresolved driver.unresolved
  let outcome := match driver.foldAcc with
    | some (source, folded) =>
      .recovered (driver.ops.prepareForward (driver.ops.mergeWithLocal folded localState)) source
        (!driver.remaining.isEmpty) unresolved
    | none =>
      if unresolved.isEmpty then .seedLocal (driver.ops.prepareForward localState)
      else .indeterminate (driver.ops.prepareForward localState) unresolved
  return { driver with
    localState := none
    remaining := []
    foldAcc := none
    unresolved := []
    phase := .done (some outcome) }

def nextAction (driver : ProbeDriver State) : Option (Step × ProbeDriver State) :=
  match driver.phase, driver.outstanding, driver.remaining with
  | .done _, _, _ => some (.done, driver)
  | .probing, some id, _ => some (.get id, driver)
  | .probing, none, [] => driver.finishExhausted.map fun driver => (.done, driver)
  | .probing, none, id :: remaining =>
    if driver.maxHops ≤ driver.hops then driver.finishExhausted.map fun driver => (.done, driver)
    else some (.get id, { driver with remaining, outstanding := some id, hops := driver.hops + 1 })

def onHit (driver : ProbeDriver State) (source : ContractInstanceId) (state : State) :
    Option (ProbeDriver State) :=
  match driver.policy with
  | .newestFirstWins => do
    let localState ← driver.localState
    let merged := driver.ops.mergeWithLocal state localState
    return { driver with
      localState := none
      unresolved := []
      phase := .done (some
        (.recovered (driver.ops.prepareForward merged) source false driver.unresolved)) }
  | .foldAll =>
    -- Candidates arrive newest first, so the accumulator is the newer side.
    return { driver with
      foldAcc := some (match driver.foldAcc with
        | none => (source, state)
        | some (firstSource, acc) => (firstSource, driver.ops.mergeGenerations acc state)) }

/-- Events for anything but the outstanding candidate are ignored. -/
def onResponse (driver : ProbeDriver State) (id : ContractInstanceId) (bytes : Bytes) :
    Option (ProbeDriver State) :=
  if driver.outstanding ≠ some id ∨ driver.phase.isDone = true then some driver
  else
    let driver := { driver with outstanding := none }
    match driver.ops.decode bytes with
    | some state => if driver.ops.isReal state then driver.onHit id state else some driver
    | none => some driver

def onAbsent (driver : ProbeDriver State) (id : ContractInstanceId) : Option (ProbeDriver State) :=
  if driver.phase.isDone then some driver
  else if driver.outstanding = some id then some { driver with outstanding := none }
  else some driver

/-- A policy that stops on silence never accumulates a fold, so there is none to surface. -/
def finishIndeterminate (driver : ProbeDriver State) : Option (ProbeDriver State) := do
  let localState ← driver.localState
  let unresolved := driver.remaining.foldl addUnresolved driver.unresolved
  return { driver with
    localState := none
    remaining := []
    unresolved := []
    phase := .done (some (.indeterminate (driver.ops.prepareForward localState) unresolved)) }

def onUnknown (driver : ProbeDriver State) (id : ContractInstanceId) : Option (ProbeDriver State) :=
  if driver.phase.isDone then some driver
  else if driver.outstanding ≠ some id then some driver
  else
    let driver := { driver with
      outstanding := none
      unresolved := addUnresolved driver.unresolved id }
    if driver.policy.unknownTerminates && !driver.continuePastUnknown then driver.finishIndeterminate
    else some driver

def onTimeout (driver : ProbeDriver State) (id : ContractInstanceId) : Option (ProbeDriver State) :=
  driver.onUnknown id

def takeOutcome (driver : ProbeDriver State) : Option (Outcome State) × ProbeDriver State :=
  match driver.phase with
  | .done outcome => (outcome, { driver with phase := .done none })
  | .probing => (none, driver)

end ProbeDriver

def contractProbe {State : Type} (contractIdFromCodeHash : Fixed 32 → Parameters → ContractInstanceId)
    (ops : ProbeStateOps State) (localSnapshot : State) (params : Parameters)
    (lineage : List ContractLineageEntry) (policy : SelectionPolicy) : ProbeDriver State :=
  .new ops localSnapshot (.fromLineage contractIdFromCodeHash params lineage) policy

inductive DriverCall
  | nextAction
  | onResponse (id : ContractInstanceId) (bytes : Bytes)
  | onAbsent (id : ContractInstanceId)
  | onUnknown (id : ContractInstanceId)
  deriving DecidableEq

/-- What a run of calls shows: the candidates asked, one position after another, and the answers
    that were taken, each with the candidate that was outstanding. -/
structure ProbeTrace where
  asked : List ContractInstanceId
  answers : List (ContractInstanceId × ProbeAnswer)

instance : Append ProbeTrace := ⟨fun a b => ⟨a.asked ++ b.asked, a.answers ++ b.answers⟩⟩

namespace ProbeDriver

variable {State : Type}

def call (driver : ProbeDriver State) : DriverCall → Option (ProbeDriver State)
  | .nextAction => driver.nextAction.map Prod.snd
  | .onResponse id bytes => driver.onResponse id bytes
  | .onAbsent id => driver.onAbsent id
  | .onUnknown id => driver.onUnknown id

def accepts (driver : ProbeDriver State) (id : ContractInstanceId) : Bool :=
  !driver.phase.isDone && driver.outstanding == some id

/-- What one call adds to the trace: a candidate that is asked where none was outstanding, or the
    answer of the one that was. -/
def log (driver : ProbeDriver State) : DriverCall → ProbeTrace
  | .nextAction => match driver.outstanding, driver.nextAction with
    | none, some (.get id, _) => ⟨[id], []⟩
    | _, _ => ⟨[], []⟩
  | .onResponse id bytes => ⟨[], if driver.accepts id then [(id, .state bytes)] else []⟩
  | .onAbsent id => ⟨[], if driver.accepts id then [(id, .absent)] else []⟩
  | .onUnknown id => ⟨[], if driver.accepts id then [(id, .unknown)] else []⟩

def run (driver : ProbeDriver State) : List DriverCall → Option (ProbeTrace × ProbeDriver State)
  | [] => some (⟨[], []⟩, driver)
  | call :: calls => do
    let next ← driver.call call
    let (trace, final) ← next.run calls
    return (driver.log call ++ trace, final)

end ProbeDriver

end FreenetMigrate.Probe
