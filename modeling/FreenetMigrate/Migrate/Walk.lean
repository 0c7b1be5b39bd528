import FreenetMigrate.Migrate.JournalStore
import Mathlib.Data.List.Sort
import Mathlib.Data.List.Dedup

namespace FreenetMigrate.Migrate

open Calls Journal

/-- `u32::try_from(n).unwrap_or(u32::MAX)`. -/
def toU32 (n : Nat) : UInt32 := if n < UInt32.size then UInt32.ofNat n else 4294967295

structure WalkObserver (Observed : Type) where
  journaled : Bool
  withholds : Bytes → Bool
  resolvedWithData : Observed → DelegateKey → Option JournalResolution
  importStarted : Observed → DelegateKey → Bool
  itemsSeen : Observed → DelegateKey → UInt32
  beforeImport : Observed → DelegateKey → UInt32 → Option UInt32 →
    Migration (Except String Unit × Observed)

def noObserver : WalkObserver Unit where
  journaled := false
  withholds _ := false
  resolvedWithData _ _ := none
  importStarted _ _ := false
  itemsSeen _ _ := 0
  beforeImport _ _ _ _ := pure (.ok (), ())

/-- The walk's accumulators. A set is the list of what was put in, a map the list of what was put
    in with the latest first. -/
structure WalkState (Observed : Type) where
  observed : Observed
  results : List PredecessorMigration
  notInstalled : List (Fixed 32)
  doneWithData : List (Fixed 32)
  journalResolved : List (Fixed 32 × JournalResolution)
  bridged : List (Fixed 32)
  terminated : Bool
  withheldKeys : List Bytes

variable {Observed : Type}

namespace WalkState

def start (observed : Observed) : WalkState Observed := ⟨observed, [], [], [], [], [], false, []⟩

def push (state : WalkState Observed) (row : PredecessorMigration) (terminated : Bool) :
    WalkState Observed :=
  { state with results := state.results ++ [row], terminated }

end WalkState

/-- A predecessor that is being asked: its marker as read, whether this is a re-attempt, and
    whether any earlier attempt saw data. -/
structure Asked where
  key : DelegateKey
  generation : UInt32
  marker : Option MigrationMarker
  retry : Bool
  priorSawData : Bool

namespace Asked

def unresponsive (asked : Asked) (error : Option String) : PredecessorMigration :=
  .unresponsive asked.key asked.generation error

def writerUnavailable (asked : Asked) (stage : WriterStage) (error : String) :
    PredecessorMigration := .writerUnavailable asked.key asked.generation ⟨stage, error⟩

end Asked

structure Offering where
  tally : ImportTally
  failure : Option WriterFailure
  newlyWithheld : List Bytes
  unflushed : List Bytes

def Offering.start : Offering := ⟨.default, none, [], []⟩

def offerItem (asked : Asked) (withheldKeys : List Bytes) (offering : Offering)
    (pair : SecretPair) : Migration Offering := do
  let tally := offering.tally
  if pair.1 ∈ withheldKeys then
    return { offering with tally := { tally with withheld := tally.withheld + 1 } }
  match ← writeSecret ⟨asked.key, asked.generation, pair.1, pair.2, asked.retry⟩ with
  | .written =>
    return { offering with
      tally := { tally with written := tally.written + 1 }
      unflushed := offering.unflushed ++ [pair.1] }
  | .alreadyAuthoritative =>
    return { offering with
      tally := { tally with skipped := tally.skipped + 1 }
      unflushed := offering.unflushed ++ [pair.1] }
  | .failed error .retryable =>
    return { offering with
      tally := { tally with failed := tally.failed + 1 }
      newlyWithheld := offering.newlyWithheld ++ [pair.1]
      failure := offering.failure.or (some ⟨.item, error⟩) }
  | .failed error .permanent =>
    -- An older generation's copy may still be acceptable, so the key is not withheld.
    return { offering with
      tally := { tally with rejected := tally.rejected + 1 }
      failure := offering.failure.or (some ⟨.item, error⟩) }

/-- Whether a failure so far is none or an item's, which a stage failure outranks. -/
def itemFailureAtMost (failure : Option WriterFailure) : Bool :=
  match failure with
  | none => true
  | some f => f.stage == .item

/-- A failed flush takes back every optimistic answer. -/
def Offering.unflush (offering : Offering) (error : String) : Offering :=
  { offering with
    tally := { offering.tally with
      failed := offering.tally.failed + offering.tally.written
      written := 0 }
    failure := if itemFailureAtMost offering.failure then some ⟨.flush, error⟩ else offering.failure }

/-- Flush, and record the completion marker only if everything landed. -/
def completeImport (policy : SecretSelectionPolicy) (state : WalkState Observed) (asked : Asked)
    (sawData : Bool) (offering : Offering) : Migration (WalkState Observed) := do
  let terminated := policy.dataBearingIsAuthoritative sawData
  let withheldKeys := state.withheldKeys ++ offering.newlyWithheld
  match ← flushPredecessor asked.key with
  | .error e =>
    let offering := offering.unflush e
    return { state with withheldKeys := withheldKeys ++ offering.unflushed }.push
      (.incomplete asked.key asked.generation offering.tally offering.failure) terminated
  | .ok () =>
    let state := { state with withheldKeys }
    if offering.tally.isClean && offering.failure.isNone then
      match ← recordMarker asked.key (.done sawData) with
      | .error e =>
        return state.push (.incomplete asked.key asked.generation offering.tally
          (some ⟨.completeMarker, e⟩)) terminated
      | .ok () =>
        if sawData then
          return state.push (.imported asked.key asked.generation offering.tally) terminated
        else return state.push (.noData asked.key asked.generation) terminated
    else
      return state.push (.incomplete asked.key asked.generation offering.tally offering.failure)
        terminated

def importItems (policy : SecretSelectionPolicy) (state : WalkState Observed) (asked : Asked)
    (items : List SecretPair) (sawData : Bool) : Migration (WalkState Observed) := do
  let offering ← items.foldlM (offerItem asked state.withheldKeys) .start
  completeImport policy state asked sawData offering

def debugMarker : MigrationMarker → String
  | .inProgress sawData => s!"InProgress \x7b saw_data: {sawData} \x7d"
  | .done hadData => s!"Done \x7b had_data: {hadData} \x7d"

def debugRead : Except String (Option MigrationMarker) → String
  | .ok none => "Ok(None)"
  | .ok (some marker) => s!"Ok(Some({debugMarker marker}))"
  | .error e => s!"Err({e})"

/-- Record intent before any item; over an empty seal, check that the intent outranks it. -/
def beginImport (policy : SecretSelectionPolicy) (state : WalkState Observed) (asked : Asked)
    (items : List SecretPair) (sawData : Bool) : Migration (WalkState Observed) := do
  match ← recordMarker asked.key (.inProgress sawData) with
  | .error e => return state.push (asked.writerUnavailable .beginMarker e) true
  | .ok () =>
    if asked.marker = some (.done false) then
      let readBack ← migrationMarker ⟨asked.key, asked.generation, policy.legacyBridge⟩
      match readBack with
      | .ok (some (.inProgress true)) => importItems policy state asked items sawData
      | _ =>
        return state.push (asked.writerUnavailable .beginMarker
          (s!"the marker store reads {debugRead readBack} after an in-progress data marker over " ++
            "an empty seal (see the SuccessorSecretsIo::migration_marker contract)")) true
    else importItems policy state asked items sawData

def exportedFewer (exported itemsSeen : UInt32) : String :=
  s!"{EXPORTED_FEWER_AFTER_DATA}: {exported} of {itemsSeen}"

def flagImport (observer : WalkObserver Observed) (policy : SecretSelectionPolicy)
    (state : WalkState Observed) (asked : Asked) (items : List SecretPair) (exported : UInt32) :
    Migration (WalkState Observed) := do
  let (flagged, observed) ←
    observer.beforeImport state.observed asked.key asked.generation (some exported)
  let state := { state with observed }
  match flagged with
  | .error e => return state.push (asked.writerUnavailable .journalFlag e) true
  | .ok () =>
    -- That store re-read the journal: another session may have seen more.
    let itemsSeen := observer.itemsSeen state.observed asked.key
    if exported < itemsSeen then
      return state.push (asked.unresponsive (some (exportedFewer exported itemsSeen)))
        (policy.unresponsiveTerminates true)
    else beginImport policy state asked items true

def offerable (observer : WalkObserver Observed) (secrets : List SecretPair) : List SecretPair :=
  secrets.filter fun pair => !isMarker pair.1 && !observer.withholds pair.1

def distinctKeys (items : List SecretPair) : UInt32 := toU32 (items.map Prod.fst).dedup.length

def judgeExport (observer : WalkObserver Observed) (policy : SecretSelectionPolicy)
    (state : WalkState Observed) (asked : Asked) (secrets : List SecretPair) :
    Migration (WalkState Observed) :=
  let items := offerable observer secrets
  let exported := distinctKeys items
  let itemsSeen := observer.itemsSeen state.observed asked.key
  if asked.priorSawData && (items.isEmpty || decide (exported < itemsSeen)) then
    let error := if items.isEmpty then EXPORTED_NOTHING_AFTER_DATA else exportedFewer exported itemsSeen
    return state.push (asked.unresponsive (some error))
      (policy.unresponsiveTerminates asked.priorSawData)
  else if asked.priorSawData || !items.isEmpty then flagImport observer policy state asked items exported
  else beginImport policy state asked items false

def askPredecessor (observer : WalkObserver Observed) (policy : SecretSelectionPolicy)
    (state : WalkState Observed) (asked : Asked) : Migration (WalkState Observed) := do
  let terminated := policy.unresponsiveTerminates asked.priorSawData
  match ← probeVerdict asked.key with
  | .ok .notInstalled =>
    return { state with notInstalled := asked.key.bytes :: state.notInstalled }.push
      (asked.unresponsive (some "not installed on this node")) terminated
  | .ok .noReply => return state.push (asked.unresponsive none) terminated
  | .error e => return state.push (asked.unresponsive (some e)) terminated
  | .ok .executable =>
    match ← fetchSecrets asked.key with
    | .error e => return state.push (asked.unresponsive (some e)) terminated
    | .ok secrets => judgeExport observer policy state asked secrets

def flagKnownData (observer : WalkObserver Observed) (policy : SecretSelectionPolicy)
    (state : WalkState Observed) (asked : Asked) : Migration (WalkState Observed) := do
  if asked.priorSawData then
    let (flagged, observed) ← observer.beforeImport state.observed asked.key asked.generation none
    let state := { state with observed }
    match flagged with
    | .error e => return state.push (asked.writerUnavailable .journalFlag e) true
    | .ok () => askPredecessor observer policy state asked
  else askPredecessor observer policy state asked

def knownData (observer : WalkObserver Observed) (state : WalkState Observed) (key : DelegateKey) :
    Bool :=
  observer.importStarted state.observed key || decide (0 < observer.itemsSeen state.observed key)

def alreadyMigrated (observer : WalkObserver Observed) (policy : SecretSelectionPolicy)
    (state : WalkState Observed) (key : DelegateKey) (generation : UInt32) (hadData : Bool) :
    Migration (WalkState Observed) := do
  let terminated := policy.dataBearingIsAuthoritative hadData
  if hadData then
    let bridged ← if observer.journaled then sealIsBridged key generation policy else pure false
    if bridged then
      return { state with bridged := key.bytes :: state.bridged }.push
        (.alreadyMigrated key generation) terminated
    else
      return { state with doneWithData := key.bytes :: state.doneWithData }.push
        (.alreadyMigrated key generation) terminated
  else return state.push (.alreadyMigrated key generation) terminated

def heedMarker (observer : WalkObserver Observed) (policy : SecretSelectionPolicy)
    (state : WalkState Observed) (key : DelegateKey) (generation : UInt32)
    (marker : Option MigrationMarker) : Migration (WalkState Observed) :=
  let known := knownData observer state key
  match marker with
  | some (.done hadData) =>
    if hadData || !known then alreadyMigrated observer policy state key generation hadData
    else flagKnownData observer policy state ⟨key, generation, marker, true, true⟩
  | some (.inProgress sawData) =>
    flagKnownData observer policy state ⟨key, generation, marker, true, sawData || known⟩
  | none => flagKnownData observer policy state ⟨key, generation, marker, known, known⟩

def walkRow (observer : WalkObserver Observed) (policy : SecretSelectionPolicy)
    (state : WalkState Observed) (row : DelegateKey × UInt32) : Migration (WalkState Observed) := do
  let (key, generation) := row
  if state.terminated then return state.push (.superseded key generation) true
  match observer.resolvedWithData state.observed key with
  | some resolution =>
    return { state with journalResolved := (key.bytes, resolution) :: state.journalResolved }.push
      (.alreadyMigrated key generation) (policy.dataBearingIsAuthoritative true)
  | none =>
    match ← migrationMarker ⟨key, generation, policy.legacyBridge⟩ with
    | .error e =>
      return state.push (.writerUnavailable key generation ⟨.readMarker, e⟩) true
    | .ok marker => heedMarker observer policy state key generation marker

/-- Newest generation first; equal generations as the caller listed them. -/
def newestFirst (predecessors : List DelegateLineageEntry) : List (DelegateKey × UInt32) :=
  (predecessors.map fun e => (lineageKey e, e.generation)).insertionSort fun a b => b.2 ≤ a.2

def walk (observer : WalkObserver Observed) (policy : SecretSelectionPolicy)
    (predecessors : List DelegateLineageEntry) (observed : Observed) :
    Migration (WalkState Observed) :=
  (newestFirst predecessors).foldlM (walkRow observer policy) (.start observed)

def migrateDelegateSecrets (predecessors : List DelegateLineageEntry)
    (policy : SecretSelectionPolicy) : Migration (List PredecessorMigration) := do
  let outcome ← walk noObserver policy predecessors ()
  return outcome.results

end FreenetMigrate.Migrate
