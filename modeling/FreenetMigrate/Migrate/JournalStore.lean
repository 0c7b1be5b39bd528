import FreenetMigrate.Journal.Codec

namespace FreenetMigrate.Migrate

open Calls Journal

variable [Ciborium]

abbrev Fallible (α : Type) : Type := ExceptT JournalError (Program Request Answer) α

/-- `predecessor`'s own marker, ignoring any seal of a newer generation. -/
def exactMarker (predecessor : DelegateKey) (generation : UInt32) :
    Migration (Except String (Option MigrationMarker)) :=
  migrationMarker ⟨predecessor, generation, .exactGenerationOnly⟩

/-- Whether a data-bearing seal read under a snapshot policy holds only through a generation-keyed
    seal of a newer generation. A read that fails counts as bridged, the side that reopens. -/
def sealIsBridged (predecessor : DelegateKey) (generation : UInt32)
    (policy : SecretSelectionPolicy) : Migration Bool := do
  if policy.legacyBridge ≠ .atOrAboveGeneration then return false
  match ← exactMarker predecessor generation with
  | .ok (some (.done true)) => return false
  | _ => return true

def seedSealed (journal : MigrationJournal) (e : DelegateLineageEntry) :
    Option MigrationMarker → MigrationJournal
  | some (.done true) => journal.record (lineageKey e) e.generation (.resolved .imported)
  | some (.inProgress true) => (journal.markImportStarted (lineageKey e) e.generation).1
  | _ => journal.record (lineageKey e) e.generation (.resolved .supersededByAuthoritative)

def seedFailed (err : String) : JournalError :=
  .successor s!"marker read failed while starting the journal: {err}"

def seedEntry (policy : SecretSelectionPolicy) (journal : MigrationJournal)
    (e : DelegateLineageEntry) : Fallible MigrationJournal := do
  match ← (migrationMarker ⟨lineageKey e, e.generation, policy.legacyBridge⟩ : Migration _) with
  | .ok (some (.inProgress true)) =>
    return (journal.markImportStarted (lineageKey e) e.generation).1
  | .ok (some (.done false)) => return journal.record (lineageKey e) e.generation (.resolved .noData)
  | .ok (some (.done true)) =>
    -- Under a snapshot policy the seal may be a newer generation's, and hide this one's marker.
    if policy.legacyBridge = .atOrAboveGeneration then
      match ← (exactMarker (lineageKey e) e.generation : Migration _) with
      | .ok exact => return seedSealed journal e exact
      | .error err => throw (seedFailed err)
    else return seedSealed journal e (some (.done true))
  | .ok _ => return journal
  | .error err => throw (seedFailed err)

def freshJournal (predecessors : List DelegateLineageEntry) (policy : SecretSelectionPolicy) :
    Fallible MigrationJournal :=
  predecessors.foldlM (seedEntry policy) (.newPending predecessors)

inductive Started
  /-- A readable journal is stored, and nothing in it needs changing. -/
  | existing (journal : MigrationJournal)
  /-- To be stored before any migration write. -/
  | new (journal : MigrationJournal)

def Started.journal : Started → MigrationJournal
  | .existing journal => journal
  | .new journal => journal

structure MarkerChecks where
  /-- Read: the journal agrees with them. -/
  read : List DelegateKey
  /-- Could not be read to check a stored resolution. -/
  unverified : List (DelegateKey × UInt32)

/-- Whether an entry is resolved with a resolution saying its data is not in the successor. -/
def resolvedWithoutData (journal : MigrationJournal) (key : DelegateKey) : Bool :=
  match (journal.entry key).map JournalEntry.state with
  | some (.resolved r) => !r.isDataBearing
  | _ => false

structure StartProgress where
  journal : MigrationJournal
  changed : Bool
  checks : MarkerChecks

/-- Check one stored resolution that says "no data" against the predecessor's own marker. -/
def checkEntry (progress : StartProgress) (e : DelegateLineageEntry) : Migration StartProgress := do
  let key := lineageKey e
  if resolvedWithoutData progress.journal key then
    match ← exactMarker key e.generation with
    | .ok marker =>
      let checks := { progress.checks with read := progress.checks.read ++ [key] }
      if marker = some (.inProgress true) then
        let (journal, changed) := progress.journal.markImportStarted key e.generation
        return ⟨journal, progress.changed || changed, checks⟩
      else return { progress with checks }
    | .error _ =>
      let unverified := progress.checks.unverified ++ [(key, e.generation)]
      return { progress with checks := { progress.checks with unverified } }
  else return progress

/-- Load the stored journal, or build the one to start with. Never stores anything. -/
def startJournal (predecessors : List DelegateLineageEntry) (policy : SecretSelectionPolicy)
    (binding : JournalBinding) : Fallible (Started × MarkerChecks) := do
  match ← (loadJournal : Migration _) with
  | .error e => throw (.successor s!"journal load failed: {e}")
  | .ok none =>
    let journal ← freshJournal predecessors policy
    return (.new journal, ⟨predecessors.map lineageKey, []⟩)
  | .ok (some bytes) =>
    match MigrationJournal.decode bytes with
    | .error (.unknownVersion v) => throw (.foreignVersion v)
    | .error (.corrupt _) =>
      let journal ← freshJournal predecessors policy
      return (.new journal, ⟨predecessors.map lineageKey, []⟩)
    | .ok journal =>
      let progress ← (predecessors.foldlM checkEntry ⟨journal, false, [], []⟩ : Migration _)
      let unseen := predecessors.filter fun e => (progress.journal.entry (lineageKey e)).isNone
      if unseen.isEmpty then
        return (if progress.changed then .new progress.journal else .existing progress.journal,
          progress.checks)
      let seeded ← freshJournal unseen policy
      let read := progress.checks.read ++ unseen.map lineageKey
      return (.new (seeded.mergeStored progress.journal (some binding)), { progress.checks with read })

/-- Store `journal` after merging in whatever is stored now. Returns the journal as it is then,
    also when the store failed. -/
def storeMerged (journal : MigrationJournal) (binding : Option JournalBinding)
    (rebuild : Option (List DelegateLineageEntry × SecretSelectionPolicy)) :
    Migration (Except JournalError Unit × MigrationJournal) := do
  let store (merged : MigrationJournal) : Migration (Except JournalError Unit × MigrationJournal) := do
    let stored ← storeJournal merged.encode
    return (stored.mapError fun e => .successor s!"journal store failed: {e}", merged)
  match ← loadJournal with
  | .error e => return (.error (.successor s!"journal re-read before store failed: {e}"), journal)
  | .ok none => store journal
  | .ok (some bytes) =>
    match MigrationJournal.decode bytes with
    | .ok stored => store (journal.mergeStored stored binding)
    | .error (.unknownVersion v) => return (.error (.foreignVersion v), journal)
    | .error (.corrupt e) =>
      match rebuild with
      | none =>
        return (.error (.successor
          s!"stored journal is corrupt ({e}); call begin_migration_journal first"), journal)
      | some (lineage, policy) =>
        match ← (freshJournal lineage policy).run with
        | .ok rebuilt => store (journal.mergeStored rebuilt binding)
        | .error err => return (.error err, journal)

/-- The status of a journal with what could not be verified counted as an import under way. -/
def statusWithUnverified (journal : MigrationJournal) (unverified : List (DelegateKey × UInt32))
    (predecessors : List DelegateLineageEntry) (binding : JournalBinding) : JournalStatus :=
  if unverified.isEmpty then journal.status predecessors binding
  else
    let view := unverified.foldl (fun view check => (view.markImportStarted check.1 check.2).1) journal
    view.status predecessors binding

def beginMigrationJournal (predecessors : List DelegateLineageEntry)
    (policy : SecretSelectionPolicy) (importRevision : UInt32) : Fallible JournalStatus := do
  let binding := JournalBinding.new policy importRevision
  let (started, checks) ← startJournal predecessors policy binding
  match started with
  | .existing journal =>
    return statusWithUnverified journal checks.unverified predecessors binding
  | .new journal =>
    let (stored, journal) ←
      (storeMerged journal (some binding) (some (predecessors, policy)) : Migration _)
    match stored with
    | .error e => throw e
    | .ok () => return statusWithUnverified journal checks.unverified predecessors binding

end FreenetMigrate.Migrate
