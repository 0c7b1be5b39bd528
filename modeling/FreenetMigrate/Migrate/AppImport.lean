import FreenetMigrate.Migrate.JournaledRun
import FreenetMigrate.Migrate.Observer
import FreenetMigrate.Migrate.Successor

namespace FreenetMigrate.Migrate

open Calls Journal MigrationJournal

inductive AppImport
  | flagged
  | alreadyImported
  deriving DecidableEq

def beginFirst (why : String) : JournalError :=
  .successor s!"{why}; call begin_migration_journal first"

/-- The journal that is stored. Starting one here would skip the seeding off the markers. -/
def loadBegun [Ciborium] : Fallible MigrationJournal := do
  match ← (loadJournal : Migration _) with
  | .error e => throw (.successor s!"journal load failed: {e}")
  | .ok none => throw (beginFirst "no journal is stored")
  | .ok (some bytes) =>
    match MigrationJournal.decode bytes with
    | .ok journal => return journal
    | .error (.unknownVersion v) => throw (.foreignVersion v)
    | .error (.corrupt e) => throw (beginFirst s!"stored journal is corrupt ({e})")

def holdsSnapshot (journal : MigrationJournal) (e : DelegateLineageEntry) : Bool :=
  match (journal.entry (lineageKey e)).map JournalEntry.state with
  | some (.resolved r) => r.isDataBearing
  | some (.pending _ importFlag rejected _ _) => importFlag == .started || decide (0 < rejected)
  | none => false

def supersededBy (newer : UInt32) : JournalError :=
  .notImportable s!"generation {newer} holds the authoritative snapshot under the snapshot policy"

def heedNewer (policy : SecretSelectionPolicy) (newer : DelegateLineageEntry) : Fallible Unit := do
  match ← (exactMarker (lineageKey newer) newer.generation : Migration _) with
  | .error e => throw (.successor s!"marker read failed for a newer generation: {e}")
  | .ok (some (.inProgress true)) => throw (supersededBy newer.generation)
  | .ok (some (.done true)) => throw (supersededBy newer.generation)
  -- Only its empty seal says that it answered "nothing".
  | .ok (some (.done false)) => return ()
  | .ok _ =>
    if policy.unresponsiveTerminates false then
      throw (.notImportable (s!"generation {newer.generation} has not answered that it holds nothing, " ++
        "and NewestSnapshotWins does not import past it (until it does, which it may never)"))
    else return ()

/-- Under a snapshot policy the app may import only where the walk would. The journal is asked about
    every newer generation before a marker is read. -/
def checkNewer (predecessors : List DelegateLineageEntry) (policy : SecretSelectionPolicy)
    (journal : MigrationJournal) (generation : UInt32) : Fallible Unit :=
  if isSnapshot policy then
    let newer := predecessors.filter fun e => decide (generation < e.generation)
    match newer.find? (holdsSnapshot journal) with
    | some e => throw (supersededBy e.generation)
    | none => newer.foldlM (fun _ e => heedNewer policy e) ()
  else return ()

def holdsData (journal : MigrationJournal) (key : DelegateKey) : Bool :=
  match (journal.entry key).map JournalEntry.state with
  | some (.resolved r) => r.isDataBearing
  | _ => false

def readMarker (query : MarkerQuery) : Fallible (Option MigrationMarker) := do
  match ← (migrationMarker query : Migration _) with
  | .error e => throw (.successor s!"marker read failed: {e}")
  | .ok marker => return marker

/-- Record the import as the predecessor's in-progress marker, which must read back as recorded. -/
def recordIntent (query : MarkerQuery) : Fallible AppImport := do
  match ← (recordMarker query.predecessor (.inProgress true) : Migration _) with
  | .error e => throw (.successor s!"in-progress marker failed: {e}")
  | .ok () =>
    let readBack ← (migrationMarker query : Migration _)
    match readBack with
    | .ok (some (.inProgress true)) => return .flagged
    | _ =>
      throw (.successor (s!"the marker store reads {debugRead readBack} after recording an " ++
        "in-progress data marker (see the SuccessorSecretsIo::migration_marker contract)"))

/-- Flag the import, in the journal first: a kill before the marker leaves the flag. -/
def flagAppImport [Ciborium] (journal : MigrationJournal) (binding : JournalBinding)
    (query : MarkerQuery) (items : Option UInt32) : Fallible AppImport := do
  let (journal, changed) :=
    (⟨journal, none⟩ : JournalWatch).flag query.predecessor query.generation items
  if changed then
    let (stored, journal) ← (storeMerged journal (some binding) none : Migration _)
    match stored with
    | .error e => throw e
    | .ok () =>
      -- That store re-read the journal: another session may have resolved it.
      if holdsData journal query.predecessor then return .alreadyImported else recordIntent query
  else recordIntent query

def importUnlessComplete [Ciborium] (journal : MigrationJournal) (binding : JournalBinding)
    (query : MarkerQuery) (items : Option UInt32) : Fallible AppImport := do
  if holdsData journal query.predecessor then return .alreadyImported
  let marker ← readMarker query
  if marker = some (.done true) then
    if query.legacyBridge = .atOrAboveGeneration then
      let own ← readMarker { query with legacyBridge := .exactGenerationOnly }
      if own = some (.done true) then return .alreadyImported
      else
        throw (.notImportable
          "a legacy seal for a newer generation supersedes it under the snapshot policy")
    else return .alreadyImported
  else flagAppImport journal binding query items

def noteAppImportStarted [Ciborium] (predecessors : List DelegateLineageEntry)
    (predecessor : DelegateKey) (policy : SecretSelectionPolicy) (importRevision : UInt32)
    (items : Option UInt32) : Fallible AppImport := do
  match predecessors.find? fun e => decide (lineageKey e = predecessor) with
  | none => throw (.notImportable "the predecessor is not in the lineage")
  | some e =>
    let journal ← loadBegun
    if (journal.entry predecessor).isNone then
      throw (beginFirst "the journal has no entry for the predecessor")
    else
      checkNewer predecessors policy journal e.generation
      let binding := JournalBinding.new policy importRevision
      importUnlessComplete (journal.rebind binding) binding
        ⟨predecessor, e.generation, policy.legacyBridge⟩ items

end FreenetMigrate.Migrate
