import FreenetMigrate.Migrate.Walk

namespace FreenetMigrate.Migrate

open Calls Journal

variable [Ciborium]

/-- What the observer of a journaled walk keeps: the working copy, and the first failed flag. -/
structure JournalWatch where
  journal : MigrationJournal
  firstError : Option String

namespace JournalWatch

def stateOf (watch : JournalWatch) (key : DelegateKey) : Option JournalState :=
  (watch.journal.entry key).map JournalEntry.state

def resolvedWithData (watch : JournalWatch) (key : DelegateKey) : Option JournalResolution :=
  match watch.stateOf key with
  | some (.resolved r) => if r.isDataBearing then some r else none
  | _ => none

def importStarted (watch : JournalWatch) (key : DelegateKey) : Bool :=
  match watch.stateOf key with
  | some (.pending _ .started _ _ _) => true
  | _ => false

def flag (watch : JournalWatch) (key : DelegateKey) (generation : UInt32) (items : Option UInt32) :
    MigrationJournal × Bool :=
  let (journal, flagged) := watch.journal.markImportStarted key generation
  match items with
  | none => (journal, flagged)
  | some n =>
    let (journal, counted) := journal.noteItemsSeen key n
    (journal, flagged || counted)

end JournalWatch

/-- The observer of a journaled walk. A flag is stored before the walk goes on. -/
def journalObserver (journalKey : Bytes) (binding : JournalBinding)
    (predecessors : List DelegateLineageEntry) (policy : SecretSelectionPolicy) :
    WalkObserver JournalWatch where
  journaled := true
  withholds key := key == journalKey
  resolvedWithData := JournalWatch.resolvedWithData
  importStarted := JournalWatch.importStarted
  itemsSeen watch key := watch.journal.itemsSeen key
  beforeImport watch key generation items := do
    -- A retry reads the stored journal again even when nothing here changes.
    let retry := items.isSome && watch.importStarted key
    let (journal, changed) := watch.flag key generation items
    if !changed && !retry then return (.ok (), { watch with journal })
    let (stored, journal) ← storeMerged journal (some binding) (some (predecessors, policy))
    match stored with
    | .ok () => return (.ok (), { watch with journal })
    | .error e =>
      let e := s!"journal import flag failed: {e.display}"
      return (.error e, ⟨journal, watch.firstError.or (some e)⟩)

variable {Observed : Type}

def isSnapshot (policy : SecretSelectionPolicy) : Bool := PolicyFamily.of policy == .newestSnapshot

def rowResolution (outcome : WalkState Observed) (policy : SecretSelectionPolicy)
    (importRevision : UInt32) (resolved : List (Option JournalResolution)) :
    PredecessorMigration → Option JournalResolution
  | .imported _ _ _ => some .imported
  | .noData _ _ => some .noData
  | .alreadyMigrated key _ =>
    if key.bytes ∈ outcome.doneWithData then some .imported else some .noData
  | .incomplete _ _ tally failure =>
    -- Only permanent rejection resolves an incomplete import: a retry would be refused again.
    if decide (0 < tally.rejected) && tally.failed == 0 && tally.withheld == 0 &&
        itemFailureAtMost failure then
      some (.importedWithRejections (toU32 tally.rejected) importRevision 0)
    else none
  | .superseded _ _ =>
    if isSnapshot policy && resolved.any (fun r => r.any JournalResolution.isDataBearing) then
      some .supersededByAuthoritative
    else none
  | .unresponsive _ _ _ => none
  | .writerUnavailable _ _ _ => none

/-- The outcome of one row, and the resolution the older rows see for it. -/
def resolveRow (outcome : WalkState Observed) (policy : SecretSelectionPolicy)
    (importRevision : UInt32) (resolved : List (Option JournalResolution))
    (row : PredecessorMigration) : RunOutcome × Option JournalResolution :=
  match outcome.journalResolved.lookup row.key.bytes with
  | some r => (.unexamined, some r)
  | none =>
    if row.key.bytes ∈ outcome.bridged then
      -- A newer generation's seal, which supersedes everything older in this run too.
      (.resolved .supersededByAuthoritative, some .imported)
    else
      match rowResolution outcome policy importRevision resolved row with
      | some r => (.resolved r, some r)
      | none =>
        match row with
        | .superseded _ _ => (.unexamined, none)
        | .writerUnavailable _ _ _ => (.unexamined, none)
        | .unresponsive key _ _ => (.unresolved (decide (key.bytes ∈ outcome.notInstalled)), none)
        | _ => (.unresolved false, none)

def resolveOutcomes (outcome : WalkState Observed) (policy : SecretSelectionPolicy)
    (importRevision : UInt32) :
    List (Option JournalResolution) → List PredecessorMigration → List RunOutcome
  | _, [] => []
  | resolved, row :: rest =>
    let (runOutcome, resolution) := resolveRow outcome policy importRevision resolved row
    runOutcome :: resolveOutcomes outcome policy importRevision (resolved ++ [resolution]) rest

/-- Whether the walk itself read the marker of a row, as that generation's own. -/
def walkReadIt (outcome : WalkState Observed) (row : PredecessorMigration) : Bool :=
  (match row with
    | .superseded _ _ => false
    | .writerUnavailable _ _ failure => failure.stage != .readMarker
    | _ => true) &&
  decide (row.key.bytes ∉ outcome.bridged) && (outcome.journalResolved.lookup row.key.bytes).isNone

def saysNothing (journal : MigrationJournal) (key : DelegateKey) : Bool :=
  match (journal.entry key).map JournalEntry.state with
  | some (.pending _ .none _ _ _) => true
  | some (.resolved r) => !r.isDataBearing
  | _ => false

structure CheckProgress where
  journal : MigrationJournal
  unverified : List (DelegateKey × UInt32)
  reached : List DelegateKey

/-- Check one row against its own marker where neither the walk nor the start read it. -/
def checkRow (outcome : WalkState Observed) (read : List DelegateKey) (progress : CheckProgress)
    (row : PredecessorMigration) : Migration CheckProgress := do
  let key := row.key
  if walkReadIt outcome row then return { progress with reached := progress.reached ++ [key] }
  if key ∈ read then return progress
  if saysNothing progress.journal key then
    match ← exactMarker key row.generation with
    | .ok marker =>
      let unverified := progress.unverified.filter fun check => check.1 ≠ key
      if marker = some (.inProgress true) then
        let journal := (progress.journal.markImportStarted key row.generation).1
        return { progress with journal, unverified }
      else return { progress with unverified }
    | .error _ =>
      if progress.unverified.any fun check => check.1 == key then return progress
      else return { progress with unverified := progress.unverified ++ [(key, row.generation)] }
  else return progress

structure JournaledMigrationReport where
  report : List PredecessorMigration
  status : Option JournalStatus
  journalError : Option String
  deriving DecidableEq

/-- A refused run never reads as complete. -/
def refused (predecessors : List DelegateLineageEntry) (error : String) : JournaledMigrationReport where
  report := (newestFirst predecessors).map fun row =>
    .writerUnavailable row.1 row.2 ⟨.journalUnavailable, error⟩
  status := none
  journalError := some error

def establish (predecessors : List DelegateLineageEntry) (policy : SecretSelectionPolicy)
    (binding : JournalBinding) (started : Started) :
    Migration (Except JournalError Unit × MigrationJournal) :=
  match started with
  | .existing journal => return (.ok (), journal)
  | .new journal => storeMerged journal (some binding) (some (predecessors, policy))

def conclude (predecessors : List DelegateLineageEntry) (policy : SecretSelectionPolicy)
    (binding : JournalBinding) (checks : MarkerChecks) (outcome : WalkState JournalWatch) :
    Migration JournaledMigrationReport := do
  let outcomes := resolveOutcomes outcome policy binding.importRevision [] outcome.results
  let journal := (outcome.results.zip outcomes).foldl
    (fun journal row => journal.record row.1.key row.1.generation row.2) outcome.observed.journal
  let progress ← outcome.results.foldlM (checkRow outcome checks.read)
    ⟨journal, checks.unverified, []⟩
  let unverified := progress.unverified.filter fun check => check.1 ∉ progress.reached
  let (stored, journal) ←
    storeMerged progress.journal (some binding) (some (predecessors, policy))
  match stored with
  | .ok () =>
    return ⟨outcome.results, some (statusWithUnverified journal unverified predecessors binding),
      outcome.observed.firstError⟩
  | .error e => return ⟨outcome.results, none, outcome.observed.firstError.or (some e.display)⟩

/-- The journaled entry point, for an app that keeps its journal under `journalKey` and imports at
    `importRevision`. -/
def migrateDelegateSecretsJournaled (journalKey : Bytes) (importRevision : UInt32)
    (predecessors : List DelegateLineageEntry) (policy : SecretSelectionPolicy) :
    Migration JournaledMigrationReport := do
  let binding := JournalBinding.new policy importRevision
  match ← (startJournal predecessors policy binding).run with
  | .error e => return refused predecessors e.display
  | .ok (started, checks) =>
    let (established, journal) ← establish predecessors policy binding started
    match established with
    | .error e => return refused predecessors s!"journal start failed: {e.display}"
    | .ok () =>
      let observer := journalObserver journalKey binding predecessors policy
      let outcome ← walk observer policy predecessors ⟨journal.rebind binding, none⟩
      conclude predecessors policy binding checks outcome

end FreenetMigrate.Migrate
