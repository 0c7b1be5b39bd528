import FreenetMigrate.Journal.State
import FreenetMigrate.Migrate.Interface
import Std.Data.ExtTreeMap.Lemmas

namespace FreenetMigrate.Journal

open Migrate

structure JournalEntry where
  generation : UInt32
  state : JournalState
  deriving DecidableEq

@[ext] structure MigrationJournal where
  entries : Std.ExtTreeMap (Fixed 32) JournalEntry
  deriving DecidableEq

def PolicyFamily.of : SecretSelectionPolicy → PolicyFamily
  | .newestSnapshotWins => .newestSnapshot
  | .newestSnapshotWinsContinuePastUnresponsive => .newestSnapshot
  | .unionAllGenerations => .union

def JournalBinding.new (policy : SecretSelectionPolicy) (importRevision : UInt32) : JournalBinding :=
  ⟨PolicyFamily.of policy, importRevision⟩

structure PendingPredecessor where
  key : DelegateKey
  generation : UInt32
  attempts : UInt32
  importFlag : ImportFlag
  absentStreak : UInt32
  itemsSeen : UInt32
  deriving DecidableEq

inductive JournalDecodeError
  | unknownVersion (version : UInt64)
  | corrupt (error : String)
  deriving DecidableEq

inductive JournalStatus
  | notStarted
  | unreadable (error : JournalDecodeError)
  | complete (rejectedItems : UInt32)
  | incomplete (pending : List PendingPredecessor) (rejectedItems : UInt32)
  deriving DecidableEq

inductive JournalError
  | successor (error : String)
  | foreignVersion (version : UInt64)
  | notImportable (why : String)
  deriving DecidableEq

def JournalError.display : JournalError → String
  | .successor e => e
  | .foreignVersion v => s!"stored journal has encoding version {v}; this build does not overwrite it"
  | .notImportable why => s!"not importable: {why}"

namespace MigrationJournal

def empty : MigrationJournal := ⟨∅⟩

def insert (journal : MigrationJournal) (key : Fixed 32) (entry : JournalEntry) : MigrationJournal :=
  ⟨journal.entries.insert key entry⟩

def newPending (predecessors : List DelegateLineageEntry) : MigrationJournal :=
  predecessors.foldl (fun journal e => journal.insert e.delegateKey ⟨e.generation, .fresh⟩) empty

def entry (journal : MigrationJournal) (predecessor : DelegateKey) : Option JournalEntry :=
  journal.entries[predecessor.bytes]?

def state (journal : MigrationJournal) (key : Fixed 32) : Option JournalState :=
  journal.entries[key]?.map JournalEntry.state

def effectiveState (journal : MigrationJournal) (key : Fixed 32) (binding : JournalBinding) :
    Option JournalState :=
  (journal.state key).map (effective · binding)

def statusRow (journal : MigrationJournal) (binding : JournalBinding) (e : DelegateLineageEntry) :
    Option PendingPredecessor × UInt32 :=
  match journal.effectiveState e.delegateKey binding with
  | some (.resolved (.importedWithRejections n _ _)) => (none, n)
  | some (.resolved _) => (none, 0)
  | some (.pending attempts importFlag n absentStreak itemsSeen) =>
    (some ⟨lineageKey e, e.generation, attempts, importFlag, absentStreak, itemsSeen⟩, n)
  | none => (some ⟨lineageKey e, e.generation, 0, .none, 0, 0⟩, 0)

def status (journal : MigrationJournal) (predecessors : List DelegateLineageEntry)
    (binding : JournalBinding) : JournalStatus :=
  let pending := predecessors.filterMap fun e => (journal.statusRow binding e).1
  let rejected := predecessors.foldl
    (fun rejected e => saturatingAdd rejected (journal.statusRow binding e).2) 0
  if pending.isEmpty then .complete rejected else .incomplete pending rejected

def rebind (journal : MigrationJournal) (binding : JournalBinding) : MigrationJournal :=
  ⟨journal.entries.map fun _ entry => { entry with state := effective entry.state binding }⟩

def entryOrFresh (journal : MigrationJournal) (predecessor : DelegateKey) (generation : UInt32) :
    JournalEntry :=
  (journal.entry predecessor).getD ⟨generation, .fresh⟩

/-- The state a started import leaves an entry in, and whether that changes it. -/
def startImport : JournalState → JournalState × Bool
  | .pending attempts importFlag rejected absentStreak itemsSeen =>
    (.pending attempts .started rejected absentStreak itemsSeen, importFlag != .started)
  | .resolved r => if r.isDataBearing then (.resolved r, false) else (.pending 0 .started 0 0 0, true)

def markImportStarted (journal : MigrationJournal) (predecessor : DelegateKey)
    (generation : UInt32) : MigrationJournal × Bool :=
  let entry := journal.entryOrFresh predecessor generation
  let (state, changed) := startImport entry.state
  (journal.insert predecessor.bytes { entry with state }, changed)

/-- The most items an attempt that started an import has seen exported, `0` when unknown. -/
def itemsSeen (journal : MigrationJournal) (predecessor : DelegateKey) : UInt32 :=
  match (journal.entry predecessor).map JournalEntry.state with
  | some (.pending _ _ _ _ itemsSeen) => itemsSeen
  | _ => 0

def noteItemsSeen (journal : MigrationJournal) (predecessor : DelegateKey) (items : UInt32) :
    MigrationJournal × Bool :=
  match journal.entry predecessor with
  | some ⟨generation, .pending attempts .started rejected absentStreak itemsSeen⟩ =>
    if itemsSeen < items then
      (journal.insert predecessor.bytes
        ⟨generation, .pending attempts .started rejected absentStreak items⟩, true)
    else (journal, false)
  | _ => (journal, false)

def outcomeState (current : JournalState) (outcome : RunOutcome) : JournalState :=
  match current, outcome with
  | .pending _ _ _ _ itemsSeen, .resolved (.importedWithRejections rejected revision resolvedSeen) =>
    .resolved (.importedWithRejections rejected revision (max itemsSeen resolvedSeen))
  | _, .resolved r => .resolved r
  | .pending attempts importFlag rejected absentStreak itemsSeen, .unresolved absent =>
    .pending (saturatingAdd attempts 1) importFlag rejected
      (if absent then saturatingAdd absentStreak 1 else 0) itemsSeen
  | current, _ => current

/-- Record one journaled walk's outcome, on a journal already rebound. -/
def record (journal : MigrationJournal) (predecessor : DelegateKey) (generation : UInt32)
    (outcome : RunOutcome) : MigrationJournal :=
  let entry := journal.entryOrFresh predecessor generation
  journal.insert predecessor.bytes
    ⟨generation, mergeStates entry.state (outcomeState entry.state outcome)⟩

def evaluate (binding : Option JournalBinding) (state : JournalState) : JournalState :=
  match binding with
  | some b => effective state b
  | none => state

def mergeEntry (binding : Option JournalBinding) (ours : Option JournalEntry)
    (theirs : JournalEntry) : JournalEntry :=
  match ours with
  | some ours =>
    ⟨ours.generation, mergeStates (evaluate binding theirs.state) (evaluate binding ours.state)⟩
  | none => ⟨theirs.generation, evaluate binding theirs.state⟩

def mergeStored (journal stored : MigrationJournal) (binding : Option JournalBinding) :
    MigrationJournal :=
  stored.entries.foldl (fun journal key theirs =>
    journal.insert key (mergeEntry binding journal.entries[key]? theirs)) journal

end MigrationJournal

end FreenetMigrate.Journal
