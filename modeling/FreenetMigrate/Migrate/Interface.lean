import FreenetMigrate.Bytes.Fixed
import FreenetMigrate.Calls.Program

namespace FreenetMigrate.Migrate

open Calls

structure DelegateKey where
  key : Fixed 32
  codeHash : Fixed 32
  deriving DecidableEq

/-- `DelegateKey::bytes`: what markers and journal entries are keyed by. -/
def DelegateKey.bytes (predecessor : DelegateKey) : Fixed 32 := predecessor.key

structure DelegateLineageEntry where
  generation : UInt32
  codeHash : Fixed 32
  delegateKey : Fixed 32
  deriving DecidableEq

def lineageKey (e : DelegateLineageEntry) : DelegateKey := ⟨e.delegateKey, e.codeHash⟩

@[simp] theorem lineageKey_bytes (e : DelegateLineageEntry) : (lineageKey e).bytes = e.delegateKey := rfl

def sampleEntry (generation : UInt8) : DelegateLineageEntry :=
  ⟨generation.toUInt32, .zero 32, ⟨List.replicate 32 generation, List.length_replicate⟩⟩

/-- How predecessors are selected. The acknowledgements two of them carry are evidence only. -/
inductive SecretSelectionPolicy
  | newestSnapshotWins
  | newestSnapshotWinsContinuePastUnresponsive
  | unionAllGenerations
  deriving DecidableEq

/-- How a generation-keyed seal of the older import covers a predecessor: at or above its
    generation, or for that very generation only. -/
inductive LegacyBridge
  | atOrAboveGeneration
  | exactGenerationOnly
  deriving DecidableEq

namespace SecretSelectionPolicy

def dataBearingIsAuthoritative (policy : SecretSelectionPolicy) (hadData : Bool) : Bool :=
  match policy with
  | .newestSnapshotWins => hadData
  | .newestSnapshotWinsContinuePastUnresponsive => hadData
  | .unionAllGenerations => false

def unresponsiveTerminates (policy : SecretSelectionPolicy) (priorSawData : Bool) : Bool :=
  match policy with
  | .newestSnapshotWins => true
  | .newestSnapshotWinsContinuePastUnresponsive => priorSawData
  | .unionAllGenerations => false

def legacyBridge : SecretSelectionPolicy → LegacyBridge
  | .newestSnapshotWins => .atOrAboveGeneration
  | .newestSnapshotWinsContinuePastUnresponsive => .atOrAboveGeneration
  | .unionAllGenerations => .exactGenerationOnly

end SecretSelectionPolicy

inductive MigrationMarker
  | inProgress (sawData : Bool)
  | done (hadData : Bool)
  deriving DecidableEq

structure MarkerQuery where
  predecessor : DelegateKey
  generation : UInt32
  legacyBridge : LegacyBridge
  deriving DecidableEq

inductive ProbeVerdict
  | executable
  | noReply
  | notInstalled
  deriving DecidableEq

abbrev SecretPair : Type := Bytes × Bytes

structure RecoveredSecret where
  predecessor : DelegateKey
  generation : UInt32
  key : Bytes
  value : Bytes
  retry : Bool
  deriving DecidableEq

inductive RetryAdvice
  | retryable
  | permanent
  deriving DecidableEq

inductive ItemWrite
  | written
  | alreadyAuthoritative
  | failed (error : String) (retry : RetryAdvice)
  deriving DecidableEq

inductive Request
  | migrationMarker (query : MarkerQuery)
  | recordMarker (predecessor : DelegateKey) (marker : MigrationMarker)
  | writeSecret (item : RecoveredSecret)
  | flushPredecessor (predecessor : DelegateKey)
  | loadJournal
  | storeJournal (journal : Bytes)
  | probeVerdict (predecessor : DelegateKey)
  | fetchSecrets (predecessor : DelegateKey)
  deriving DecidableEq

/-- An app's error is its debug text, which is all the code does with it. -/
abbrev Answer : Request → Type
  | .migrationMarker _ => Except String (Option MigrationMarker)
  | .recordMarker _ _ => Except String Unit
  | .writeSecret _ => ItemWrite
  | .flushPredecessor _ => Except String Unit
  | .loadJournal => Except String (Option Bytes)
  | .storeJournal _ => Except String Unit
  | .probeVerdict _ => Except String ProbeVerdict
  | .fetchSecrets _ => Except String (List SecretPair)

abbrev Migration (α : Type) : Type := Program Request Answer α

abbrev History : Type := List (Event Request Answer)

def migrationMarker (query : MarkerQuery) : Migration (Except String (Option MigrationMarker)) :=
  Program.request (Request.migrationMarker query)

def recordMarker (predecessor : DelegateKey) (marker : MigrationMarker) :
    Migration (Except String Unit) := Program.request (Request.recordMarker predecessor marker)

def writeSecret (item : RecoveredSecret) : Migration ItemWrite :=
  Program.request (Request.writeSecret item)

def flushPredecessor (predecessor : DelegateKey) : Migration (Except String Unit) :=
  Program.request (Request.flushPredecessor predecessor)

def loadJournal : Migration (Except String (Option Bytes)) := Program.request Request.loadJournal

def storeJournal (journal : Bytes) : Migration (Except String Unit) :=
  Program.request (Request.storeJournal journal)

def probeVerdict (predecessor : DelegateKey) : Migration (Except String ProbeVerdict) :=
  Program.request (Request.probeVerdict predecessor)

def fetchSecrets (predecessor : DelegateKey) : Migration (Except String (List SecretPair)) :=
  Program.request (Request.fetchSecrets predecessor)

def MARKER_NS : Bytes := 0 :: ascii "freenet-migrate/"
def JOURNAL_NS : Bytes := 0 :: ascii "freenet-migrate-journal/"
def MIGRATION_JOURNAL_KEY : Bytes := 0 :: ascii "freenet-migrate-journal/v1"

def isMarker (key : Bytes) : Bool := MARKER_NS.isPrefixOf key || JOURNAL_NS.isPrefixOf key

structure ImportTally where
  written : Nat
  skipped : Nat
  failed : Nat
  rejected : Nat
  withheld : Nat
  deriving DecidableEq

namespace ImportTally

def default : ImportTally := ⟨0, 0, 0, 0, 0⟩

def offered (tally : ImportTally) : Nat :=
  tally.written + tally.skipped + tally.failed + tally.rejected + tally.withheld

def isClean (tally : ImportTally) : Bool :=
  tally.failed == 0 && tally.rejected == 0 && tally.withheld == 0

def retryMayHelp (tally : ImportTally) : Bool := decide (0 < tally.failed) || decide (0 < tally.withheld)

end ImportTally

inductive WriterStage
  | readMarker
  | beginMarker
  | item
  | flush
  | completeMarker
  | journalFlag
  | journalUnavailable
  deriving DecidableEq

structure WriterFailure where
  stage : WriterStage
  error : String
  deriving DecidableEq

inductive PredecessorMigration
  | imported (key : DelegateKey) (generation : UInt32) (tally : ImportTally)
  | noData (key : DelegateKey) (generation : UInt32)
  | alreadyMigrated (key : DelegateKey) (generation : UInt32)
  | unresponsive (key : DelegateKey) (generation : UInt32) (error : Option String)
  | incomplete (key : DelegateKey) (generation : UInt32) (tally : ImportTally)
      (failure : Option WriterFailure)
  | writerUnavailable (key : DelegateKey) (generation : UInt32) (failure : WriterFailure)
  | superseded (key : DelegateKey) (generation : UInt32)
  deriving DecidableEq

namespace PredecessorMigration

def key : PredecessorMigration → DelegateKey
  | .imported key _ _ => key
  | .noData key _ => key
  | .alreadyMigrated key _ => key
  | .unresponsive key _ _ => key
  | .incomplete key _ _ _ => key
  | .writerUnavailable key _ _ => key
  | .superseded key _ => key

def generation : PredecessorMigration → UInt32
  | .imported _ generation _ => generation
  | .noData _ generation => generation
  | .alreadyMigrated _ generation => generation
  | .unresponsive _ generation _ => generation
  | .incomplete _ generation _ _ => generation
  | .writerUnavailable _ generation _ => generation
  | .superseded _ generation => generation

end PredecessorMigration

def EXPORTED_NOTHING_AFTER_DATA : String := "exported nothing, but an earlier attempt saw data"

def EXPORTED_FEWER_AFTER_DATA : String :=
  "exported fewer items than an earlier attempt that started an import saw"

end FreenetMigrate.Migrate
