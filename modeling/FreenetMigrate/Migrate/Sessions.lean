import FreenetMigrate.Joins.Greatest
import FreenetMigrate.Journal.Cbor
import FreenetMigrate.Migrate.Storing
import Mathlib.Logic.Relation

namespace FreenetMigrate.Migrate

open Calls Journal Joins

inductive Edit
  | record (predecessor : DelegateKey) (generation : UInt32) (outcome : RunOutcome)
  | markImportStarted (predecessor : DelegateKey) (generation : UInt32)
  | noteItemsSeen (predecessor : DelegateKey) (items : UInt32)
  | rebind (binding : JournalBinding)

def Edit.apply (journal : MigrationJournal) : Edit → MigrationJournal
  | .record predecessor generation outcome => journal.record predecessor generation outcome
  | .markImportStarted predecessor generation => (journal.markImportStarted predecessor generation).1
  | .noteItemsSeen predecessor items => (journal.noteItemsSeen predecessor items).1
  | .rebind binding => journal.rebind binding

structure Sessions (Session : Type) where
  stored : Option Bytes
  working : Session → MigrationJournal

section System

variable [Ciborium] {Session : Type} [DecidableEq Session]

/-- One session loads the journal, edits its copy, or stores it in one read-merge-write. A session
    that finds no readable journal starts from one of its own making. -/
inductive SessionStep (binding : JournalBinding) : Sessions Session → Sessions Session → Prop
  | load {before : Sessions Session} (session : Session) {journal : MigrationJournal}
      (loaded : ∀ found, storedJournal before.stored = some found → journal = found) :
      SessionStep binding before
        { before with working := Function.update before.working session journal }
  | edit {before : Sessions Session} (session : Session) (edit : Edit) :
      SessionStep binding before
        { before with
          working := Function.update before.working session (edit.apply (before.working session)) }
  | store {before : Sessions Session} (session : Session)
      (rebuild : Option (List DelegateLineageEntry × SecretSelectionPolicy)) {events : History}
      {after : Option Bytes} {result : Except JournalError Unit} {journal : MigrationJournal}
      (stored : Executes journalWorld before.stored
        (storeMerged (before.working session) (some binding) rebuild) events after (result, journal)) :
      SessionStep binding before ⟨after, Function.update before.working session journal⟩

abbrev SessionRun (binding : JournalBinding) : Sessions Session → Sessions Session → Prop :=
  Relation.ReflTransGen (SessionStep binding)

variable [LawfulCiborium] {binding : JournalBinding} {before after : Sessions Session}

theorem rank_le_of_step (step : SessionStep binding before after) (key : Fixed 32) :
    storedRank binding before.stored key ≤ storedRank binding after.stored key := by
  cases step with
  | load | edit => exact le_rfl
  | store session rebuild stored =>
    exact (stores_of_executes stored).rank_le journalKept_journalWorld key

theorem rank_le_of_run (run : SessionRun binding before after) (key : Fixed 32) :
    storedRank binding before.stored key ≤ storedRank binding after.stored key := by
  induction run with
  | refl => exact le_rfl
  | tail _ step ih => exact ih.trans (rank_le_of_step step key)

end System

def storeAll (binding : JournalBinding) (start : MigrationJournal) (copies : List MigrationJournal) :
    MigrationJournal :=
  copies.foldl (fun stored working => working.mergeStored stored (some binding)) start

/-- The stored journal ends up worth the greatest of everything merged into it. -/
theorem effectiveRank_storeAll (binding : JournalBinding) (start : MigrationJournal)
    (copies : List MigrationJournal) (key : Fixed 32) :
    some ((storeAll binding start copies).effectiveRank binding key) =
      keepGreatest (some (start.effectiveRank binding key))
        (copies.map fun copy => copy.effectiveRank binding key) := by
  induction copies generalizing start with
  | nil => rfl
  | cons copy rest ih =>
    have step := ih (copy.mergeStored start (some binding))
    rw [MigrationJournal.effectiveRank_mergeStored, max_comm] at step
    exact step

theorem effectiveRank_storeAll_congr {binding : JournalBinding} {start : MigrationJournal}
    {copies others : List MigrationJournal} (same : ∀ copy, copy ∈ copies ↔ copy ∈ others)
    (key : Fixed 32) :
    (storeAll binding start copies).effectiveRank binding key =
      (storeAll binding start others).effectiveRank binding key := by
  apply Option.some.inj
  rw [effectiveRank_storeAll, effectiveRank_storeAll]
  apply keepGreatest_congr
  ext value
  simp only [everHeld, Set.mem_ofPred_eq, List.mem_map, same]

/-- An entry that only the working copy lists is stored as recorded, whatever the binding. -/
theorem unlisted_superseded_stands :
    ((MigrationJournal.empty.record (lineageKey (sampleEntry 1)) 1
        (.resolved .supersededByAuthoritative)).mergeStored .empty (some ⟨.union, 0⟩)).state
          (sampleEntry 1).delegateKey = some (.resolved .supersededByAuthoritative) ∧
      effective (.resolved .supersededByAuthoritative) ⟨.union, 0⟩ = .fresh := by
  constructor
  · rw [MigrationJournal.state_mergeStored, MigrationJournal.record, MigrationJournal.state_insert]
    decide
  · rfl

/-- Merging is a join of ranks, so that no session loses what another stored, whatever the order
    and the repetition of the stores; and every entry that the stored journal lists, or that held
    in the working copy, holds once they are merged. -/
theorem stored_journal_is_join [Ciborium] [LawfulCiborium] {Session : Type} [DecidableEq Session] :
    (∀ older newer, rank (mergeStates older newer) = max (rank older) (rank newer)) ∧
    (∀ binding (before after : Sessions Session), SessionRun binding before after →
      ∀ key, storedRank binding before.stored key ≤ storedRank binding after.stored key) ∧
    (∀ binding start copies others, (∀ copy, copy ∈ copies ↔ copy ∈ others) →
      ∀ key, (storeAll binding start copies).effectiveRank binding key =
        (storeAll binding start others).effectiveRank binding key) ∧
    ∀ (binding : JournalBinding) (journal stored : MigrationJournal) key state,
      (journal.mergeStored stored (some binding)).state key = some state →
      (stored.state key).isSome ∨ journal.HoldsUnder binding → effective state binding = state := by
  refine ⟨rank_mergeStates, fun _ _ _ run => rank_le_of_run run,
    fun _ _ _ _ same => effectiveRank_storeAll_congr same, ?_⟩
  intro binding journal stored key state found cause
  rcases cause with listed | holds
  · obtain ⟨theirs, listed⟩ := Option.isSome_iff_exists.mp listed
    exact MigrationJournal.holds_mergeStored listed found
  · exact holds.mergeStored stored key state found

open scoped Cbor in
theorem stored_journal_is_join_flag :
    let copy := (MigrationJournal.empty.markImportStarted (lineageKey (sampleEntry 1)) 1).1
    storedRank ⟨.union, 0⟩ none (sampleEntry 1).delegateKey ≤
      storedRank ⟨.union, 0⟩ (some copy.encode) (sampleEntry 1).delegateKey := by
  intro copy
  have started : SessionStep ⟨.union, 0⟩ (⟨none, fun _ => .empty⟩ : Sessions Unit)
      ⟨none, Function.update (fun _ => .empty) () copy⟩ :=
    .edit () (.markImportStarted (lineageKey (sampleEntry 1)) 1)
  have stored : SessionStep ⟨.union, 0⟩
      (⟨none, Function.update (fun _ => .empty) () copy⟩ : Sessions Unit)
      ⟨some copy.encode, Function.update (Function.update (fun _ => .empty) () copy) () copy⟩ := by
    have nothing : journalWorld none .loadJournal (.ok none) none := ⟨rfl, rfl⟩
    have written : journalWorld none (.storeJournal copy.encode) (.ok ()) (some copy.encode) := rfl
    exact .store () none (.call nothing (.call written (.done _ _)))
  exact stored_journal_is_join.2.1 _ _ _ (.tail (.single started) stored) _

end FreenetMigrate.Migrate
