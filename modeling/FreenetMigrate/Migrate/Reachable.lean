import FreenetMigrate.Migrate.Upheld
import Mathlib.Logic.Relation

namespace FreenetMigrate.Migrate

open Calls Journal MigrationJournal

section Outcomes

variable {policy : SecretSelectionPolicy} {importRevision : UInt32} {outcome : WalkState JournalWatch}

theorem toU32_pos {n : Nat} (positive : 0 < n) : 0 < toU32 n := by
  unfold toU32
  split
  · rename_i small
    rw [UInt32.lt_iff_toNat_lt, UInt32.toNat_ofNat_of_lt' small]
    exact positive
  · decide

theorem rejectsSome_resolveRow {resolved : List (Option JournalResolution)}
    {row : PredecessorMigration} :
    RejectsSome (resolveRow outcome policy importRevision resolved row).1 := by
  unfold resolveRow
  split
  · trivial
  · split
    · trivial
    · split
      · rename_i resolution found
        cases row with
        | incomplete key generation tally failure =>
          simp only [rowResolution] at found
          split at found
          · rename_i rejections
            obtain rfl := Option.some.inj found
            simp only [Bool.and_eq_true, decide_eq_true_eq] at rejections
            exact toU32_pos rejections.1.1.1
          · cases found
        | imported | noData =>
          obtain rfl := Option.some.inj found
          trivial
        | alreadyMigrated | superseded =>
          simp only [rowResolution] at found
          split at found <;> cases found <;> trivial
        | unresponsive | writerUnavailable => cases found
      · split <;> trivial

theorem accounts_recordOutcomes (accounts : Accounts outcome.observed.journal) :
    Accounts (recordOutcomes outcome policy (.new policy importRevision)) := by
  refine List.foldlRecOn _ _ accounts ?_
  intro journal accounts row member
  exact accounts.record _ _ (forall_resolveOutcomes outcome.results []
    (fun _ _ => rejectsSome_resolveRow) row.2 (List.of_mem_zip member).2)

end Outcomes

theorem upheld_accounts : Upheld Accounts where
  starts := accounts_newPending
  rebinds := Accounts.rebind
  merges := Accounts.mergeStored
  marks := Accounts.markImportStarted
  counts := Accounts.noteItemsSeen
  resolves accounts key generation _ counted := accounts.record key generation counted

section Reachable

variable [Ciborium]

inductive AppStep (s s' : Successor) : Prop
  | begins {predecessors : List DelegateLineageEntry} {policy : SecretSelectionPolicy}
      {importRevision : UInt32} {events : History}
      (run : Reaches successorWorld s (beginMigrationJournal predecessors policy importRevision).run
        events s')
  | notes {predecessors : List DelegateLineageEntry} {predecessor : DelegateKey}
      {policy : SecretSelectionPolicy} {importRevision : UInt32} {items : Option UInt32}
      {events : History}
      (run : Reaches successorWorld s
        (noteAppImportStarted predecessors predecessor policy importRevision items).run events s')
  | walks {journalKey : Bytes} {importRevision : UInt32} {predecessors : List DelegateLineageEntry}
      {policy : SecretSelectionPolicy} {events : History}
      (run : Reaches successorWorld s
        (migrateDelegateSecretsJournaled journalKey importRevision predecessors policy) events s')

/-- A successor that an app has come to from one in which no journal could be read. -/
def Reachable (s : Successor) : Prop :=
  ∃ start : Successor, storedJournal start.journal = none ∧ Relation.ReflTransGen AppStep start s

def Accounting : Successor → Prop := StoredTells Successor.journal Accounts

variable [LawfulCiborium]

theorem accounting_of_step {s s' : Successor} (step : AppStep s s') (accounting : Accounting s) :
    Accounting s' := by
  cases step with
  | begins run => exact StoredTells.begins journalKept_successorWorld upheld_accounts accounting run
  | notes run => exact StoredTells.notes journalKept_successorWorld upheld_accounts accounting run
  | walks run =>
    exact (secures_journaled journalKept_successorWorld upheld_accounts _ _
      fun _ => accounts_recordOutcomes).reaches run accounting

theorem accounting_of_reachable {s : Successor} (reachable : Reachable s) : Accounting s := by
  obtain ⟨start, unread, run⟩ := reachable
  induction run with
  | refl =>
    intro journal found
    rw [unread] at found
    cases found
  | tail _ step ih => exact accounting_of_step step ih

end Reachable

end FreenetMigrate.Migrate
