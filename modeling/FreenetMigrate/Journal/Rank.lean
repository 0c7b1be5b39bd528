import FreenetMigrate.Journal.Operations
import Mathlib.Order.WithBot

namespace FreenetMigrate.Journal

open Migrate

/-- What an entry is worth under a binding; an entry that is not there is worth least. -/
def JournalBinding.worth (binding : JournalBinding) : Option JournalState → WithBot (ℕ ×ₗ ℕ)
  | none => ⊥
  | some state => rank (effective state binding)

theorem worth_of_holds {binding : JournalBinding} {state : JournalState}
    (holds : Holds binding state) : binding.worth (some state) = rank state := by
  change ((rank (effective state binding) : ℕ ×ₗ ℕ) : WithBot (ℕ ×ₗ ℕ)) = _
  rw [holds]

/-- The rank from which an entry shows that items of its predecessor may be in the successor. -/
def importing : ℕ ×ₗ ℕ := toLex (2, 0)

theorem importing_le_rank_iff {state : JournalState} :
    importing ≤ rank state ↔
      (∃ attempts rejected absentStreak itemsSeen,
        state = .pending attempts .started rejected absentStreak itemsSeen) ∨
      ∃ resolution, state = .resolved resolution ∧ resolution.isDataBearing = true := by
  cases state with
  | pending attempts flag rejected absentStreak itemsSeen =>
    cases flag <;> simp [rank, importing, rank_le_iff]
  | resolved resolution =>
    cases resolution <;> simp [rank, importing, rank_le_iff, JournalResolution.isDataBearing]

theorem importing_le_worth {binding : JournalBinding} {state : Option JournalState}
    (enough : (importing : WithBot (ℕ ×ₗ ℕ)) ≤ binding.worth state) :
    ∃ held, state = some held ∧ effective held binding = held ∧ importing ≤ rank held := by
  cases state with
  | none => exact absurd (le_bot_iff.mp enough) (WithBot.coe_ne_bot)
  | some held =>
    have bound : importing ≤ rank (effective held binding) := WithBot.coe_le_coe.mp enough
    rcases effective_cases held binding with same | ⟨rejected, itemsSeen, reopened⟩
    · rw [same] at bound
      exact ⟨held, rfl, same, bound⟩
    · rw [reopened] at bound
      simp [rank, importing, rank_le_iff] at bound

namespace MigrationJournal

def effectiveRank (journal : MigrationJournal) (binding : JournalBinding) (key : Fixed 32) :
    WithBot (ℕ ×ₗ ℕ) := binding.worth (journal.state key)

def HoldsUnder (binding : JournalBinding) (journal : MigrationJournal) : Prop :=
  ∀ key state, journal.state key = some state → Holds binding state

theorem holdsUnder_rebind (journal : MigrationJournal) (binding : JournalBinding) :
    HoldsUnder binding (journal.rebind binding) := by
  intro key state found
  rw [state_rebind] at found
  obtain ⟨before, -, rfl⟩ := Option.map_eq_some_iff.mp found
  exact holds_effective before binding

theorem holds_mergeState {binding : JournalBinding} (ours : Option JournalState)
    (theirs : JournalState) : Holds binding (mergeState (some binding) ours theirs) := by
  cases ours with
  | none => exact holds_effective theirs binding
  | some ours =>
    exact holds_mergeStates (holds_effective theirs binding) (holds_effective ours binding)

theorem holds_mergeStored {binding : JournalBinding} {journal stored : MigrationJournal}
    {key : Fixed 32} {theirs state : JournalState} (listed : stored.state key = some theirs)
    (found : (journal.mergeStored stored (some binding)).state key = some state) :
    Holds binding state := by
  rw [state_mergeStored, listed] at found
  cases found
  exact holds_mergeState ..

theorem HoldsUnder.mergeStored {binding : JournalBinding} {journal : MigrationJournal}
    (holds : HoldsUnder binding journal) (stored : MigrationJournal) :
    HoldsUnder binding (journal.mergeStored stored (some binding)) := by
  intro key state found
  cases listed : stored.state key with
  | some theirs => exact holds_mergeStored listed found
  | none =>
    rw [state_mergeStored, listed] at found
    exact holds key state found

theorem worth_mergeState (binding : JournalBinding) (ours : Option JournalState)
    (theirs : JournalState) :
    binding.worth (some (mergeState (some binding) ours theirs)) =
      max (binding.worth ours) (binding.worth (some theirs)) := by
  have held : Holds binding (mergeState (some binding) ours theirs) := holds_mergeState ..
  rw [worth_of_holds held]
  cases ours with
  | none => exact (max_eq_right bot_le).symm
  | some ours =>
    have joined := rank_mergeStates (effective theirs binding) (effective ours binding)
    rw [max_comm]
    exact congrArg _ joined

theorem effectiveRank_mergeStored (journal stored : MigrationJournal) (binding : JournalBinding)
    (key : Fixed 32) :
    (journal.mergeStored stored (some binding)).effectiveRank binding key =
      max (journal.effectiveRank binding key) (stored.effectiveRank binding key) := by
  unfold effectiveRank
  rw [state_mergeStored]
  cases stored.state key with
  | none => exact (max_eq_left bot_le).symm
  | some theirs => exact worth_mergeState binding (journal.state key) theirs

theorem effectiveRank_rebind (journal : MigrationJournal) (binding : JournalBinding)
    (key : Fixed 32) :
    (journal.rebind binding).effectiveRank binding key = journal.effectiveRank binding key := by
  unfold effectiveRank
  rw [state_rebind]
  cases journal.state key with
  | none => rfl
  | some state =>
    have settled : effective (effective state binding) binding = effective state binding :=
      holds_effective state binding
    change ((rank (effective (effective state binding) binding) : ℕ ×ₗ ℕ) : WithBot (ℕ ×ₗ ℕ)) =
      rank (effective state binding)
    rw [settled]

end MigrationJournal

end FreenetMigrate.Journal
