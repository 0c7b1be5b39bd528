import FreenetMigrate.Journal.Rank

namespace FreenetMigrate.Journal

open Migrate MigrationJournal

variable {binding : JournalBinding}

structure Grows (binding : JournalBinding) (before after : MigrationJournal) : Prop where
  holds : before.HoldsUnder binding → after.HoldsUnder binding
  ranks : before.HoldsUnder binding → ∀ key,
    before.effectiveRank binding key ≤ after.effectiveRank binding key

theorem Grows.refl (journal : MigrationJournal) : Grows binding journal journal :=
  ⟨id, fun _ _ => le_rfl⟩

theorem Grows.trans {first second third : MigrationJournal} (earlier : Grows binding first second)
    (later : Grows binding second third) : Grows binding first third :=
  ⟨fun holds => later.holds (earlier.holds holds),
    fun holds key => (earlier.ranks holds key).trans (later.ranks (earlier.holds holds) key)⟩

theorem Grows.foldl {ι : Type} {put : MigrationJournal → ι → MigrationJournal} {items : List ι}
    (each : ∀ item ∈ items, ∀ journal, Grows binding journal (put journal item))
    (journal : MigrationJournal) : Grows binding journal (items.foldl put journal) := by
  induction items generalizing journal with
  | nil => exact .refl journal
  | cons item rest ih =>
    have first := each item (List.mem_cons_self ..) journal
    exact first.trans (ih (fun item member => each item (List.mem_cons_of_mem _ member)) _)

/-- A journal that shows an import from a predecessor, or its data in the successor. -/
def Importing (binding : JournalBinding) (journal : MigrationJournal) (key : Fixed 32) : Prop :=
  (importing : WithBot (ℕ ×ₗ ℕ)) ≤ journal.effectiveRank binding key

theorem Importing.grow {before after : MigrationJournal} {key : Fixed 32}
    (shown : Importing binding before key) (grows : Grows binding before after)
    (holds : before.HoldsUnder binding) : Importing binding after key :=
  shown.trans (grows.ranks holds key)

theorem Importing.merge_stored {journal held : MigrationJournal} {key : Fixed 32}
    (shown : Importing binding held key) :
    Importing binding (journal.mergeStored held (some binding)) key := by
  unfold Importing at shown ⊢
  rw [effectiveRank_mergeStored]
  exact shown.trans (le_max_right ..)

theorem Importing.merge_own {journal held : MigrationJournal} {key : Fixed 32}
    (shown : Importing binding journal key) :
    Importing binding (journal.mergeStored held (some binding)) key := by
  unfold Importing at shown ⊢
  rw [effectiveRank_mergeStored]
  exact shown.trans (le_max_left ..)

theorem effectiveState_resolved {journal : MigrationJournal} {key : Fixed 32} {resolution : JournalResolution}
    (found : journal.effectiveState key binding = some (.resolved resolution)) :
    journal.state key = some (.resolved resolution) ∧
      effective (.resolved resolution) binding = .resolved resolution := by
  obtain ⟨state, held, same⟩ := Option.map_eq_some_iff.mp found
  rcases effective_cases state binding with kept | ⟨rejected, itemsSeen, reopened⟩
  · obtain rfl := kept.symm.trans same
    exact ⟨held, kept⟩
  · rw [reopened] at same
    cases same

/-- Changing one entry to a state that holds and is worth no less is growth. -/
theorem grows_of_state {before after : MigrationJournal} {changed : Fixed 32} {next : JournalState}
    (states : ∀ key, after.state key = if changed = key then some next else before.state key)
    (holdsNext : before.HoldsUnder binding → Holds binding next)
    (bound : ∀ state, before.state changed = some state → rank state ≤ rank next) :
    Grows binding before after := by
  have holds : before.HoldsUnder binding → after.HoldsUnder binding := by
    intro held key state found
    rw [states] at found
    split at found
    · obtain rfl := Option.some.inj found
      exact holdsNext held
    · exact held key state found
  refine ⟨holds, ?_⟩
  intro held key
  unfold effectiveRank
  have found := states key
  split at found
  · rename_i same
    subst same
    rw [found, worth_of_holds (holdsNext held)]
    cases existing : before.state changed with
    | none => exact bot_le
    | some state =>
      rw [worth_of_holds (held _ _ existing)]
      exact WithBot.coe_le_coe.mpr (bound state existing)
  · rw [found]

theorem holds_current {journal : MigrationJournal} (holds : journal.HoldsUnder binding)
    (key : Fixed 32) : Holds binding (journal.current key) := by
  unfold current
  cases found : journal.state key with
  | none => exact holds_pending ..
  | some state => exact holds key state found

theorem current_of_state {journal : MigrationJournal} {key : Fixed 32} {state : JournalState}
    (found : journal.state key = some state) : journal.current key = state := by
  rw [current, found, Option.getD_some]

theorem holds_startImport {state : JournalState} (holds : Holds binding state) :
    Holds binding (startImport state).1 := by
  cases state with
  | pending => exact holds_pending ..
  | resolved resolution =>
    simp only [startImport]
    split
    · exact holds
    · exact holds_pending ..

theorem rank_le_startImport (state : JournalState) : rank state ≤ rank (startImport state).1 := by
  cases state with
  | pending attempts flag => cases flag <;> simp [startImport, rank, rank_le_iff]
  | resolved resolution =>
    cases resolution <;> simp [startImport, JournalResolution.isDataBearing, rank, rank_le_iff]

theorem importing_le_startImport (state : JournalState) : importing ≤ rank (startImport state).1 := by
  cases state with
  | pending attempts flag => simp [startImport, rank, importing]
  | resolved resolution =>
    cases resolution <;>
      simp [startImport, JournalResolution.isDataBearing, rank, importing, rank_le_iff]

theorem grows_markImportStarted (journal : MigrationJournal) (predecessor : DelegateKey)
    (generation : UInt32) :
    Grows binding journal (journal.markImportStarted predecessor generation).1 := by
  refine grows_of_state (state_markImportStarted journal predecessor generation)
    (fun holds => holds_startImport (holds_current holds _)) ?_
  intro state found
  rw [current_of_state found]
  exact rank_le_startImport state

theorem importing_markImportStarted {journal : MigrationJournal}
    (holds : journal.HoldsUnder binding) (predecessor : DelegateKey) (generation : UInt32) :
    Importing binding (journal.markImportStarted predecessor generation).1 predecessor.bytes := by
  have found := state_markImportStarted journal predecessor generation predecessor.bytes
  rw [if_pos rfl] at found
  unfold Importing effectiveRank
  rw [found, worth_of_holds (holds_startImport (holds_current holds _))]
  exact WithBot.coe_le_coe.mpr (importing_le_startImport _)

@[simp] theorem rank_raiseCount (items : UInt32) (state : JournalState) :
    rank (raiseCount items state) = rank state := by
  cases state with
  | resolved => rfl
  | pending attempts flag => cases flag <;> rfl

theorem holds_raiseCount {state : JournalState} (holds : Holds binding state) (items : UInt32) :
    Holds binding (raiseCount items state) := by
  cases state with
  | resolved => exact holds
  | pending attempts flag => cases flag <;> exact holds_pending ..

theorem grows_noteItemsSeen (journal : MigrationJournal) (predecessor : DelegateKey)
    (items : UInt32) : Grows binding journal (journal.noteItemsSeen predecessor items).1 := by
  have states := state_noteItemsSeen journal predecessor items
  cases found : journal.state predecessor.bytes with
  | none =>
    have same : ∀ key, (journal.noteItemsSeen predecessor items).1.state key = journal.state key := by
      intro key
      rw [states]
      split
      · rename_i here
        rw [← here, found]
        rfl
      · rfl
    refine ⟨?_, ?_⟩
    · intro holds key state held
      rw [same] at held
      exact holds key state held
    · intro _ key
      unfold effectiveRank
      rw [same]
  | some state =>
    have changed : ∀ key, (journal.noteItemsSeen predecessor items).1.state key =
        if predecessor.bytes = key then some (raiseCount items state) else journal.state key := by
      intro key
      rw [states]
      split
      · rename_i here
        rw [← here, found, Option.map_some]
      · rfl
    refine grows_of_state changed (fun holds => holds_raiseCount (holds _ _ found) items) ?_
    intro other held
    obtain rfl := Option.some.inj (held.symm.trans found)
    exact (rank_raiseCount items _).ge

def OutcomeHolds (binding : JournalBinding) : RunOutcome → Prop
  | .resolved resolution => Holds binding (.resolved resolution)
  | _ => True

theorem holds_outcomeState {state : JournalState} {outcome : RunOutcome}
    (holds : Holds binding state) (outcomeHolds : OutcomeHolds binding outcome) :
    Holds binding (outcomeState state outcome) := by
  cases outcome with
  | resolved resolution =>
    cases state with
    | resolved => exact outcomeHolds
    | pending =>
      cases resolution with
      | importedWithRejections rejected revision seen =>
        simp only [OutcomeHolds, outcomeState, Holds, effective] at outcomeHolds ⊢
        split at outcomeHolds
        · cases outcomeHolds
        · rename_i current
          rw [if_neg current]
      | imported | noData | supersededByAuthoritative => exact outcomeHolds
  | unresolved absent =>
    cases state with
    | pending => exact holds_pending ..
    | resolved => exact holds
  | unexamined => cases state <;> exact holds

theorem grows_record (journal : MigrationJournal) (predecessor : DelegateKey) (generation : UInt32)
    {outcome : RunOutcome} (outcomeHolds : OutcomeHolds binding outcome) :
    Grows binding journal (journal.record predecessor generation outcome) := by
  refine grows_of_state (state_record journal predecessor generation outcome) ?_ ?_
  · intro holds
    have current := holds_current holds predecessor.bytes
    exact holds_mergeStates current (holds_outcomeState current outcomeHolds)
  · intro state found
    rw [current_of_state found, rank_mergeStates]
    exact le_max_left ..

end FreenetMigrate.Journal
