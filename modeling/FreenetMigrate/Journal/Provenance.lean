import FreenetMigrate.Journal.Growth

namespace FreenetMigrate.Journal

open Migrate MigrationJournal

inductive ResolutionKind
  | imported
  | noData
  | importedWithRejections
  | supersededByAuthoritative
  deriving DecidableEq

def JournalResolution.kind : JournalResolution → ResolutionKind
  | .imported => .imported
  | .noData => .noData
  | .importedWithRejections _ _ _ => .importedWithRejections
  | .supersededByAuthoritative => .supersededByAuthoritative

theorem isDataBearing_of_kind {first second : JournalResolution} (same : first.kind = second.kind) :
    first.isDataBearing = second.isDataBearing := by
  cases first <;> cases second <;> first | rfl | cases same

theorem mergeStates_resolved {older newer : JournalState} {resolution : JournalResolution}
    (merged : mergeStates older newer = .resolved resolution) :
    (∃ before, older = .resolved before ∧ before.kind = resolution.kind) ∨
      ∃ after, newer = .resolved after ∧ after.kind = resolution.kind := by
  have pending : ∀ {r : JournalResolution} {attempts rejected absentStreak seen : UInt32}
      {flag : ImportFlag}, mergeResolvedPending r
        (.pending attempts flag rejected absentStreak seen) flag seen = .resolved resolution →
      r.kind = resolution.kind := by
    intro r attempts rejected absentStreak seen flag merged
    unfold mergeResolvedPending at merged
    split at merged
    · cases merged
    · split at merged <;> cases merged <;> rfl
  cases older with
  | pending =>
    cases newer with
    | pending => cases merged
    | resolved b => exact .inr ⟨b, rfl, pending merged⟩
  | resolved a =>
    cases newer with
    | pending => exact .inl ⟨a, rfl, pending merged⟩
    | resolved b =>
      simp only [mergeStates] at merged
      split at merged
      · split at merged
        · obtain rfl := JournalState.resolved.inj merged
          exact .inr ⟨_, rfl, rfl⟩
        · obtain rfl := JournalState.resolved.inj merged
          exact .inl ⟨_, rfl, rfl⟩
      · split at merged
        · exact .inr ⟨b, rfl, congrArg JournalResolution.kind (JournalState.resolved.inj merged)⟩
        · exact .inl ⟨a, rfl, congrArg JournalResolution.kind (JournalState.resolved.inj merged)⟩

theorem outcomeState_resolved {state : JournalState} {outcome : RunOutcome}
    {resolution : JournalResolution} (recorded : outcomeState state outcome = .resolved resolution) :
    (∃ before, state = .resolved before ∧ before.kind = resolution.kind) ∨
      ∃ said, outcome = .resolved said ∧ said.kind = resolution.kind := by
  unfold outcomeState at recorded
  split at recorded
  · obtain rfl := JournalState.resolved.inj recorded
    exact .inr ⟨_, rfl, rfl⟩
  · exact .inr ⟨_, rfl, congrArg JournalResolution.kind (JournalState.resolved.inj recorded)⟩
  · cases recorded
  · exact .inl ⟨resolution, recorded, rfl⟩

/-- An entry that is resolved under a binding, if at all, in one of the ways listed. -/
def Admits (binding : JournalBinding) (kinds : ResolutionKind → Prop) (journal : MigrationJournal)
    (key : Fixed 32) : Prop :=
  ∀ resolution, journal.effectiveState key binding = some (.resolved resolution) →
    kinds resolution.kind

section Admits

variable {binding : JournalBinding} {kinds more : ResolutionKind → Prop}
  {journal stored : MigrationJournal} {key : Fixed 32}

theorem Admits.mono (admits : Admits binding kinds journal key)
    (implied : ∀ kind, kinds kind → more kind) : Admits binding more journal key :=
  fun resolution found => implied _ (admits resolution found)

theorem Admits.of_state {after : MigrationJournal} (admits : Admits binding kinds journal key)
    (same : after.state key = journal.state key) : Admits binding kinds after key := by
  intro resolution found
  rw [effectiveState, same] at found
  exact admits resolution found

theorem admits_pending {attempts rejected absentStreak itemsSeen : UInt32} {flag : ImportFlag}
    (held : journal.state key = some (.pending attempts flag rejected absentStreak itemsSeen)) :
    Admits binding kinds journal key := by
  intro resolution found
  rw [effectiveState, held] at found
  cases found

theorem admits_absent (absent : journal.state key = none) : Admits binding kinds journal key := by
  intro resolution found
  rw [effectiveState, absent] at found
  cases found

theorem Admits.kind (admits : Admits binding kinds journal key) {state : JournalState}
    (held : journal.state key = some state) {resolution : JournalResolution}
    (resolved : effective state binding = .resolved resolution) : kinds resolution.kind := by
  apply admits resolution
  rw [effectiveState, held, Option.map_some, resolved]

theorem Admits.rebind (admits : Admits binding kinds journal key) :
    Admits binding kinds (journal.rebind binding) key := by
  intro resolution found
  apply admits resolution
  rw [effectiveState, state_rebind, Option.map_map] at found
  rw [effectiveState, ← found]
  congr 1
  funext state
  exact (effective_effective state binding).symm

theorem Admits.mergeStored (ours : Admits binding kinds journal key)
    (theirs : Admits binding kinds stored key) :
    Admits binding kinds (journal.mergeStored stored (some binding)) key := by
  intro resolution found
  rw [effectiveState, state_mergeStored] at found
  cases listed : stored.state key with
  | none =>
    rw [listed] at found
    exact ours resolution found
  | some their =>
    rw [listed, Option.map_some] at found
    have held : Holds binding (mergeState (some binding) (journal.state key) their) :=
      holds_mergeState ..
    have merged : mergeState (some binding) (journal.state key) their = .resolved resolution :=
      held.symm.trans (Option.some.inj found)
    cases had : journal.state key with
    | none =>
      rw [had] at merged
      exact theirs.kind listed merged
    | some our =>
      rw [had] at merged
      rcases mergeStates_resolved merged with ⟨before, resolved, kind⟩ | ⟨after, resolved, kind⟩
      · exact kind ▸ theirs.kind listed resolved
      · exact kind ▸ ours.kind had resolved

theorem Admits.markImportStarted (admits : Admits binding kinds journal key)
    (predecessor : DelegateKey) (generation : UInt32) :
    Admits binding kinds (journal.markImportStarted predecessor generation).1 key := by
  by_cases here : predecessor.bytes = key
  · subst here
    have states := state_markImportStarted journal predecessor generation predecessor.bytes
    rw [if_pos rfl] at states
    cases held : journal.state predecessor.bytes with
    | none =>
      rw [current, held] at states
      exact admits_pending states
    | some state =>
      rw [current_of_state held] at states
      cases state with
      | pending => exact admits_pending states
      | resolved resolution =>
        simp only [startImport] at states
        split at states
        · exact admits.of_state (states.trans held.symm)
        · exact admits_pending states
  · apply admits.of_state
    rw [state_markImportStarted, if_neg here]

theorem Admits.noteItemsSeen (admits : Admits binding kinds journal key)
    (predecessor : DelegateKey) (items : UInt32) :
    Admits binding kinds (journal.noteItemsSeen predecessor items).1 key := by
  have states := state_noteItemsSeen journal predecessor items key
  split at states
  · cases held : journal.state key with
    | none =>
      rw [held] at states
      exact admits_absent states
    | some state =>
      rw [held, Option.map_some] at states
      cases state with
      | pending attempts flag => cases flag <;> exact admits_pending states
      | resolved resolution => exact admits.of_state (states.trans held.symm)
  · exact admits.of_state states

theorem Admits.record (admits : Admits binding kinds journal key)
    (holds : journal.HoldsUnder binding) (predecessor : DelegateKey) (generation : UInt32)
    {outcome : RunOutcome} (outcomeHolds : OutcomeHolds binding outcome)
    (said : predecessor.bytes = key → ∀ resolution, outcome = .resolved resolution →
      kinds resolution.kind) :
    Admits binding kinds (journal.record predecessor generation outcome) key := by
  by_cases here : predecessor.bytes = key
  · subst here
    have before : ∀ resolution, journal.current predecessor.bytes = .resolved resolution →
        kinds resolution.kind := by
      intro resolution same
      unfold current at same
      cases held : journal.state predecessor.bytes with
      | none =>
        rw [held] at same
        cases same
      | some state =>
        rw [held, Option.getD_some] at same
        exact admits.kind held ((holds _ _ held).trans same)
    intro resolution found
    have current := holds_current holds predecessor.bytes
    have held : Holds binding (mergeStates (journal.current predecessor.bytes)
        (outcomeState (journal.current predecessor.bytes) outcome)) :=
      holds_mergeStates current (holds_outcomeState current outcomeHolds)
    rw [effectiveState, state_record, if_pos rfl, Option.map_some, held] at found
    rcases mergeStates_resolved (Option.some.inj found) with ⟨r, same, kind⟩ | ⟨r, same, kind⟩
    · exact kind ▸ before r same
    · rcases outcomeState_resolved same with ⟨r', same, kind'⟩ | ⟨r', same, kind'⟩
      · exact kind ▸ kind' ▸ before r' same
      · exact kind ▸ kind' ▸ said rfl r' same
  · apply admits.of_state
    rw [state_record, if_neg here]

theorem resolved_of_rank {state other : JournalState} {resolution : JournalResolution}
    (same : rank state = rank other) (resolved : state = .resolved resolution) :
    ∃ found, other = .resolved found := by
  subst resolved
  cases other with
  | resolved found => exact ⟨found, rfl⟩
  | pending attempts flag => cases flag <;> cases resolution <;> simp [rank] at same

theorem Admits.of_rank {other : MigrationJournal}
    (unresolved : Admits binding (fun _ => False) journal key)
    (same : other.effectiveRank binding key = journal.effectiveRank binding key) :
    Admits binding (fun _ => False) other key := by
  intro resolution found
  obtain ⟨state, held, resolved⟩ := Option.map_eq_some_iff.mp found
  unfold effectiveRank at same
  rw [held] at same
  cases ours : journal.state key with
  | none =>
    rw [ours] at same
    cases same
  | some our =>
    rw [ours] at same
    have ranks : rank (effective state binding) = rank (effective our binding) :=
      WithBot.coe_injective same
    obtain ⟨r, found⟩ := resolved_of_rank ranks resolved
    exact unresolved.kind ours found

/-- The rank from which an entry shows that the data of its predecessor is in the successor. -/
def copied : ℕ ×ₗ ℕ := toLex (3, 0)

theorem copied_le_rank_iff {state : JournalState} :
    copied ≤ rank state ↔
      ∃ resolution, state = .resolved resolution ∧ resolution.isDataBearing = true := by
  cases state with
  | pending attempts flag => cases flag <;> simp [rank, copied, rank_le_iff]
  | resolved resolution =>
    cases resolution <;> simp [rank, copied, rank_le_iff, JournalResolution.isDataBearing]

def Copied (binding : JournalBinding) (journal : MigrationJournal) (key : Fixed 32) : Prop :=
  (copied : WithBot (ℕ ×ₗ ℕ)) ≤ journal.effectiveRank binding key

theorem Copied.grow {after : MigrationJournal} (shown : Copied binding journal key)
    (grows : Grows binding journal after) (holds : journal.HoldsUnder binding) :
    Copied binding after key := shown.trans (grows.ranks holds key)

theorem copied_iff : Copied binding journal key ↔
    ∃ resolution, journal.effectiveState key binding = some (.resolved resolution) ∧
      resolution.isDataBearing = true := by
  unfold Copied effectiveRank effectiveState
  cases held : journal.state key with
  | none =>
    constructor
    · intro shown
      exact absurd (le_bot_iff.mp shown) WithBot.coe_ne_bot
    · rintro ⟨resolution, found, -⟩
      cases found
  | some state =>
    rw [Option.map_some]
    constructor
    · intro shown
      obtain ⟨resolution, resolved, data⟩ := copied_le_rank_iff.mp (WithBot.coe_le_coe.mp shown)
      exact ⟨resolution, congrArg some resolved, data⟩
    · rintro ⟨resolution, resolved, data⟩
      exact WithBot.coe_le_coe.mpr (copied_le_rank_iff.mpr ⟨resolution, Option.some.inj resolved, data⟩)

theorem copied_record (holds : journal.HoldsUnder binding) (predecessor : DelegateKey)
    (generation : UInt32) {resolution : JournalResolution}
    (outcomeHolds : OutcomeHolds binding (.resolved resolution))
    (data : resolution.isDataBearing = true) :
    Copied binding (journal.record predecessor generation (.resolved resolution))
      predecessor.bytes := by
  have current := holds_current holds predecessor.bytes
  have held := holds_mergeStates current (holds_outcomeState current outcomeHolds)
  unfold Copied effectiveRank
  rw [state_record, if_pos rfl, worth_of_holds held, rank_mergeStates]
  refine WithBot.coe_le_coe.mpr (le_trans ?_ (le_max_right _ _))
  rw [copied_le_rank_iff]
  cases journal.current predecessor.bytes <;> cases resolution <;> exact ⟨_, rfl, data⟩

end Admits

end FreenetMigrate.Journal
