import FreenetMigrate.Journal.Growth
import Mathlib.Data.ENat.Lattice

namespace FreenetMigrate.Journal

open Migrate MigrationJournal

/-- What an entry remembers of its predecessor: how many items an import saw, and how many were
    rejected for good. Data in the successor answers for every rejection before it. -/
def memory : JournalState → ℕ∞ × ℕ∞
  | .pending _ _ rejected _ itemsSeen => (itemsSeen.toNat, rejected.toNat)
  | .resolved (.importedWithRejections _ _ itemsSeen) => (itemsSeen.toNat, ⊤)
  | .resolved .imported => ⊤
  | .resolved .noData => ⊥
  | .resolved .supersededByAuthoritative => ⊥

theorem memory_of_noData {resolution : JournalResolution} (noData : resolution.isDataBearing = false) :
    memory (.resolved resolution) = ⊥ := by
  cases resolution with
  | noData | supersededByAuthoritative => rfl
  | imported | importedWithRejections => cases noData

theorem count_effective (state : JournalState) (binding : JournalBinding) :
    (memory (effective state binding)).1 = (memory state).1 := by
  cases state with
  | pending => rfl
  | resolved resolution =>
    cases resolution <;> simp only [effective]
    case importedWithRejections =>
      split <;> rfl
    case supersededByAuthoritative =>
      split <;> rfl

/-- Of an entry that one binding does not resolve with data, no binding knows fewer rejections. -/
theorem rejections_effective {state : JournalState} {binding : JournalBinding}
    (unresolved : ∀ resolution, effective state binding = .resolved resolution →
      resolution.isDataBearing = false) (other : JournalBinding) :
    (memory (effective state binding)).2 ≤ (memory (effective state other)).2 := by
  cases state with
  | pending => exact le_rfl
  | resolved resolution =>
    cases resolution with
    | imported => cases unresolved _ rfl
    | noData => exact bot_le
    | importedWithRejections rejected revision itemsSeen =>
      by_cases outdated : revision < binding.importRevision
      · simp only [effective, if_pos outdated]
        split
        · exact le_rfl
        · exact le_top
      · cases unresolved _ (if_neg outdated)
    | supersededByAuthoritative =>
      have nothing : (memory (effective (.resolved .supersededByAuthoritative) binding)).2 = 0 := by
        simp only [effective]
        split <;> rfl
      rw [nothing]
      exact bot_le

theorem coe_max (left right : UInt32) :
    ((max left right).toNat : ℕ∞) = max (left.toNat : ℕ∞) (right.toNat : ℕ∞) := by
  rw [UInt32.toNat_max]
  exact Nat.mono_cast.map_max

theorem memory_mergeResolvedPending (resolution : JournalResolution) (attempts : UInt32)
    (flag : ImportFlag) (rejected absentStreak itemsSeen : UInt32) :
    let pending := JournalState.pending attempts flag rejected absentStreak itemsSeen
    let merged := mergeResolvedPending resolution pending flag itemsSeen
    memory (.resolved resolution) ≤ memory merged ∧
      (memory pending ≤ memory merged ∨
        (resolution.isDataBearing = false ∧ merged = .resolved resolution)) := by
  intro pending merged
  cases resolution with
  | imported => exact ⟨le_rfl, .inl le_top⟩
  | importedWithRejections rejectedBefore revision seen =>
    have raised : memory merged = (max (seen.toNat : ℕ∞) itemsSeen.toNat, ⊤) :=
      congrArg (·, ⊤) (coe_max seen itemsSeen)
    rw [raised]
    exact ⟨⟨le_max_left _ _, le_rfl⟩, .inl ⟨le_max_right _ _, le_top⟩⟩
  | noData | supersededByAuthoritative =>
    refine ⟨bot_le, ?_⟩
    cases flag with
    | none => exact .inr ⟨rfl, rfl⟩
    | started => exact .inl le_rfl

/-- A merge forgets nothing of the older state, but where a resolution without data takes its
    place. -/
theorem memory_le_mergeStates (older newer : JournalState) :
    memory older ≤ memory (mergeStates older newer) ∨ ∃ resolution, newer = .resolved resolution ∧
      resolution.isDataBearing = false ∧ mergeStates older newer = newer := by
  cases older with
  | pending a1 f1 r1 s1 i1 =>
    cases newer with
    | pending a2 f2 r2 s2 i2 =>
      left
      have counts : memory (mergeStates (.pending a1 f1 r1 s1 i1) (.pending a2 f2 r2 s2 i2)) =
          (max (i1.toNat : ℕ∞) i2.toNat, max (r1.toNat : ℕ∞) r2.toNat) :=
        Prod.ext (coe_max i1 i2) (coe_max r1 r2)
      rw [counts]
      exact ⟨le_max_left _ _, le_max_left _ _⟩
    | resolved b =>
      obtain ⟨-, kept | ⟨noData, replaced⟩⟩ := memory_mergeResolvedPending b a1 f1 r1 s1 i1
      · exact .inl kept
      · exact .inr ⟨b, rfl, noData, replaced⟩
  | resolved a =>
    left
    cases newer with
    | pending a2 f2 r2 s2 i2 => exact (memory_mergeResolvedPending a a2 f2 r2 s2 i2).1
    | resolved b =>
      cases a with
      | noData | supersededByAuthoritative => exact bot_le
      | imported => cases b <;> exact le_rfl
      | importedWithRejections rejectedA ra ia =>
        cases b with
        | imported => exact le_top
        | noData | supersededByAuthoritative => exact le_rfl
        | importedWithRejections rejectedB rb ib =>
          have seen : (ia.toNat : ℕ∞) ≤ (max ia ib).toNat := by
            rw [coe_max]
            exact le_max_left _ _
          simp only [mergeStates]
          split <;> exact ⟨seen, le_rfl⟩

theorem mergeStates_self (state : JournalState) : mergeStates state state = state := by
  cases state with
  | pending attempts flag => cases flag <;> simp [mergeStates, ImportFlag.max]
  | resolved resolution => cases resolution <;> simp [mergeStates, completenessRank]

def recalled (state : Option JournalState) : ℕ∞ × ℕ∞ := state.elim ⊥ memory

def joined (theirs ours : Option JournalState) : Option JournalState :=
  match theirs, ours with
  | none, ours => ours
  | some theirs, none => some theirs
  | some theirs, some ours => some (mergeStates theirs ours)

theorem joined_self (state : Option JournalState) : joined state state = state := by
  cases state with
  | none => rfl
  | some state => exact congrArg some (mergeStates_self state)

theorem recalled_le_joined (theirs ours : Option JournalState) :
    recalled theirs ≤ recalled (joined theirs ours) ∨ ∃ resolution, ours = some (.resolved resolution) ∧
      resolution.isDataBearing = false ∧ joined theirs ours = ours := by
  cases theirs with
  | none => exact .inl bot_le
  | some theirs =>
    cases ours with
    | none => exact .inl le_rfl
    | some ours =>
      rcases memory_le_mergeStates theirs ours with kept | ⟨resolution, rfl, noData, replaced⟩
      · exact .inl kept
      · exact .inr ⟨resolution, rfl, noData, congrArg some replaced⟩

namespace MigrationJournal

variable {binding : JournalBinding}

theorem effectiveState_mergeStored (journal stored : MigrationJournal) (key : Fixed 32) :
    (journal.mergeStored stored (some binding)).effectiveState key binding =
      joined (stored.effectiveState key binding) (journal.effectiveState key binding) := by
  unfold effectiveState
  rw [state_mergeStored]
  cases stored.state key with
  | none => rfl
  | some theirs =>
    have held : Holds binding (mergeState (some binding) (journal.state key) theirs) :=
      holds_mergeState ..
    rw [Option.map_some, held]
    cases journal.state key <;> rfl

theorem effectiveState_rebind (journal : MigrationJournal) (key : Fixed 32) :
    (journal.rebind binding).effectiveState key binding = journal.effectiveState key binding := by
  unfold effectiveState
  rw [state_rebind, Option.map_map]
  congr 1
  funext state
  exact effective_effective state binding

theorem effectiveState_of_holds {journal : MigrationJournal} (holds : journal.HoldsUnder binding)
    (key : Fixed 32) : journal.effectiveState key binding = journal.state key := by
  unfold effectiveState
  cases found : journal.state key with
  | none => rfl
  | some state => exact congrArg some (holds key state found)

theorem count_effectiveState (journal : MigrationJournal) (key : Fixed 32) :
    (recalled (journal.effectiveState key binding)).1 = (recalled (journal.state key)).1 := by
  unfold effectiveState
  cases journal.state key with
  | none => rfl
  | some state => exact count_effective state binding

end MigrationJournal

theorem le_saturatingAdd (left right : UInt32) :
    left ≤ saturatingAdd left right ∧ right ≤ saturatingAdd left right := by
  unfold saturatingAdd
  have size : UInt32.size = 4294967296 := rfl
  have most : (4294967295 : UInt32).toNat = 4294967295 := rfl
  have leftBound := left.toNat_lt
  have rightBound := right.toNat_lt
  split
  · rename_i fits
    have sum : (left + right).toNat = left.toNat + right.toNat := by
      rw [UInt32.toNat_add]
      omega
    simp only [UInt32.le_iff_toNat_le, sum]
    omega
  · simp only [UInt32.le_iff_toNat_le, most]
    omega

theorem le_foldl_saturatingAdd {ι : Type} (amount : ι → UInt32) (items : List ι) (start : UInt32) :
    let total := items.foldl (fun total item => saturatingAdd total (amount item)) start
    start ≤ total ∧ ∀ item ∈ items, amount item ≤ total := by
  induction items generalizing start with
  | nil => exact ⟨UInt32.le_refl _, fun _ absent => nomatch absent⟩
  | cons item rest ih =>
    obtain ⟨first, each⟩ := ih (saturatingAdd start (amount item))
    obtain ⟨before, own⟩ := le_saturatingAdd start (amount item)
    refine ⟨UInt32.le_trans before first, ?_⟩
    intro other member
    rcases List.mem_cons.mp member with rfl | later
    · exact UInt32.le_trans own first
    · exact each other later

end FreenetMigrate.Journal
