import FreenetMigrate.Bytes.Fixed
import Mathlib.Data.Prod.Lex

namespace FreenetMigrate.Journal

def saturatingAdd (left right : UInt32) : UInt32 :=
  if left.toNat + right.toNat < UInt32.size then left + right else 4294967295

inductive JournalResolution
  | imported
  | noData
  | importedWithRejections (rejected revision itemsSeen : UInt32)
  | supersededByAuthoritative
  deriving DecidableEq

/-- Whether a resolution says the predecessor's data is in the successor. -/
def JournalResolution.isDataBearing : JournalResolution → Bool
  | .imported => true
  | .importedWithRejections _ _ _ => true
  | .noData => false
  | .supersededByAuthoritative => false

inductive ImportFlag
  | none
  | started
  deriving DecidableEq

def ImportFlag.max (self other : ImportFlag) : ImportFlag :=
  if other = .started then other else self

inductive JournalState
  | pending (attempts : UInt32) (importFlag : ImportFlag) (rejected absentStreak itemsSeen : UInt32)
  | resolved (resolution : JournalResolution)
  deriving DecidableEq

def JournalState.fresh : JournalState := .pending 0 .none 0 0 0

inductive PolicyFamily
  | newestSnapshot
  | union
  deriving DecidableEq

structure JournalBinding where
  policy : PolicyFamily
  importRevision : UInt32
  deriving DecidableEq

inductive RunOutcome
  | resolved (resolution : JournalResolution)
  | unresolved (absent : Bool)
  | unexamined
  deriving DecidableEq

def effective (state : JournalState) (binding : JournalBinding) : JournalState :=
  match state with
  | .resolved .supersededByAuthoritative =>
    if binding.policy ≠ .newestSnapshot then .fresh else state
  | .resolved (.importedWithRejections rejected revision itemsSeen) =>
    if revision < binding.importRevision then .pending 0 .none rejected 0 itemsSeen else state
  | other => other

def completenessRank : JournalResolution → Nat
  | .noData => 0
  | .supersededByAuthoritative => 0
  | .importedWithRejections _ _ _ => 1
  | .imported => 2

def mergeResolvedPending (r : JournalResolution) (p : JournalState) (importFlag : ImportFlag)
    (seen : UInt32) : JournalState :=
  if !r.isDataBearing && importFlag = .started then p
  else match r with
    | .importedWithRejections rejected revision itemsSeen =>
      .resolved (.importedWithRejections rejected revision (max itemsSeen seen))
    | other => .resolved other

/-- Merge two states of one predecessor, `newer` being the more recent observation. -/
def mergeStates (older newer : JournalState) : JournalState :=
  match older, newer with
  | .resolved a, .resolved b =>
    match a, b with
    | .importedWithRejections rejectedA ra ia, .importedWithRejections rejectedB rb ib =>
      if ra ≤ rb then .resolved (.importedWithRejections rejectedB rb (max ia ib))
      else .resolved (.importedWithRejections rejectedA ra (max ia ib))
    | a, b => if completenessRank a < completenessRank b then .resolved b else .resolved a
  | .resolved r, p@(.pending _ importFlag _ _ seen) => mergeResolvedPending r p importFlag seen
  | p@(.pending _ importFlag _ _ seen), .resolved r => mergeResolvedPending r p importFlag seen
  | .pending a1 f1 r1 _ i1, .pending a2 f2 r2 absentStreak i2 =>
    .pending (max a1 a2) (f1.max f2) (max r1 r2) absentStreak (max i1 i2)

/-- How much a state says about the predecessor's data: nothing known, nothing to copy, a copy
    under way, a copy short of what was rejected at some revision, a whole copy. -/
def rank : JournalState → ℕ ×ₗ ℕ
  | .pending _ .none _ _ _ => toLex (0, 0)
  | .resolved .noData => toLex (1, 0)
  | .resolved .supersededByAuthoritative => toLex (1, 0)
  | .pending _ .started _ _ _ => toLex (2, 0)
  | .resolved (.importedWithRejections _ revision _) => toLex (3, revision.toNat)
  | .resolved .imported => toLex (4, 0)

theorem rank_le_iff {left right n m : ℕ} :
    toLex (left, n) ≤ toLex (right, m) ↔ left < right ∨ (left = right ∧ n ≤ m) :=
  Prod.Lex.toLex_le_toLex

theorem rank_mergeResolvedPending (r : JournalResolution) (attempts : UInt32) (flag : ImportFlag)
    (rejected absentStreak itemsSeen : UInt32) :
    rank (mergeResolvedPending r (.pending attempts flag rejected absentStreak itemsSeen) flag
        itemsSeen) =
      max (rank (.resolved r)) (rank (.pending attempts flag rejected absentStreak itemsSeen)) := by
  cases r <;> cases flag <;>
    simp [mergeResolvedPending, JournalResolution.isDataBearing, rank, rank_le_iff]

/-- The stored journal is a join: a merge is worth exactly the more of the two. -/
theorem rank_mergeStates (older newer : JournalState) :
    rank (mergeStates older newer) = max (rank older) (rank newer) := by
  cases older with
  | pending a1 f1 r1 s1 i1 =>
    cases newer with
    | pending a2 f2 r2 s2 i2 =>
      cases f1 <;> cases f2 <;> simp [mergeStates, ImportFlag.max, rank, rank_le_iff]
    | resolved b => rw [mergeStates, rank_mergeResolvedPending, max_comm]
  | resolved a =>
    cases newer with
    | pending a2 f2 r2 s2 i2 => exact rank_mergeResolvedPending a a2 f2 r2 s2 i2
    | resolved b =>
      cases a <;> cases b
      case importedWithRejections.importedWithRejections ja ra ia jb rb ib =>
        simp only [mergeStates]
        split
        · rename_i below
          have bound : ra.toNat ≤ rb.toNat := UInt32.le_iff_toNat_le.mp below
          have least : toLex (3, ra.toNat) ≤ toLex (3, rb.toNat) := rank_le_iff.mpr (.inr ⟨rfl, bound⟩)
          exact (max_eq_right least).symm
        · rename_i above
          have bound : rb.toNat ≤ ra.toNat := by
            have := UInt32.le_iff_toNat_le.not.mp above
            omega
          have least : toLex (3, rb.toNat) ≤ toLex (3, ra.toNat) := rank_le_iff.mpr (.inr ⟨rfl, bound⟩)
          exact (max_eq_left least).symm
      all_goals simp [mergeStates, completenessRank, rank, rank_le_iff]

def Holds (binding : JournalBinding) (state : JournalState) : Prop := effective state binding = state

theorem effective_cases (state : JournalState) (binding : JournalBinding) :
    effective state binding = state ∨
      ∃ rejected itemsSeen, effective state binding = .pending 0 .none rejected 0 itemsSeen := by
  cases state with
  | pending => exact .inl rfl
  | resolved r =>
    cases r with
    | imported => exact .inl rfl
    | noData => exact .inl rfl
    | importedWithRejections rejected revision itemsSeen =>
      by_cases outdated : revision < binding.importRevision
      · exact .inr ⟨rejected, itemsSeen, if_pos outdated⟩
      · exact .inl (if_neg outdated)
    | supersededByAuthoritative =>
      by_cases other : binding.policy ≠ .newestSnapshot
      · exact .inr ⟨0, 0, if_pos other⟩
      · exact .inl (if_neg other)

theorem effective_effective (state : JournalState) (binding : JournalBinding) :
    effective (effective state binding) binding = effective state binding := by
  rcases effective_cases state binding with same | ⟨rejected, itemsSeen, reopened⟩
  · rw [same, same]
  · rw [reopened]
    rfl

theorem holds_effective (state : JournalState) (binding : JournalBinding) :
    Holds binding (effective state binding) := effective_effective state binding

theorem holds_pending (binding : JournalBinding) (attempts : UInt32) (flag : ImportFlag)
    (rejected absentStreak itemsSeen : UInt32) :
    Holds binding (.pending attempts flag rejected absentStreak itemsSeen) := rfl

theorem holds_mergeResolvedPending {binding : JournalBinding} {r : JournalResolution}
    (attempts : UInt32) (flag : ImportFlag) (rejected absentStreak itemsSeen : UInt32)
    (holds : Holds binding (.resolved r)) :
    Holds binding (mergeResolvedPending r (.pending attempts flag rejected absentStreak itemsSeen)
      flag itemsSeen) := by
  unfold mergeResolvedPending
  split
  · exact holds_pending ..
  · cases r with
    | importedWithRejections rejected revision seen =>
      simp only [Holds, effective] at holds ⊢
      split at holds
      · cases holds
      · rename_i current
        rw [if_neg current]
    | imported => exact holds
    | noData => exact holds
    | supersededByAuthoritative => exact holds

theorem holds_mergeStates {binding : JournalBinding} {older newer : JournalState}
    (left : Holds binding older) (right : Holds binding newer) :
    Holds binding (mergeStates older newer) := by
  cases older with
  | pending a1 f1 r1 s1 i1 =>
    cases newer with
    | pending a2 f2 r2 s2 i2 => exact holds_pending ..
    | resolved b => exact holds_mergeResolvedPending a1 f1 r1 s1 i1 right
  | resolved a =>
    cases newer with
    | pending a2 f2 r2 s2 i2 => exact holds_mergeResolvedPending a2 f2 r2 s2 i2 left
    | resolved b =>
      cases a <;> cases b
      case importedWithRejections.importedWithRejections ja ra ia jb rb ib =>
        simp only [mergeStates]
        split
        · simp only [Holds, effective] at right ⊢
          split at right
          · cases right
          · rename_i current
            rw [if_neg current]
        · simp only [Holds, effective] at left ⊢
          split at left
          · cases left
          · rename_i current
            rw [if_neg current]
      all_goals
        simp only [mergeStates, completenessRank]
        first | exact left | exact right

end FreenetMigrate.Journal
