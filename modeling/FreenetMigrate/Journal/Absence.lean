import FreenetMigrate.Journal.Traits

namespace FreenetMigrate.Journal

open Migrate MigrationJournal

namespace JournalStatus

def isComplete : JournalStatus → Bool
  | .complete _ => true
  | _ => false

/-- Whether an import may be under way. An unreadable journal says nothing reliable, so it counts as
    interrupted. -/
def interruptedImport : JournalStatus → Bool
  | .unreadable _ => true
  | .incomplete pending _ => pending.any fun p => p.importFlag == .started
  | _ => false

def pendingAllAbsent (minStreak : UInt32) : JournalStatus → Bool
  | .incomplete pending _ =>
    pending.all fun p => p.importFlag != .started && decide (max minStreak 1 ≤ p.absentStreak)
  | _ => false

end JournalStatus

def AbsentAtMost (n : Nat) : JournalState → Prop
  | .pending _ .none _ absentStreak _ => absentStreak.toNat ≤ n
  | .pending _ .started _ _ _ => True
  | .resolved _ => True

def RunOutcome.absences (n : Nat) : RunOutcome → Nat
  | .resolved _ => 0
  | .unresolved absent => if absent then n + 1 else 0
  | .unexamined => n

variable {n : Nat} {state older newer : JournalState} {journal stored : MigrationJournal}
  {key : Fixed 32}

theorem AbsentAtMost.mono {m : Nat} (few : AbsentAtMost n state) (le : n ≤ m) : AbsentAtMost m state := by
  cases state with
  | resolved => trivial
  | pending attempts flag rejected absentStreak itemsSeen =>
    cases flag with
    | started => trivial
    | none => exact Nat.le_trans few le

/-- A merge has the newer observation's absences, whatever the older one counts. -/
theorem absentAtMost_mergeStates (few : AbsentAtMost n newer) : AbsentAtMost n (mergeStates older newer) := by
  cases older with
  | pending a1 f1 r1 s1 i1 =>
    cases newer with
    | pending a2 f2 r2 s2 i2 =>
      cases f1 with
      | none => cases f2 <;> exact few
      | started => cases f2 <;> trivial
    | resolved b =>
      simp only [mergeStates, mergeResolvedPending]
      split
      · rename_i started
        have flag : f1 = .started := by simpa using (Bool.and_eq_true_iff.mp started).2
        rw [flag]
        trivial
      · cases b <;> trivial
  | resolved a =>
    cases newer with
    | pending a2 f2 r2 s2 i2 =>
      simp only [mergeStates, mergeResolvedPending]
      split
      · exact few
      · cases a <;> trivial
    | resolved b =>
      simp only [mergeStates]
      split
      · split <;> trivial
      · split <;> trivial

theorem absentAtMost_effective (few : AbsentAtMost n state) (binding : JournalBinding) :
    AbsentAtMost n (effective state binding) := by
  rcases effective_cases state binding with same | ⟨rejected, itemsSeen, reopened⟩
  · rw [same]
    exact few
  · rw [reopened]
    exact Nat.zero_le n

theorem trait_absentAtMost (n : Nat) : Trait (AbsentAtMost n) where
  effective := fun binding few => absentAtMost_effective few binding
  merge := fun _ few => absentAtMost_mergeStates few

theorem absentAtMost_fresh : AbsentAtMost n .fresh := Nat.zero_le n

theorem absentAtMost_startImport (state : JournalState) : AbsentAtMost n (startImport state).1 := by
  cases state with
  | pending => trivial
  | resolved resolution =>
    simp only [startImport]
    split <;> trivial

theorem absentAtMost_raiseCount {items : UInt32} (few : AbsentAtMost n state) :
    AbsentAtMost n (raiseCount items state) := by
  cases state with
  | resolved => trivial
  | pending attempts flag =>
    cases flag with
    | none => exact few
    | started => trivial

theorem saturatingAdd_one_le (count : UInt32) : (saturatingAdd count 1).toNat ≤ count.toNat + 1 := by
  unfold saturatingAdd
  split
  · rw [UInt32.toNat_add]
    exact Nat.mod_le _ _
  · rename_i large
    have size : UInt32.size = 4294967296 := rfl
    have one : (1 : UInt32).toNat = 1 := rfl
    have most : (4294967295 : UInt32).toNat = 4294967295 := rfl
    omega

theorem absentAtMost_outcomeState (few : AbsentAtMost n state) (outcome : RunOutcome) :
    AbsentAtMost (outcome.absences n) (outcomeState state outcome) := by
  cases state with
  | resolved =>
    cases outcome <;> trivial
  | pending attempts flag rejected absentStreak itemsSeen =>
    cases outcome with
    | resolved resolution => cases resolution <;> trivial
    | unexamined => exact few
    | unresolved absent =>
      cases flag with
      | started => cases absent <;> trivial
      | none =>
        cases absent with
        | false => exact Nat.zero_le _
        | true => exact (saturatingAdd_one_le absentStreak).trans (Nat.succ_le_succ few)

theorem HasTrait.few_mono {m : Nat} (has : HasTrait (AbsentAtMost n) journal key) (le : n ≤ m) :
    HasTrait (AbsentAtMost m) journal key := fun state found => (has state found).mono le

theorem hasTrait_absentAtMost_size (journal : MigrationJournal) (key : Fixed 32) :
    HasTrait (AbsentAtMost UInt32.size) journal key := by
  intro state _
  cases state with
  | resolved => trivial
  | pending attempts flag rejected absentStreak itemsSeen =>
    cases flag with
    | started => trivial
    | none => exact Nat.le_of_lt absentStreak.toNat_lt

theorem few_markImportStarted (has : HasTrait (AbsentAtMost n) journal key) (predecessor : DelegateKey)
    (generation : UInt32) :
    HasTrait (AbsentAtMost n) (journal.markImportStarted predecessor generation).1 key :=
  has.markImportStarted generation fun _ => absentAtMost_startImport _

theorem few_record (has : HasTrait (AbsentAtMost n) journal key) {predecessor : DelegateKey}
    (own : predecessor.bytes = key) (generation : UInt32) (outcome : RunOutcome) :
    HasTrait (AbsentAtMost (outcome.absences n)) (journal.record predecessor generation outcome) key := by
  subst own
  intro state found
  rw [state_record, if_pos rfl] at found
  obtain rfl := Option.some.inj found
  apply absentAtMost_mergeStates
  exact absentAtMost_outcomeState (has.current absentAtMost_fresh) outcome

theorem few_record_resolved (has : HasTrait (AbsentAtMost n) journal key) (predecessor : DelegateKey)
    (generation : UInt32) (resolution : JournalResolution) :
    HasTrait (AbsentAtMost n) (journal.record predecessor generation (.resolved resolution)) key := by
  refine has.record generation fun _ => absentAtMost_mergeStates ?_
  exact (absentAtMost_outcomeState (has.current absentAtMost_fresh) (.resolved resolution)).mono
    (Nat.zero_le n)

/-- What is written over a stored journal counts what the writer's own entry does. -/
theorem few_mergeStored_of_entry (listed : (journal.state key).isSome)
    (has : HasTrait (AbsentAtMost n) journal key) (stored : MigrationJournal)
    (binding : JournalBinding) :
    HasTrait (AbsentAtMost n) (journal.mergeStored stored (some binding)) key := by
  obtain ⟨ours, held⟩ := Option.isSome_iff_exists.mp listed
  intro state found
  rw [state_mergeStored] at found
  cases theirs : stored.state key with
  | none =>
    rw [theirs] at found
    exact has state found
  | some their =>
    rw [theirs, held] at found
    obtain rfl := Option.some.inj found
    exact absentAtMost_mergeStates (absentAtMost_effective (has ours held) binding)

section Status

variable {binding : JournalBinding} {predecessors : List DelegateLineageEntry}
  {pending : List PendingPredecessor} {rejected : UInt32}

theorem pending_ne_nil (said : journal.status predecessors binding = .incomplete pending rejected) :
    pending ≠ [] := by
  unfold status at said
  simp only at said
  split at said
  · cases said
  · rename_i some
    obtain ⟨rfl, -⟩ := JournalStatus.incomplete.inj said
    exact fun none => some (List.isEmpty_iff.mpr none)

theorem absentStreak_of_status
    (said : journal.status predecessors binding = .incomplete pending rejected)
    {p : PendingPredecessor} (member : p ∈ pending) (idle : p.importFlag ≠ .started)
    (has : HasTrait (AbsentAtMost n) journal p.key.bytes) : p.absentStreak.toNat ≤ n := by
  unfold status at said
  simp only at said
  split at said
  · cases said
  · obtain ⟨rfl, -⟩ := JournalStatus.incomplete.inj said
    obtain ⟨e, -, row⟩ := List.mem_filterMap.mp member
    unfold statusRow at row
    split at row
    · cases row
    · cases row
    · rename_i attempts flag count absentStreak itemsSeen held
      obtain rfl := Option.some.inj row
      obtain ⟨state, found, evaluated⟩ := Option.map_eq_some_iff.mp held
      have few := absentAtMost_effective (has state found) binding
      rw [evaluated] at few
      cases flag with
      | started => exact absurd rfl idle
      | none => exact few
    · obtain rfl := Option.some.inj row
      exact Nat.zero_le n

end Status

end FreenetMigrate.Journal
