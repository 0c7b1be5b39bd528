import FreenetMigrate.Migrate.Journaled
import FreenetMigrate.Migrate.Row

namespace FreenetMigrate.Migrate

open Calls Journal MigrationJournal

def flagState (items : Option UInt32) (state : JournalState) : JournalState :=
  match items with
  | none => (startImport state).1
  | some n => raiseCount n (startImport state).1

theorem importing_le_flagState (items : Option UInt32) (state : JournalState) :
    importing ≤ rank (flagState items state) := by
  rw [importing_le_rank_iff]
  have started : (∃ attempts rejected absentStreak itemsSeen,
      (startImport state).1 = .pending attempts .started rejected absentStreak itemsSeen) ∨
      ∃ resolution, (startImport state).1 = .resolved resolution ∧
        resolution.isDataBearing = true := by
    cases state with
    | pending attempts flag rejected absentStreak itemsSeen => exact .inl ⟨_, _, _, _, rfl⟩
    | resolved resolution =>
      cases data : resolution.isDataBearing with
      | true => exact .inr ⟨resolution, by simp [startImport, data], data⟩
      | false => exact .inl ⟨0, 0, 0, 0, by simp [startImport, data]⟩
  cases items with
  | none => exact started
  | some n =>
    rcases started with ⟨attempts, rejected, absentStreak, itemsSeen, same⟩ | ⟨resolution, same, data⟩
    · exact .inl ⟨_, _, _, _, congrArg (raiseCount n) same⟩
    · exact .inr ⟨resolution, congrArg (raiseCount n) same, data⟩

theorem holds_flagState {binding : JournalBinding} {state : JournalState}
    (holds : Holds binding state) (items : Option UInt32) :
    Holds binding (flagState items state) := by
  have started : Holds binding (startImport state).1 := by
    cases state with
    | pending => exact holds_pending ..
    | resolved resolution =>
      simp only [startImport]
      split
      · exact holds
      · exact holds_pending ..
  cases items with
  | none => exact started
  | some n =>
    change Holds binding (raiseCount n (startImport state).1)
    cases marked : (startImport state).1 with
    | pending attempts flag => cases flag <;> exact holds_pending ..
    | resolved resolution =>
      rw [marked] at started
      exact started

namespace JournalWatch

theorem state_flag (watch : JournalWatch) (key : DelegateKey) (generation : UInt32)
    (items : Option UInt32) (other : Fixed 32) :
    (watch.flag key generation items).1.state other =
      if key.bytes = other then some (flagState items (watch.journal.current key.bytes))
      else watch.journal.state other := by
  cases items with
  | none => exact state_markImportStarted ..
  | some n =>
    simp only [flag, state_noteItemsSeen,
      state_markImportStarted]
    split <;> rfl

theorem state_flag_of_unchanged {watch : JournalWatch} {key : DelegateKey} {generation : UInt32}
    {items : Option UInt32} (unchanged : (watch.flag key generation items).2 = false)
    (other : Fixed 32) :
    (watch.flag key generation items).1.state other = watch.journal.state other := by
  have marked : (watch.journal.markImportStarted key generation).2 = false := by
    cases items with
    | none => exact unchanged
    | some n => exact (Bool.or_eq_false_iff.mp unchanged).1
  have same : ∀ other, (watch.journal.markImportStarted key generation).1.state other =
      watch.journal.state other := by
    intro other
    rw [state_markImportStarted]
    rw [markImportStarted_changed] at marked
    split
    · rename_i here
      subst here
      unfold current at marked ⊢
      cases held : watch.journal.state key.bytes with
      | none =>
        rw [held] at marked
        cases marked
      | some state =>
        rw [held, Option.getD_some] at marked
        rw [Option.getD_some, startImport_of_unchanged marked]
    · rfl
  cases items with
  | none => exact same other
  | some n =>
    have kept := noteItemsSeen_of_unchanged (Bool.or_eq_false_iff.mp unchanged).2
    exact (congrArg (fun journal => journal.state other) kept).trans (same other)

end JournalWatch

section Flag

variable {binding : JournalBinding}

theorem holdsUnder_flag {watch : JournalWatch} (holds : watch.journal.HoldsUnder binding)
    (key : DelegateKey) (generation : UInt32) (items : Option UInt32) :
    (watch.flag key generation items).1.HoldsUnder binding := by
  intro other state found
  rw [JournalWatch.state_flag] at found
  split at found
  · obtain rfl := Option.some.inj found
    apply holds_flagState
    unfold current
    cases held : watch.journal.state key.bytes with
    | none => exact holds_pending ..
    | some state => exact holds key.bytes state held
  · exact holds other state found

theorem importing_le_flag {watch : JournalWatch} (holds : watch.journal.HoldsUnder binding)
    (key : DelegateKey) (generation : UInt32) (items : Option UInt32) :
    (importing : WithBot (ℕ ×ₗ ℕ)) ≤
      (watch.flag key generation items).1.effectiveRank binding key.bytes := by
  have flagged := JournalWatch.state_flag watch key generation items key.bytes
  rw [if_pos rfl] at flagged
  unfold effectiveRank
  rw [flagged, worth_of_holds (holdsUnder_flag holds key generation items _ _ flagged)]
  exact WithBot.coe_le_coe.mpr (importing_le_flagState ..)

end Flag

section Hook

variable [Ciborium] {State : Type} {world : World Request Answer State} {s s' : State}
  {events : History} {journalKey : Bytes} {binding : JournalBinding}
  {predecessors : List DelegateLineageEntry} {policy : SecretSelectionPolicy}
  {watch after : JournalWatch} {key : DelegateKey} {generation : UInt32} {items : Option UInt32}
  {answer : Except String Unit}

theorem told_cases
    (told : Executes world s ((journalObserver journalKey binding predecessors policy).beforeImport
      watch key generation items) events s' (answer, after)) :
    (answer = .ok () ∧ events = [] ∧ s' = s ∧
      after = { watch with journal := (watch.flag key generation items).1 } ∧
      (watch.flag key generation items).2 = false ∧ (items.isSome && watch.importStarted key) = false) ∨
    ∃ result, Stores world s (watch.flag key generation items).1 (some binding)
        (some (predecessors, policy)) events s' result after.journal ∧
      ((result = .ok () ∧ answer = .ok ()) ∨
        (∃ e, result = .error e) ∧ ∃ e, answer = .error e) := by
  simp only [journalObserver] at told
  split at told
  · rename_i idle
    obtain ⟨rfl, rfl, same⟩ := executes_pure.mp told
    obtain ⟨rfl, rfl⟩ := Prod.mk.inj same
    obtain ⟨unchanged, noRetry⟩ := Bool.and_eq_true_iff.mp idle
    have unmarked : (!(watch.flag key generation items).2) = !false := unchanged
    have fresh : (!(items.isSome && watch.importStarted key)) = !false := noRetry
    exact .inl ⟨rfl, rfl, rfl, rfl, Bool.not_inj unmarked, Bool.not_inj fresh⟩
  · obtain ⟨first, s₁, ⟨result, stored⟩, rest, rfl, storing, done⟩ := executes_bind.mp told
    refine .inr ⟨result, ?_⟩
    cases result with
    | ok answer =>
      obtain ⟨rfl, rfl, same⟩ := executes_pure.mp done
      obtain ⟨rfl, rfl⟩ := Prod.mk.inj same
      rw [List.append_nil]
      exact ⟨stores_of_executes storing, .inl ⟨rfl, rfl⟩⟩
    | error e =>
      obtain ⟨rfl, rfl, same⟩ := executes_pure.mp done
      obtain ⟨rfl, rfl⟩ := Prod.mk.inj same
      rw [List.append_nil]
      exact ⟨stores_of_executes storing, .inr ⟨⟨e, rfl⟩, ⟨_, rfl⟩⟩⟩

theorem quiet_journalObserver : (journalObserver journalKey binding predecessors policy).Quiet := by
  intro watch key generation items
  simp only [journalObserver]
  split
  · exact uses_pure _
  · refine uses_bind (uses_storeMerged ..) ?_
    rintro ⟨result, stored⟩
    cases result <;> exact uses_pure _

end Hook

end FreenetMigrate.Migrate
