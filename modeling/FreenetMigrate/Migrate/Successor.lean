import FreenetMigrate.Migrate.Storing
import Mathlib.Logic.Function.Basic

namespace FreenetMigrate.Migrate

open Calls

/-- What a successor keeps: for each predecessor key a completion and an in-progress marker as
    separate records, the generations sealed by the older import, and the journal. -/
structure Successor where
  done : Fixed 32 → Option Bool
  wip : Fixed 32 → Option Bool
  seals : List UInt32
  journal : Option Bytes

namespace Successor

def covers (s : Successor) (query : MarkerQuery) : Bool :=
  match query.legacyBridge with
  | .atOrAboveGeneration => s.seals.any fun sealed => decide (query.generation ≤ sealed)
  | .exactGenerationOnly => decide (query.generation ∈ s.seals)

/-- How the records read back: completion wins, but for an empty one that an import contradicts. -/
def marker (s : Successor) (query : MarkerQuery) : Option MigrationMarker :=
  match s.done query.predecessor.bytes, s.wip query.predecessor.bytes with
  | some false, some true => some (.inProgress true)
  | some hadData, _ => some (.done hadData)
  | none, wip => if s.covers query then some (.done true) else wip.map .inProgress

def own (s : Successor) (key : DelegateKey) (generation : UInt32) : Option MigrationMarker :=
  s.marker ⟨key, generation, .exactGenerationOnly⟩

def setDone (s : Successor) (key : Fixed 32) (hadData : Bool) : Successor :=
  { s with done := Function.update s.done key (some hadData) }

def setWip (s : Successor) (key : Fixed 32) (wip : Option Bool) : Successor :=
  { s with wip := Function.update s.wip key wip }

/-- The in-progress marker that recording one leaves: data that was seen is not taken back. -/
def sticky (s : Successor) (key : Fixed 32) (sawData : Bool) : Bool :=
  sawData || decide (s.wip key = some true)

/-- What recording a marker leaves. An in-progress marker erases no completion; a completion may
    take the in-progress marker with it. -/
def Records (before : Successor) (predecessor : DelegateKey) :
    MigrationMarker → Successor → Prop
  | .inProgress sawData, after =>
    after = before.setWip predecessor.bytes (some (before.sticky predecessor.bytes sawData))
  | .done hadData, after =>
    after = before.setDone predecessor.bytes hadData ∨
      after = (before.setDone predecessor.bytes hadData).setWip predecessor.bytes none

theorem Records.journal {before after : Successor} {predecessor : DelegateKey}
    {marker : MigrationMarker} (records : before.Records predecessor marker after) :
    after.journal = before.journal := by
  cases marker with
  | inProgress => rw [show after = _ from records]; rfl
  | done => rcases records with rfl | rfl <;> rfl

def record (s : Successor) (predecessor : DelegateKey) : MigrationMarker → Successor
  | .done hadData => s.setDone predecessor.bytes hadData
  | .inProgress sawData => s.setWip predecessor.bytes (some (s.sticky predecessor.bytes sawData))

theorem records_record (s : Successor) (predecessor : DelegateKey) (marker : MigrationMarker) :
    s.Records predecessor marker (s.record predecessor marker) := by
  cases marker with
  | inProgress => rfl
  | done => exact .inl rfl

end Successor

/-- A successor that follows the marker contract, where any call may fail and a failed write may
    have landed. Nothing else writes to it. -/
def successorWorld : World Request Answer Successor := fun before request answer after =>
  match request, answer with
  | .migrationMarker query, .ok marker => marker = before.marker query ∧ after = before
  | .recordMarker predecessor marker, .ok () => before.Records predecessor marker after
  | .recordMarker predecessor marker, .error _ =>
    after = before ∨ before.Records predecessor marker after
  | .loadJournal, .ok found => found = before.journal ∧ after = before
  | .storeJournal bytes, .ok () => after = { before with journal := some bytes }
  | .storeJournal bytes, .error _ => after = before ∨ after = { before with journal := some bytes }
  | _, _ => after = before

theorem journalKept_successorWorld : JournalKept successorWorld Successor.journal where
  loads made := made.1
  reads := by
    intro s request answer s' notStore made
    cases request with
    | storeJournal bytes => exact absurd rfl (notStore bytes)
    | loadJournal | migrationMarker =>
      cases answer with
      | error e => rw [show s' = s from made]
      | ok found => rw [made.2]
    | recordMarker predecessor marker =>
      cases answer with
      | ok => exact made.journal
      | error e =>
        rcases made with rfl | recorded
        · rfl
        · exact recorded.journal
    | writeSecret | flushPredecessor | probeVerdict | fetchSecrets => rw [show s' = s from made]
  stores made := by rw [made]
  refuses made := by
    rcases made with rfl | rfl
    · exact .inl rfl
    · exact .inr rfl

def contractHandler (readable : MarkerQuery → Bool) :
    Successor → (request : Request) → Answer request × Successor
  | s, .migrationMarker query =>
    (if readable query then .ok (s.marker query) else .error "unreadable", s)
  | s, .recordMarker predecessor marker => (.ok (), s.record predecessor marker)
  | s, .writeSecret _ => (.written, s)
  | s, .flushPredecessor _ => (.ok (), s)
  | s, .loadJournal => (.ok s.journal, s)
  | s, .storeJournal bytes => (.ok (), { s with journal := some bytes })
  | s, .probeVerdict _ => (.ok .executable, s)
  | s, .fetchSecrets _ => (.ok [([1], [2])], s)

theorem successorWorld_contractHandler (readable : MarkerQuery → Bool) (s : Successor)
    (request : Request) : successorWorld s request (contractHandler readable s request).1
      (contractHandler readable s request).2 := by
  cases request with
  | migrationMarker query =>
    cases found : readable query with
    | false => simp [contractHandler, found, successorWorld]
    | true => simp [contractHandler, found, successorWorld]
  | recordMarker predecessor marker => exact s.records_record predecessor marker
  | loadJournal => exact ⟨rfl, rfl⟩
  | writeSecret | flushPredecessor | storeJournal | probeVerdict | fetchSecrets => rfl

structure SameMarker (key : Fixed 32) (s s' : Successor) : Prop where
  done : s'.done key = s.done key
  wip : s'.wip key = s.wip key
  seals : s'.seals = s.seals

theorem SameMarker.refl (key : Fixed 32) (s : Successor) : SameMarker key s s := ⟨rfl, rfl, rfl⟩

theorem SameMarker.trans {key : Fixed 32} {s₁ s₂ s₃ : Successor} (first : SameMarker key s₁ s₂)
    (second : SameMarker key s₂ s₃) : SameMarker key s₁ s₃ :=
  ⟨second.done.trans first.done, second.wip.trans first.wip, second.seals.trans first.seals⟩

theorem SameMarker.marker {query : MarkerQuery} {s s' : Successor}
    (same : SameMarker query.predecessor.bytes s s') : s'.marker query = s.marker query := by
  unfold Successor.marker Successor.covers
  rw [same.done, same.wip, same.seals]

theorem SameMarker.own {key : DelegateKey} {s s' : Successor} (same : SameMarker key.bytes s s')
    (generation : UInt32) : s'.own key generation = s.own key generation := same.marker

def NotMarking (key : Fixed 32) : Request → Prop
  | .recordMarker predecessor _ => predecessor.bytes ≠ key
  | _ => True

theorem ReadCall.notMarking {key : Fixed 32} {request : Request} (call : ReadCall request) :
    NotMarking key request := by
  cases request <;> trivial

theorem JournalCall.notMarking {key : Fixed 32} {request : Request} (call : JournalCall request) :
    NotMarking key request := by
  cases request <;> trivial

section Steps

variable {s s' : Successor} {key : Fixed 32} {events : History}

theorem Successor.Records.sameMarker {predecessor : DelegateKey} {marker : MigrationMarker}
    (records : s.Records predecessor marker s') (other : predecessor.bytes ≠ key) :
    SameMarker key s s' := by
  have elsewhere : key ≠ predecessor.bytes := fun same => other same.symm
  cases marker with
  | inProgress sawData =>
    rw [show s' = _ from records]
    exact ⟨rfl, Function.update_of_ne elsewhere .., rfl⟩
  | done hadData =>
    rcases records with rfl | rfl
    · exact ⟨Function.update_of_ne elsewhere .., rfl, rfl⟩
    · exact ⟨Function.update_of_ne elsewhere .., Function.update_of_ne elsewhere .., rfl⟩

theorem sameMarker_of_call {request : Request} {answer : Answer request}
    (made : successorWorld s request answer s') (notMarking : NotMarking key request) :
    SameMarker key s s' := by
  cases request with
  | recordMarker predecessor marker =>
    cases answer with
    | ok => exact made.sameMarker notMarking
    | error e =>
      rcases made with rfl | recorded
      · exact .refl ..
      · exact recorded.sameMarker notMarking
  | storeJournal bytes =>
    cases answer with
    | ok => rw [show s' = _ from made]; exact ⟨rfl, rfl, rfl⟩
    | error e => rcases made with rfl | rfl <;> exact ⟨rfl, rfl, rfl⟩
  | loadJournal | migrationMarker =>
    cases answer with
    | error e => rw [show s' = s from made]; exact .refl ..
    | ok found => rw [made.2]; exact .refl ..
  | writeSecret | flushPredecessor | probeVerdict | fetchSecrets =>
    rw [show s' = s from made]
    exact .refl ..

theorem sameMarker_of_steps (steps : Steps successorWorld s events s')
    (notMarking : Only (NotMarking key) events) : SameMarker key s s' :=
  steps.frame notMarking
    (fun _ _ _ _ permitted made same => same.trans (sameMarker_of_call made permitted)) (.refl key s)

theorem still_of_read {request : Request} {answer : Answer request}
    (made : successorWorld s request answer s') (read : ReadCall request) : s' = s := by
  cases request with
  | loadJournal | migrationMarker =>
    cases answer with
    | error e => exact made
    | ok found => exact made.2
  | recordMarker | writeSecret | flushPredecessor | storeJournal | probeVerdict | fetchSecrets =>
    exact read.elim

theorem still_of_reads (steps : Steps successorWorld s events s') (reads : Only ReadCall events) :
    s' = s :=
  steps.frame reads (fun _ _ _ _ read made same => (still_of_read made read).trans same) rfl

end Steps

namespace Successor

variable {s s' : Successor} {key : DelegateKey} {generation : UInt32} {bridge : LegacyBridge}
  {marker : MigrationMarker}

theorem own_of_marker (read : s.marker ⟨key, generation, bridge⟩ ≠ some (.done true)) :
    s.own key generation = s.marker ⟨key, generation, bridge⟩ := by
  unfold own Successor.marker at *
  simp only at *
  cases done : s.done key.bytes with
  | some hadData => cases hadData <;> rcases s.wip key.bytes with _ | (_ | _) <;> rfl
  | none =>
    rw [done] at read
    simp only at read ⊢
    have uncovered : s.covers ⟨key, generation, bridge⟩ = false := by
      by_contra covered
      rw [Bool.not_eq_false] at covered
      rw [if_pos covered] at read
      exact read rfl
    have exactly : s.covers ⟨key, generation, .exactGenerationOnly⟩ = false := by
      cases bridge with
      | exactGenerationOnly => exact uncovered
      | atOrAboveGeneration =>
        simp only [covers, List.any_eq_false, decide_eq_true_eq] at uncovered
        simp only [covers, decide_eq_false_iff_not]
        intro member
        exact uncovered _ member (UInt32.le_refl generation)
    rw [uncovered, exactly]

theorem marker_of_own_done (sealed : s.own key generation = some (.done true)) :
    s.marker ⟨key, generation, bridge⟩ = some (.done true) := by
  by_contra other
  exact other ((own_of_marker other).symm.trans sealed)

theorem own_inProgress_iff :
    s.own key generation = some (.inProgress true) ↔ s.wip key.bytes = some true ∧
      (s.done key.bytes = some false ∨ (s.done key.bytes = none ∧ generation ∉ s.seals)) := by
  unfold own Successor.marker
  simp only
  cases done : s.done key.bytes with
  | some hadData => cases hadData <;> rcases s.wip key.bytes with _ | (_ | _) <;> simp
  | none =>
    by_cases sealed : generation ∈ s.seals
    · simp [covers, sealed]
    · cases wip : s.wip key.bytes <;> simp [covers, sealed]

theorem wip_of_unsealed (read : s.marker ⟨key, generation, bridge⟩ = none ∨
    s.marker ⟨key, generation, bridge⟩ = some (.inProgress false)) : s.wip key.bytes ≠ some true := by
  intro started
  unfold Successor.marker at read
  simp only [started] at read
  cases done : s.done key.bytes with
  | some hadData =>
    rw [done] at read
    cases hadData <;> simp at read
  | none =>
    rw [done] at read
    simp only at read
    split at read <;> simp at read

/-- Recording a completion or an import without data starts no import that was not started. -/
theorem Records.wip_of_not_started (records : s.Records key marker s')
    (other : marker ≠ .inProgress true) (quiet : s.wip key.bytes ≠ some true) :
    s'.wip key.bytes ≠ some true := by
  cases marker with
  | inProgress sawData =>
    have empty : sawData = false := by
      cases sawData with
      | false => rfl
      | true => exact absurd rfl other
    rw [show s' = _ from records, empty]
    simp [Successor.setWip, sticky, quiet]
  | done hadData =>
    rcases records with rfl | rfl
    · exact quiet
    · simp [Successor.setWip]

end Successor

end FreenetMigrate.Migrate
