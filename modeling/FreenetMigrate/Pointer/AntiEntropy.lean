import FreenetMigrate.Pointer.Convergence

namespace FreenetMigrate.PointerContract

open Pointer Joins

variable {VerifyingKey : Type} [Ed25519 VerifyingKey] {params : Bytes}

theorem summarizeState_eq (state : Bytes) :
    summarizeState VerifyingKey params state = .ok (stored [] (held VerifyingKey params state)) := by
  unfold summarizeState held
  cases decodeVerified VerifyingKey state params <;> rfl

theorem merge_ne_current {current candidate : PointerRecord} :
    (merge current candidate != current) = decide (current < candidate) := by
  rw [merge_eq_max, Bool.eq_iff_iff, bne_iff_ne, decide_eq_true_iff, ne_eq, max_eq_left_iff, not_le]

/-- A delta is the encoding of what the sender owes a peer whose state is the summary. -/
theorem getStateDelta_eq (state summary : Bytes) :
    getStateDelta VerifyingKey params state summary = .ok (stored []
      (owed (held VerifyingKey params state) (held VerifyingKey params summary))) := by
  unfold getStateDelta held
  cases decodeVerified VerifyingKey state params with
  | error e => rfl
  | ok ours =>
    cases decodeVerified VerifyingKey summary params with
    | error e => rfl
    | ok theirs =>
      simp only [Except.toOption, merge_ne_current, owed, Option.filter_some, Option.all_some]
      split <;> rfl

@[simp] theorem stored_nil_eq_nil {best : Option PointerRecord} : stored [] best = [] ↔ best = none := by
  cases best with
  | none => simp [stored]
  | some record => simp [stored, record.encode_ne_nil]

theorem held_stored {state : Bytes} :
    held VerifyingKey params (stored [] (held VerifyingKey params state)) =
      held VerifyingKey params state := by
  cases holds : held VerifyingKey params state with
  | none => exact held_nil
  | some record => exact held_encode_of_held holds

def deltaFor (VerifyingKey : Type) [Ed25519 VerifyingKey] (params sender receiver : Bytes) :
    Except ContractError Bytes := do
  let summary ← summarizeState VerifyingKey params receiver
  getStateDelta VerifyingKey params sender summary

theorem deltaFor_eq (sender receiver : Bytes) :
    deltaFor VerifyingKey params sender receiver = .ok (stored []
      (owed (held VerifyingKey params sender) (held VerifyingKey params receiver))) := by
  simp only [deltaFor, summarizeState_eq, Bind.bind, Except.bind, getStateDelta_eq, held_stored]

theorem deltaFor_eq_nil {sender receiver : Bytes} :
    deltaFor VerifyingKey params sender receiver = .ok [] ↔
      owed (held VerifyingKey params sender) (held VerifyingKey params receiver) = none := by
  rw [deltaFor_eq, Except.ok.injEq, stored_nil_eq_nil]

variable {parsed : PointerParams VerifyingKey}

/-- A peer that applies the delta it is owed holds the sender's record. -/
theorem held_store_delta {sender receiver delta : Bytes} {record : PointerRecord}
    (accepted : PointerParams.parse VerifyingKey params = .ok parsed)
    (sent : owed (held VerifyingKey params sender) (held VerifyingKey params receiver) = some record)
    (answer : deltaFor VerifyingKey params sender receiver = .ok delta) :
    delta = record.encode ∧
      updateState VerifyingKey params receiver [.delta delta] = .ok record.encode := by
  rw [deltaFor_eq, sent] at answer
  obtain rfl := Except.ok.inj answer
  obtain ⟨holds, _⟩ := owed_eq_some.mp sent
  have readable := held_encode_of_held holds
  refine ⟨rfl, ?_⟩
  have verified : OnlyVerified VerifyingKey params [.delta record.encode] := by
    intro update member bytes payload
    obtain rfl := List.mem_singleton.mp member
    obtain rfl := Option.some.inj payload
    exact .inr ⟨record, readable⟩
  have put : candidates VerifyingKey params [.delta record.encode] = [record] := by
    simp [candidates, UpdateData.payload, readable]
  change updateState VerifyingKey params receiver [.delta record.encode] = _
  rw [updateState_verified accepted verified, put, keepGreatest_cons, keepGreater_owed sent, holds]
  rfl

theorem heals {sender receiver : Bytes} {record : PointerRecord}
    (accepted : PointerParams.parse VerifyingKey params = .ok parsed)
    (usable : held VerifyingKey params sender = some record)
    (unusable : held VerifyingKey params receiver = none) :
    ∃ delta next, deltaFor VerifyingKey params sender receiver = .ok delta ∧ delta ≠ [] ∧
      updateState VerifyingKey params receiver [.delta delta] = .ok next ∧
      held VerifyingKey params next = some record := by
  have sent : owed (held VerifyingKey params sender) (held VerifyingKey params receiver) =
      some record := by
    rw [usable, unusable]
    rfl
  have answer : deltaFor VerifyingKey params sender receiver = .ok (stored []
      (owed (held VerifyingKey params sender) (held VerifyingKey params receiver))) :=
    deltaFor_eq sender receiver
  obtain ⟨same, updated⟩ := held_store_delta accepted sent answer
  exact ⟨_, _, answer, same ▸ record.encode_ne_nil, updated, held_encode_of_held usable⟩

theorem agree_of_quiet {ι : Type} {peers : ι → Bytes}
    (quiet : ∀ i j, i ≠ j → deltaFor VerifyingKey params (peers i) (peers j) = .ok []) (i j : ι) :
    held VerifyingKey params (peers i) = held VerifyingKey params (peers j) := by
  by_cases same : i = j
  · rw [same]
  · exact eq_of_owed_eq_none (deltaFor_eq_nil.mp (quiet i j same))
      (deltaFor_eq_nil.mp (quiet j i (Ne.symm same)))

/-- Anti-entropy. Of two usable peers at most one owes the other, and what it sends makes them
    agree; a usable peer heals an unusable one; peers that owe each other nothing agree; and a
    summary suppresses the delta only by being a verified record that is not beaten. -/
theorem anti_entropy (accepted : PointerParams.parse VerifyingKey params = .ok parsed) :
    (∀ a b ours theirs, held VerifyingKey params a = some ours →
      held VerifyingKey params b = some theirs →
      (deltaFor VerifyingKey params a b = .ok [] ∨ deltaFor VerifyingKey params b a = .ok []) ∧
      (deltaFor VerifyingKey params a b = .ok [] ∧ deltaFor VerifyingKey params b a = .ok [] ↔
        ours.encode = theirs.encode) ∧
      ∀ delta, deltaFor VerifyingKey params a b = .ok delta → delta ≠ [] →
        ∃ next, updateState VerifyingKey params b [.delta delta] = .ok next ∧
          held VerifyingKey params next = some ours) ∧
    (∀ a b ours, held VerifyingKey params a = some ours → held VerifyingKey params b = none →
      deltaFor VerifyingKey params b a = .ok [] ∧
      ∃ delta next, deltaFor VerifyingKey params a b = .ok delta ∧ delta ≠ [] ∧
        updateState VerifyingKey params b [.delta delta] = .ok next ∧
        held VerifyingKey params next = some ours) ∧
    (∀ (ι : Type) (peers : ι → Bytes),
      (∀ i j, i ≠ j → deltaFor VerifyingKey params (peers i) (peers j) = .ok []) →
      (∀ i, held VerifyingKey params (peers i) = none) ∨
        ∃ record, ∀ i, held VerifyingKey params (peers i) = some record) ∧
    ∀ state summary, getStateDelta VerifyingKey params state summary = .ok [] →
      held VerifyingKey params state = none ∨
        ∃ ours theirs, held VerifyingKey params state = some ours ∧
          held VerifyingKey params summary = some theirs ∧ merge theirs ours = theirs := by
  refine ⟨?_, ?_, ?_, ?_⟩
  · intro a b ours theirs holdsA holdsB
    refine ⟨?_, ?_, ?_⟩
    · rw [deltaFor_eq_nil, deltaFor_eq_nil]
      cases sent : owed (held VerifyingKey params a) (held VerifyingKey params b) with
      | none => exact .inl rfl
      | some record => exact .inr (owed_asymm sent)
    · rw [deltaFor_eq_nil, deltaFor_eq_nil]
      constructor
      · rintro ⟨sent, received⟩
        have same := eq_of_owed_eq_none sent received
        rw [holdsA, holdsB] at same
        rw [Option.some.inj same]
      · intro same
        obtain rfl := PointerRecord.encode_injective same
        rw [holdsA, holdsB]
        simp [owed_eq_none]
    · intro delta answer nonempty
      cases sent : owed (held VerifyingKey params a) (held VerifyingKey params b) with
      | none =>
        rw [deltaFor_eq_nil.mpr sent] at answer
        exact absurd (Except.ok.inj answer).symm nonempty
      | some record =>
        obtain ⟨-, updated⟩ := held_store_delta accepted sent answer
        obtain ⟨holds, -⟩ := owed_eq_some.mp sent
        obtain rfl := Option.some.inj (holdsA.symm.trans holds)
        exact ⟨_, updated, held_encode_of_held holdsA⟩
  · intro a b ours usable unusable
    refine ⟨?_, heals accepted usable unusable⟩
    rw [deltaFor_eq_nil, unusable]
    rfl
  · intro ι peers quiet
    by_cases usable : ∃ i record, held VerifyingKey params (peers i) = some record
    · obtain ⟨i, record, holds⟩ := usable
      exact .inr ⟨record, fun j => (agree_of_quiet quiet j i).trans holds⟩
    · push Not at usable
      exact .inl fun i => Option.eq_none_iff_forall_ne_some.mpr (usable i)
  · intro state summary silent
    rw [getStateDelta_eq, Except.ok.injEq, stored_nil_eq_nil, owed_eq_none] at silent
    cases holds : held VerifyingKey params state with
    | none => exact .inl rfl
    | some ours =>
      obtain ⟨theirs, holdsSummary, below⟩ := silent ours holds
      exact .inr ⟨ours, theirs, rfl, holdsSummary, by rw [merge_eq_max, max_eq_left below]⟩

/-- The published record against a peer that has nothing. -/
theorem anti_entropy_vector :
    ∃ delta next, deltaFor VectorKey vectorParams vectorRecord.encode [] = .ok delta ∧ delta ≠ [] ∧
      updateState VectorKey vectorParams [] [.delta delta] = .ok next ∧
      held VectorKey vectorParams next = some vectorRecord :=
  ((anti_entropy parse_vectorParams).2.1 vectorRecord.encode [] vectorRecord held_vectorRecord
    held_nil).2

end FreenetMigrate.PointerContract
