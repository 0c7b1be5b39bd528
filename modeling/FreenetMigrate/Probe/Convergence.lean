import FreenetMigrate.Probe.PolicyCheck
import FreenetMigrate.Probe.Unresolved

namespace FreenetMigrate.Probe

open Joins

section Outcomes

variable {State : Type}

def Outcome.state : Outcome State → State
  | .recovered merged _ _ _ => merged
  | .seedLocal localState => localState
  | .indeterminate localState _ => localState
  | .noLegacy localState => localState

def Outcome.unresolved : Outcome State → List PointerClient.ContractInstanceId
  | .recovered _ _ _ unresolved => unresolved
  | .seedLocal _ => []
  | .indeterminate _ unresolved => unresolved
  | .noLegacy _ => []

def realStates (ops : ProbeStateOps State) (answers : List Row) : List State :=
  (answers.filterMap (hit ops)).map Prod.snd

/-- A device's states over its life, with all that went into each: the one it starts from, its own
    writes, and the real states that its fold-all probes hear. -/
inductive Gathers (ops : ProbeStateOps State) : List State → State → Prop
  | start (held : State) : Gathers ops [held] held
  | writes {gathered : List State} {held later : State} (gathers : Gathers ops gathered held)
      (kept : ops.mergeGenerations held later = later) : Gathers ops (gathered ++ [later]) later
  | probes {gathered : List State} {held : State} {candidates : NewestFirst} {maxHops : Nat}
      {continuing : Bool} {calls : List DriverCall} {trace : ProbeTrace} {driver : ProbeDriver State}
      {outcome : Outcome State} (gathers : Gathers ops gathered held)
      (ran : ((ProbeDriver.new ops held candidates .foldAll).configured maxHops continuing).run calls =
        some (trace, driver))
      (taken : driver.takeOutcome.1 = some outcome) :
      Gathers ops (gathered ++ realStates ops trace.answers) outcome.state

def prepared (ops : ProbeStateOps State) (states : List State) : Set State :=
  {value | value ∈ states.map ops.prepareForward}

theorem prepared_append {ops : ProbeStateOps State} (states others : List State) :
    prepared ops (states ++ others) = prepared ops states ∪ prepared ops others := by
  ext value
  simp [prepared]

theorem prepared_one {ops : ProbeStateOps State} (state : State) :
    prepared ops [state] = {ops.prepareForward state} := by
  ext value
  simp [prepared]

/-- A fold-all probe that hears no real state goes forward with what its device holds. -/
theorem reference_foldAll_unfound (ops : ProbeStateOps State) (held : State) (maxHops : Nat)
    (continuing : Bool) {rows : List Row} (hits : (rows.take maxHops).filterMap (hit ops) = []) :
    (reference ops held .foldAll maxHops continuing rows).outcome.state = held ∨
      (reference ops held .foldAll maxHops continuing rows).outcome.state = ops.prepareForward held := by
  unfold reference
  split
  · exact .inl rfl
  · apply Or.inr
    rw [course_foldAll rfl]
    simp only
    rw [hits, List.foldl_nil, Rules.exhausted_none]
    split <;> rfl

/-- A fold-all probe leaves open whom it did not hear: the silent, and those the hop cap cut off. -/
theorem mem_foldAll_unresolved (ops : ProbeStateOps State) (held : State) (maxHops : Nat)
    (continuing : Bool) (rows : List Row) (id : PointerClient.ContractInstanceId) :
    id ∈ (reference ops held .foldAll maxHops continuing rows).outcome.unresolved ↔
      id ∈ silent (rows.take maxHops) ∨ id ∈ (rows.drop maxHops).map Prod.fst := by
  rw [← mem_listed]
  unfold reference
  split
  · rename_i empty
    simp [List.isEmpty_iff.mp empty, Outcome.unresolved, silent]
  · rw [course_foldAll rfl]
    simp only [Rules.exhausted]
    split
    · rfl
    · split
      · rename_i empty
        rw [List.isEmpty_iff.mp empty]
        rfl
      · rfl

end Outcomes

section Joining

variable {State : Type} [SemilatticeSup State] {ops : ProbeStateOps State} {held : State}

/-- An app that folds by joins: generations, the local snapshot, and what it prepares. -/
structure FoldsByJoin (ops : ProbeStateOps State) : Prop where
  generations : ∀ a b, ops.mergeGenerations a b = a ⊔ b
  withLocal : ∀ a b, ops.mergeWithLocal a b = a ⊔ b
  prepares : ∀ a b, ops.prepareForward (a ⊔ b) = ops.prepareForward a ⊔ ops.prepareForward b
  again : ∀ a, ops.prepareForward (ops.prepareForward a) = ops.prepareForward a

namespace FoldsByJoin

variable (folds : FoldsByJoin ops)

include folds

/-- The fold of real states goes forward as the join of what each would. -/
theorem isLUB_fold (newest : State) (older : List (PointerClient.ContractInstanceId × State)) :
    IsLUB (prepared ops (newest :: older.map Prod.snd)) (ops.prepareForward
      (older.foldl (fun folded row => ops.mergeGenerations folded row.2) newest)) := by
  have fold : older.foldl (fun folded row => ops.mergeGenerations folded row.2) newest =
      (older.map Prod.snd).foldl (· ⊔ ·) newest := by
    simp only [folds.generations, List.foldl_map]
  rw [fold, map_foldl_sup folds.prepares]
  exact isLUB_foldl_sup _ _

/-- A fold-all probe joins what it hears to what its device holds. -/
theorem isLUB_reference (held : State) (maxHops : Nat) (continuing : Bool) (rows : List Row) :
    IsLUB (prepared ops (held :: realStates ops
        (reference ops held .foldAll maxHops continuing rows).heard))
      (ops.prepareForward (reference ops held .foldAll maxHops continuing rows).outcome.state) := by
  rw [← List.singleton_append, prepared_append, prepared_one, reference_foldAll_heard]
  cases hits : (rows.take maxHops).filterMap (hit ops) with
  | nil =>
    have kept : ops.prepareForward
        (reference ops held .foldAll maxHops continuing rows).outcome.state =
          ops.prepareForward held := by
      rcases reference_foldAll_unfound ops held maxHops continuing hits with same | same
      · rw [same]
      · rw [same, folds.again]
    rw [kept, realStates, hits, List.map_nil, prepared, List.map_nil]
    simp
  | cons first older =>
    obtain ⟨source, newest⟩ := first
    rw [reference_foldAll_outcome ops held maxHops continuing hits, realStates, hits, Outcome.state,
      folds.withLocal, folds.again, folds.prepares, sup_comm]
    exact isLUB_singleton.union (folds.isLUB_fold newest older)

end FoldsByJoin

/-- What goes forward of a device's state is the join of what would of each state it gathered. -/
theorem FoldsByJoin.isLUB_gathered (folds : FoldsByJoin ops) {gathered : List State}
    (gathers : Gathers ops gathered held) : IsLUB (prepared ops gathered) (ops.prepareForward held) := by
  induction gathers with
  | start held =>
    rw [prepared_one]
    exact isLUB_singleton
  | @writes gathered held later gathers kept ih =>
    have grown : ops.prepareForward later = ops.prepareForward held ⊔ ops.prepareForward later := by
      rw [← folds.prepares, ← folds.generations, kept]
    have bound := ih.union (isLUB_singleton (a := ops.prepareForward later))
    rw [← grown] at bound
    rw [prepared_append, prepared_one]
    exact bound
  | @probes gathered held candidates maxHops continuing calls trace driver outcome gathers ran taken ih =>
    obtain ⟨left, -, came, -⟩ := run_reference ops held .foldAll maxHops continuing ran taken
    have heard := folds.isLUB_reference held maxHops continuing (trace.answers ++ left)
    rw [came, ← List.singleton_append, prepared_append, prepared_one] at heard
    rw [prepared_append]
    refine (isLUB_congr ?_).mp heard
    rw [upperBounds_union, upperBounds_union, ih.upperBounds_eq, upperBounds_singleton]

end Joining

section Main

variable {State : Type} [DecidableEq State] {ops : ProbeStateOps State}

/-- Where the app's merge passes its checks whatever the samples, and its other two operations keep to
    that merge, fold-all converges. What goes forward of a device's state has absorbed every state the
    device gathered, and nothing else; devices that gathered the same states go forward with the same,
    whatever the order, the repeats and the silences; and a probe that leaves nobody unresolved heard
    every candidate. -/
theorem fold_all_converges
    (checked : ∀ samples, assertMergeCommutative samples ops.mergeGenerations = .ok () ∧
      assertMergeIdempotent samples ops.mergeGenerations = .ok () ∧
      assertFoldOrderInvariant samples ops.mergeGenerations = .ok ())
    (withLocal : ops.mergeWithLocal = ops.mergeGenerations)
    (prepares : ∀ a b, ops.prepareForward (ops.mergeGenerations a b) =
      ops.mergeGenerations (ops.prepareForward a) (ops.prepareForward b))
    (again : ∀ a, ops.prepareForward (ops.prepareForward a) = ops.prepareForward a) :
    (∀ gathered held, Gathers ops gathered held →
      (∀ state ∈ gathered, ops.mergeGenerations (ops.prepareForward state) (ops.prepareForward held) =
        ops.prepareForward held) ∧
      ∀ bound, (∀ state ∈ gathered, ops.mergeGenerations (ops.prepareForward state) bound = bound) →
        ops.mergeGenerations (ops.prepareForward held) bound = bound) ∧
    (∀ gathered held others other, Gathers ops gathered held → Gathers ops others other →
      (∀ state, state ∈ gathered ↔ state ∈ others) →
      ops.prepareForward held = ops.prepareForward other) ∧
    ∀ held (candidates : NewestFirst) maxHops continuing calls trace driver outcome,
      ((ProbeDriver.new ops held candidates .foldAll).configured maxHops continuing).run calls =
        some (trace, driver) → driver.takeOutcome.1 = some outcome →
      outcome.unresolved = [] → ∀ id ∈ candidates.candidates, Answered trace.answers id := by
  obtain ⟨order, joins⟩ := (policy_checks_iff_join ops.mergeGenerations).mp checked
  have folds : FoldsByJoin ops := by
    refine ⟨joins, fun a b => ?_, fun a b => ?_, again⟩
    · rw [withLocal, joins]
    · rw [← joins, prepares, joins]
  refine ⟨?_, ?_, ?_⟩
  · intro gathered held gathers
    obtain ⟨above, least⟩ := folds.isLUB_gathered gathers
    constructor
    · intro state member
      rw [joins]
      exact sup_eq_right.mpr (above (List.mem_map_of_mem member))
    · intro bound bounds
      rw [joins]
      refine sup_eq_right.mpr (least fun value member => ?_)
      obtain ⟨state, listed, rfl⟩ := List.mem_map.mp member
      exact sup_eq_right.mp ((joins _ _).symm.trans (bounds state listed))
  · intro gathered held others other gathers gathersToo same
    have sets : prepared ops gathered = prepared ops others := by
      ext value
      simp only [prepared, Set.mem_ofPred_eq, List.mem_map, same]
    have bound := folds.isLUB_gathered gathers
    rw [sets] at bound
    exact bound.unique (folds.isLUB_gathered gathersToo)
  · intro held candidates maxHops continuing calls trace driver outcome ran taken nobody id candidate
    obtain ⟨left, named, came, -⟩ := run_reference ops held .foldAll maxHops continuing ran taken
    have open_iff := mem_foldAll_unresolved ops held maxHops continuing (trace.answers ++ left) id
    have heard := reference_foldAll_heard ops held maxHops continuing (trace.answers ++ left)
    rw [came] at open_iff heard
    simp only [nobody, List.not_mem_nil, false_iff, not_or, ← heard] at open_iff
    refine (silent_or_answered ?_).resolve_left open_iff.1
    rw [named, ← List.take_append_drop maxHops (trace.answers ++ left), List.map_append, ← heard,
      List.mem_append] at candidate
    exact candidate.resolve_right open_iff.2

end Main

section Samples

/-- Flags in the bits of a number. The highest is a pointer, which is not carried forward. -/
def flagOps : ProbeStateOps Nat where
  decode bytes := bytes.head?.map UInt8.toNat
  isReal state := state != 0
  mergeWithLocal := (· ||| ·)
  mergeGenerations := (· ||| ·)
  prepareForward state := state &&& 127

theorem isJoin_lor : IsJoin fun a b : Nat => a ||| b := by
  refine isJoin_iff.mpr ⟨Nat.or_comm, Nat.or_self, ?_⟩
  intro a b c
  rw [Nat.or_comm c b, Nat.or_comm (b ||| c) a, Nat.or_assoc]

theorem gathers_flags {gathered states : List Nat} {held : Nat} (rows : List Row)
    (outcome : Outcome Nat) (gathers : Gathers flagOps gathered held)
    (pumped : ∃ trace driver, ((ProbeDriver.new flagOps held twice .foldAll).configured 64 false).run
      (handPumped rows) = some (trace, driver) ∧ driver.takeOutcome.1 = some outcome ∧
      realStates flagOps trace.answers = states) :
    Gathers flagOps (gathered ++ states) outcome.state := by
  obtain ⟨trace, driver, ran, taken, rfl⟩ := pumped
  exact gathers.probes ran taken

/-- One device hears both generations at once, the other one at a time. -/
theorem fold_all_converges_flags : ∃ held other, Gathers flagOps [1, 2, 132] held ∧
    Gathers flagOps [1, 132, 2] other ∧
    flagOps.prepareForward held = flagOps.prepareForward other := by
  have both : Gathers flagOps ([1] ++ [2, 132]) 7 :=
    gathers_flags [(Fixed.zero 32, .state [2]), (Fixed.zero 32, .state [132])]
      (.recovered 7 (Fixed.zero 32) false []) (.start 1) ⟨_, _, rfl, rfl, rfl⟩
  have second : Gathers flagOps ([1] ++ [132]) 5 :=
    gathers_flags [(Fixed.zero 32, .unknown), (Fixed.zero 32, .state [132])]
      (.recovered 5 (Fixed.zero 32) false [Fixed.zero 32]) (.start 1) ⟨_, _, rfl, rfl, rfl⟩
  have first : Gathers flagOps ([1] ++ [132] ++ [2]) 7 :=
    gathers_flags [(Fixed.zero 32, .state [2]), (Fixed.zero 32, .absent)]
      (.recovered 7 (Fixed.zero 32) false []) second ⟨_, _, rfl, rfl, rfl⟩
  refine ⟨7, 7, both, first, ?_⟩
  refine (fold_all_converges ?_ rfl ?_ ?_).2.1 _ _ _ _ both first ?_
  · exact (policy_checks_iff_join _).mpr isJoin_lor
  · intro a b
    exact Nat.and_or_distrib_right a b 127
  · intro a
    change (a &&& 127) &&& 127 = a &&& 127
    rw [Nat.and_assoc, Nat.and_self]
  · intro state
    simp [or_comm]

end Samples

end FreenetMigrate.Probe
