import FreenetMigrate.Import.Once
import Mathlib.Logic.Relation

namespace FreenetMigrate.Migrate

open SecretStore Relation

section Call

variable {Store : Type} [SecretStore Store] {store : Store} {exported : ExportedSecrets}
  {successorGeneration : UInt32}

/-- Either nothing is written, or the payload is imported, and then nothing marks the generation. -/
theorem importSecretsOnce_cases (store : Store) (exported : ExportedSecrets)
    (successorGeneration : UInt32) :
    (importSecretsOnce store exported successorGeneration).2 = store ∨
      (hasSecret store (doneMarker exported.sourceGeneration) = false ∧
        (importSecretsOnce store exported successorGeneration).2 =
          (writeSecretsTwoPhase store (wipMarker exported.sourceGeneration)
            (doneMarker exported.sourceGeneration) (ascii "1") exported.secrets).2) := by
  unfold importSecretsOnce
  simp only
  split
  · exact .inl rfl
  · split
    · exact .inl rfl
    · rename_i fresh
      split
      · exact .inl rfl
      · refine .inr ⟨Bool.not_eq_true _ ▸ fresh, ?_⟩
        split <;> rfl

variable [ExactSecretStore Store]

theorem imports_importSecretsOnce (store : Store) (exported : ExportedSecrets)
    (successorGeneration : UInt32) :
    Imports (wipMarker exported.sourceGeneration) (doneMarker exported.sourceGeneration) (ascii "1")
      exported.secrets store (importSecretsOnce store exported successorGeneration).2 := by
  rcases importSecretsOnce_cases store exported successorGeneration with same | ⟨-, same⟩
  · rw [same]
    exact .refl store
  · rw [same]
    exact imports_writeSecretsTwoPhase (isMarker_wipMarker _) (isMarker_doneMarker _)
      (wipMarker_ne_doneMarker _ _) store exported.secrets

theorem done_importSecretsOnce {generation : UInt32}
    (done : (getSecret store (doneMarker generation)).isSome) :
    (getSecret (importSecretsOnce store exported successorGeneration).2 (doneMarker generation)).isSome := by
  have imports := imports_importSecretsOnce store exported successorGeneration
  by_cases own : generation = exported.sourceGeneration
  · subst own
    rcases imports.done with same | ⟨now, -⟩
    · rw [same]
      exact done
    · rw [now]
      rfl
  · have apart : doneMarker generation ≠ doneMarker exported.sourceGeneration :=
      fun same => own (doneMarker_eq_iff.mp same)
    rw [imports.reserved _ (isMarker_doneMarker generation) (wipMarker_ne_doneMarker _ _).symm apart]
    exact done

end Call

section History

variable {Store : Type} [SecretStore Store] {start store final : Store} {generation : UInt32}

inductive ImportStep : Store → Store → Prop
  | imports (store : Store) (exported : ExportedSecrets) (successorGeneration : UInt32) :
      ImportStep store (importSecretsOnce store exported successorGeneration).2
  | edits {store edited : Store} (edit : AppEdit store edited) : ImportStep store edited

def ImportHistory : Store → Store → Prop := ReflTransGen ImportStep

variable [ExactSecretStore Store]

theorem ImportStep.done (step : ImportStep store final)
    (done : (getSecret store (doneMarker generation)).isSome) :
    (getSecret final (doneMarker generation)).isSome := by
  cases step with
  | imports exported successorGeneration => exact done_importSecretsOnce done
  | edits edit =>
    rw [edit _ (isMarker_doneMarker generation)]
    exact done

theorem ImportHistory.done (history : ImportHistory start store)
    (done : (getSecret start (doneMarker generation)).isSome) :
    (getSecret store (doneMarker generation)).isSome := by
  induction history with
  | refl => exact done
  | tail _ step ih => exact step.done ih

/-- The call that stored a completion marker: of that generation, and with its whole payload held. -/
def CompletedWithin (generation : UInt32) (start final : Store) : Prop :=
  ∃ before exported successorGeneration, ImportHistory start before ∧
    exported.sourceGeneration = generation ∧
    getSecret before (doneMarker generation) = none ∧
    (getSecret (importSecretsOnce before exported successorGeneration).2 (doneMarker generation)).isSome ∧
    (∀ pair ∈ exported.secrets, isMarker pair.1 = false →
      (getSecret (importSecretsOnce before exported successorGeneration).2 pair.1).isSome) ∧
    ImportHistory (importSecretsOnce before exported successorGeneration).2 final

theorem ImportStep.stores (step : ImportStep store final)
    (absent : getSecret store (doneMarker generation) = none)
    (done : (getSecret final (doneMarker generation)).isSome) :
    CompletedWithin generation store final := by
  cases step with
  | imports exported successorGeneration =>
    have imports := imports_importSecretsOnce store exported successorGeneration
    by_cases own : generation = exported.sourceGeneration
    · subst own
      rcases imports.done with same | ⟨-, -, held⟩
      · rw [same, absent] at done
        cases done
      · exact ⟨store, exported, successorGeneration, .refl, rfl, absent, done, held, .refl⟩
    · have apart : doneMarker generation ≠ doneMarker exported.sourceGeneration :=
        fun same => own (doneMarker_eq_iff.mp same)
      rw [imports.reserved _ (isMarker_doneMarker generation) (wipMarker_ne_doneMarker _ _).symm
        apart, absent] at done
      cases done
  | edits edit =>
    rw [edit _ (isMarker_doneMarker generation), absent] at done
    cases done

theorem ImportHistory.stores (history : ImportHistory start store)
    (absent : getSecret start (doneMarker generation) = none)
    (done : (getSecret store (doneMarker generation)).isSome) :
    CompletedWithin generation start store := by
  induction history with
  | refl =>
    rw [absent] at done
    cases done
  | @tail middle final before step ih =>
    cases already : getSecret middle (doneMarker generation) with
    | some value =>
      obtain ⟨first, exported, successorGeneration, earlier, own, fresh, stored, held, later⟩ :=
        ih (by rw [already]; rfl)
      exact ⟨first, exported, successorGeneration, earlier, own, fresh, stored, held, later.tail step⟩
    | none =>
      obtain ⟨first, exported, successorGeneration, earlier, own, fresh, stored, held, later⟩ :=
        step.stores already done
      exact ⟨first, exported, successorGeneration, before.trans earlier, own, fresh, stored, held, later⟩

end History

section Discipline

variable {Store : Type} [SecretStore Store] [ExactSecretStore Store] {start store : Store}

end Discipline

end FreenetMigrate.Migrate
