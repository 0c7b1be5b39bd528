import FreenetMigrate.Import.History
import FreenetMigrate.Migrate.Discipline
import FreenetMigrate.Migrate.Resurrection

namespace FreenetMigrate.Migrate

open Calls SecretStore Relation

variable {Store : Type} [SecretStore Store] {start store final : Store} {p : DelegateKey}

def SawData (predecessor : DelegateKey) (store : Store) : Prop :=
  ∃ value, getSecret store (predWipMarker predecessor) = some value ∧
    value ≠ PRED_DONE_MARKER_VALUE_EMPTY

theorem sawData_iff : SawData p store ↔
    (getSecret store (predWipMarker p)).any (· != PRED_DONE_MARKER_VALUE_EMPTY) = true := by
  rw [Option.any_eq_true]
  simp only [bne_iff_ne]
  rfl

theorem SawData.same (saw : SawData p store)
    (same : getSecret final (predWipMarker p) = getSecret store (predWipMarker p)) :
    SawData p final := by
  obtain ⟨value, stored, data⟩ := saw
  exact ⟨value, same.trans stored, data⟩

theorem SawData.bytes {q : DelegateKey} (saw : SawData p store) (same : q.bytes = p.bytes) :
    SawData q store := by
  unfold SawData
  rw [predWipMarker_eq_iff.mpr same]
  exact saw

theorem SawData.reads (saw : SawData p store) (generation : UInt32) (bridge : LegacyBridge) :
    SecretStoreIo.migrationMarker store ⟨p, generation, bridge⟩ = some (.inProgress true) ∨
      SecretStoreIo.migrationMarker store ⟨p, generation, bridge⟩ = some (.done true) := by
  have flag := sawData_iff.mp saw
  obtain ⟨value, stored, data⟩ := saw
  rcases SecretStoreIo.migrationMarker_cases store ⟨p, generation, bridge⟩ with
    ⟨-, read⟩ | ⟨upheld, kept, found, read⟩ | ⟨-, bridged | read⟩
  · exact .inl read
  · have full : kept ≠ PRED_DONE_MARKER_VALUE_EMPTY := by
      rintro rfl
      unfold emptySealContradicted at upheld
      rw [found, flag] at upheld
      exact absurd upheld (by decide)
    rw [bne_iff_ne.mpr full] at read
    exact .inr read
  · exact .inr bridged
  · rw [stored, Option.map_some, bne_iff_ne.mpr data] at read
    exact .inl read

theorem SawData.hadData (saw : SawData p store) :
    predecessorMigrationHadData store p = none ∨ predecessorMigrationHadData store p = some true := by
  have flag := sawData_iff.mp saw
  unfold predecessorMigrationHadData emptySealContradicted
  rw [flag, Bool.and_true]
  split
  · exact .inl rfl
  · rename_i upheld
    cases found : getSecret store (predDoneMarker p) with
    | none => exact .inl rfl
    | some kept =>
      have full : kept ≠ PRED_DONE_MARKER_VALUE_EMPTY := by
        rintro rfl
        rw [found] at upheld
        exact upheld (beq_self_eq_true _)
      rw [Option.map_some, bne_iff_ne.mpr full]
      exact .inr rfl

/-- An export of nothing of its own is not believed, and leaves the store as it is. -/
theorem SawData.empty {secrets : List SecretPair} (saw : SawData p store)
    (empty : ∀ pair ∈ secrets, isMarker pair.1 = true) :
    (importPredecessorSecretsOnce store p secrets).2 = store := by
  have nothing : (secrets.any fun pair => !isMarker pair.1) = false := by
    rw [List.any_eq_false]
    intro pair member
    rw [empty pair member]
    decide
  unfold importPredecessorSecretsOnce
  simp only [sawData_iff.mp saw, nothing]
  split <;> rfl

theorem SawData.edit (saw : SawData p store) (edit : AppEdit store final) : SawData p final :=
  saw.same (edit _ (isMarker_markerKey p (.inProgress true)))

def importedFlag (store : Store) (predecessor : DelegateKey) (secrets : List SecretPair) : Bytes :=
  if (getSecret store (predWipMarker predecessor)).any (· != PRED_DONE_MARKER_VALUE_EMPTY) ||
      secrets.any fun pair => !isMarker pair.1 then PRED_DONE_MARKER_VALUE_DATA
  else PRED_DONE_MARKER_VALUE_EMPTY

theorem SawData.flag (saw : SawData p store) (secrets : List SecretPair) :
    importedFlag store p secrets = PRED_DONE_MARKER_VALUE_DATA := by
  unfold importedFlag
  rw [sawData_iff.mp saw]
  rfl

theorem importPredecessorSecretsOnce_cases (store : Store) (predecessor : DelegateKey)
    (secrets : List SecretPair) :
    (importPredecessorSecretsOnce store predecessor secrets).2 = store ∨
      (importPredecessorSecretsOnce store predecessor secrets).2 =
        (writeSecretsTwoPhase store (predWipMarker predecessor) (predDoneMarker predecessor)
          (importedFlag store predecessor secrets) secrets).2 := by
  unfold importPredecessorSecretsOnce
  split
  · exact .inl rfl
  · simp only
    split
    · exact .inl rfl
    · refine .inr ?_
      change Prod.snd (if (writeSecretsTwoPhase store (predWipMarker predecessor)
        (predDoneMarker predecessor) (importedFlag store predecessor secrets) secrets).1.completed
        then _ else _) = _
      split <;> rfl

section Writes

variable [ExactSecretStore Store]

theorem SawData.other {key value : Bytes} (saw : SawData p store) (other : predWipMarker p ≠ key) :
    SawData p (setSecret store key value).2 :=
  saw.same (ExactSecretStore.getSecret_other store key value _ other)

theorem SawData.flagged (saw : SawData p store) :
    SawData p (setSecret store (predWipMarker p) PRED_DONE_MARKER_VALUE_DATA).2 := by
  rcases getSecret_setSecret_cases store (predWipMarker p) PRED_DONE_MARKER_VALUE_DATA with
    now | ⟨-, before⟩
  · exact ⟨_, now, by decide⟩
  · exact saw.same before

theorem SawData.records (saw : SawData p store) (predecessor : DelegateKey)
    (marker : MigrationMarker) : SawData p (SecretStoreIo.recordMarker store predecessor marker).2 := by
  unfold SecretStoreIo.recordMarker
  simp only
  split
  · exact saw
  · rename_i records
    cases marker with
    | done hadData => exact saw.other (predDoneMarker_ne_predWipMarker predecessor p).symm
    | inProgress sawData =>
      by_cases own : predWipMarker p = predWipMarker predecessor
      · cases sawData with
        | true =>
          change SawData p (setSecret store (predWipMarker predecessor) PRED_DONE_MARKER_VALUE_DATA).2
          rw [← own]
          exact saw.flagged
        | false =>
          refine absurd ⟨rfl, ?_⟩ records
          change (getSecret store (predWipMarker predecessor)).any _ = true
          rw [← own]
          exact sawData_iff.mp saw
      · exact saw.other own

theorem SawData.imports (saw : SawData p store) (predecessor : DelegateKey)
    (secrets : List SecretPair) :
    SawData p (importPredecessorSecretsOnce store predecessor secrets).2 := by
  rcases importPredecessorSecretsOnce_cases store predecessor secrets with same | same
  · rw [same]
    exact saw
  · rw [same]
    have imports : Imports (predWipMarker predecessor) (predDoneMarker predecessor)
        (importedFlag store predecessor secrets) secrets store (writeSecretsTwoPhase store
          (predWipMarker predecessor) (predDoneMarker predecessor)
          (importedFlag store predecessor secrets) secrets).2 :=
      imports_writeSecretsTwoPhase (isMarker_markerKey predecessor (.inProgress true))
        (isMarker_markerKey predecessor (.done true)) (predDoneMarker_ne_predWipMarker _ _).symm _ _
    by_cases own : predecessor.bytes = p.bytes
    · have saw' := saw.bytes own
      rw [saw'.flag] at imports ⊢
      refine SawData.bytes ?_ own.symm
      rcases imports.wip with unchanged | flagged
      · exact saw'.same unchanged
      · exact ⟨_, flagged, by decide⟩
    · refine saw.same (imports.reserved _ (isMarker_markerKey p (.inProgress true)) ?_ ?_)
      · exact fun same => own (predWipMarker_eq_iff.mp same).symm
      · exact (predDoneMarker_ne_predWipMarker predecessor p).symm

theorem SawData.importsGeneration (saw : SawData p store) (exported : ExportedSecrets)
    (successorGeneration : UInt32) :
    SawData p (importSecretsOnce store exported successorGeneration).2 := by
  have imports := imports_importSecretsOnce store exported successorGeneration
  refine saw.same (imports.reserved _ (isMarker_markerKey p (.inProgress true))
    (predWipMarker_ne_wipMarker p _) ?_)
  intro same
  exact not_done_prefix_predWipMarker p (same ▸ List.prefix_append ..)

/-- The calls of a walk never take the flag back. -/
theorem SawData.call {request : Request} {answer : Answer request} (saw : SawData p store)
    (own : ∀ item, request = .writeSecret item → isMarker item.key = false)
    (call : storeWorld store request answer final) : SawData p final := by
  obtain ⟨edited, edit, call⟩ := call
  have saw := saw.edit edit
  rcases soleWorld_cases call with rfl | ⟨predecessor, marker, rfl, rfl⟩ | ⟨item, rfl, rfl⟩
  · exact saw
  · exact saw.records predecessor marker
  · unfold SecretStoreIo.writeSecret
    split
    · exact saw
    · refine saw.other ?_
      intro same
      have reserved := isMarker_markerKey p (.inProgress true)
      rw [show SecretStoreIo.markerKey p (.inProgress true) = item.key from same, own item rfl]
        at reserved
      cases reserved

end Writes

section History

/-- What happens to a successor's store, by every writer of its markers. -/
inductive MarkerStep : Store → Store → Prop
  | imports (store : Store) (predecessor : DelegateKey) (secrets : List SecretPair) :
      MarkerStep store (importPredecessorSecretsOnce store predecessor secrets).2
  | importsGeneration (store : Store) (exported : ExportedSecrets) (successorGeneration : UInt32) :
      MarkerStep store (importSecretsOnce store exported successorGeneration).2
  | records (store : Store) (predecessor : DelegateKey) (marker : MigrationMarker) :
      MarkerStep store (SecretStoreIo.recordMarker store predecessor marker).2
  | walks {store final : Store} {lineage : List DelegateLineageEntry}
      {policy : SecretSelectionPolicy} {events : History}
      (run : Reaches storeWorld store (migrateDelegateSecrets lineage policy) events final) :
      MarkerStep store final
  | edits {store edited : Store} (edit : AppEdit store edited) : MarkerStep store edited

def MarkerHistory : Store → Store → Prop := ReflTransGen MarkerStep

/-- A successor over a secret store that other sessions use between any two calls. -/
def sharedWorld : World Request Answer Store := fun before request answer after =>
  ∃ middle, MarkerHistory before middle ∧ storeWorld middle request answer after

theorem sharedWorld_total (store : Store) (request : Request) :
    ∃ answer after, sharedWorld store request answer after := by
  obtain ⟨answer, after, call⟩ := storeWorld_total store request
  exact ⟨answer, after, store, .refl, call⟩

variable [ExactSecretStore Store]

theorem SawData.step (saw : SawData p store) (step : MarkerStep store final) : SawData p final := by
  cases step with
  | imports predecessor secrets => exact saw.imports predecessor secrets
  | importsGeneration exported successorGeneration =>
    exact saw.importsGeneration exported successorGeneration
  | records predecessor marker => exact saw.records predecessor marker
  | walks run =>
    exact run.steps.frame (reaches_write_own storeWorld_total run)
      (fun _ _ _ _ own call saw => saw.call own call) saw
  | edits edit => exact saw.edit edit

theorem SawData.history (saw : SawData p start) (history : MarkerHistory start store) :
    SawData p store := by
  induction history with
  | refl => exact saw
  | tail _ step ih => exact ih.step step

theorem SawData.sharedCall {request : Request} {answer : Answer request} (saw : SawData p store)
    (own : ∀ item, request = .writeSecret item → isMarker item.key = false)
    (call : sharedWorld store request answer final) : SawData p final := by
  obtain ⟨middle, history, call⟩ := call
  exact (saw.history history).call own call

theorem SawData.reads_of_steps {events : Migrate.History} (saw : SawData p store)
    (steps : Steps sharedWorld store events final)
    (own : Only (fun request => ∀ item, request = .writeSecret item → isMarker item.key = false)
      events) {query : MarkerQuery} {marker : Option MigrationMarker}
    (about : query.predecessor.bytes = p.bytes)
    (read : ⟨.migrationMarker query, .ok marker⟩ ∈ events) :
    marker = some (.inProgress true) ∨ marker = some (.done true) := by
  induction steps with
  | nil => cases read
  | cons call rest ih =>
    obtain ⟨first, later⟩ := only_cons.mp own
    rcases List.mem_cons.mp read with now | after
    · cases now
      obtain ⟨middle, history, edited, edit, answered, -⟩ := call
      rw [Except.ok.inj answered]
      exact (((saw.history history).edit edit).bytes about).reads query.generation query.legacyBridge
    · exact ih (saw.sharedCall first call) later after

theorem SawData.reads_of_visits {policy : SecretSelectionPolicy} {state state' : WalkState Unit}
    {visits : List Visit} (saw : SawData p store)
    (visited : Visits noObserver policy sharedWorld store state visits final state') :
    ∀ visit ∈ visits, visit.row.1.bytes = p.bytes → ∀ marker, visit.Reads policy marker →
      marker = some (.inProgress true) ∨ marker = some (.done true) := by
  induction visited with
  | nil => simp
  | @cons _ _ _ _ _ _ visit visits round _ _ ih =>
    have own := ((rowRuns_of_executes round).calls quiet_noObserver).mono fun _ => RowCall.own
    intro other member about marker read
    rcases List.mem_cons.mp member with rfl | later
    · exact saw.reads_of_steps round.steps own about read
    · exact ih (round.steps.frame own (fun _ _ _ _ own call saw => saw.sharedCall own call) saw)
        other later about marker read

omit [SecretStore Store] [ExactSecretStore Store] in
/-- A visit that finds the data flag and is given nothing records nothing and writes nothing. -/
theorem unwritten_of_flagged {policy : SecretSelectionPolicy} {visit : Visit} {secrets : List SecretPair}
    (follows : Follows (InOrder policy visit.row) [] visit.calls)
    (asking : visit.Unasked policy → Only (AskingCall visit.row.1) visit.calls)
    (reads : ∀ marker, visit.Reads policy marker →
      marker = some (.inProgress true) ∨ marker = some (.done true))
    (fetched : ⟨.fetchSecrets visit.row.1, .ok secrets⟩ ∈ visit.calls)
    (empty : ∀ pair ∈ secrets, isMarker pair.1 = true) :
    ∀ event ∈ visit.calls,
      (∀ predecessor marker, event.request ≠ .recordMarker predecessor marker) ∧
        ∀ item, event.request ≠ .writeSecret item := by
  have ordered : ∀ event ∈ visit.calls, ∃ before, before ⊆ visit.calls ∧
      InOrder policy visit.row before event := by
    intro event member
    obtain ⟨before, after, split⟩ := List.append_of_mem member
    rw [split] at follows ⊢
    exact ⟨before, List.subset_append_left .., follows.split⟩
  have unbegun : ∀ predecessor sawData answer,
      ⟨.recordMarker predecessor (.inProgress sawData), answer⟩ ∉ visit.calls := by
    intro predecessor sawData answer member
    obtain ⟨before, among, -, -, marker, exported, read, -, -, cases'⟩ := ordered _ member
    have read := among read
    have flagged : marker = some (.inProgress true) := by
      rcases reads marker read with flagged | sealed'
      · exact flagged
      · rcases cases' with rfl | rfl | ⟨rfl, -⟩
        · cases sealed'
        · cases sealed'
        · rfl
    rw [flagged] at read
    exact asking (.inr (.inr ⟨read, secrets, fetched, empty⟩)) _ member
  rintro ⟨request, answer⟩ member
  constructor
  · rintro predecessor marker rfl
    cases marker with
    | inProgress sawData => exact unbegun predecessor sawData answer member
    | done hadData =>
      obtain ⟨before, among, rfl, intents, -⟩ := ordered _ member
      exact unbegun _ _ _ (among ((intents (.inProgress hadData) (.ok ())).mpr rfl))
  · rintro item rfl
    obtain ⟨before, among, -, -, intent⟩ := ordered _ member
    exact unbegun _ _ _ (among intent)

end History

/-- Once an in-progress marker that saw data is stored, every later state says so: the marker is
    kept, no reading of the predecessor is empty, and an export of nothing neither writes nor seals,
    through the delegate-keyed import or through a walk that shares the store. -/
theorem data_sticks [ExactSecretStore Store] (saw : SawData p start)
    (history : MarkerHistory start store) :
    SawData p store ∧
      (predecessorMigrationHadData store p = none ∨ predecessorMigrationHadData store p = some true) ∧
      (∀ generation bridge,
        SecretStoreIo.migrationMarker store ⟨p, generation, bridge⟩ = some (.inProgress true) ∨
          SecretStoreIo.migrationMarker store ⟨p, generation, bridge⟩ = some (.done true)) ∧
      (∀ secrets, (∀ pair ∈ secrets, isMarker pair.1 = true) →
        (importPredecessorSecretsOnce store p secrets).2 = store) ∧
      ∀ lineage policy events final,
        Reaches sharedWorld store (migrateDelegateSecrets lineage policy) events final →
          SawData p final ∧ ∃ visits : List Visit, ∃ ended, ∃ outcome : WalkState Unit,
            Visits noObserver policy sharedWorld store (.start ()) visits ended outcome ∧
            InNewestOrder lineage (visits.map Visit.row) ∧
            events <+: (visits.map Visit.calls).flatten ∧
            ∀ visit ∈ visits, visit.row.1.bytes = p.bytes →
              ∀ secrets, ⟨.fetchSecrets visit.row.1, .ok secrets⟩ ∈ visit.calls →
                (∀ pair ∈ secrets, isMarker pair.1 = true) →
                  ∀ event ∈ visit.calls, (∀ predecessor marker,
                    event.request ≠ .recordMarker predecessor marker) ∧
                    ∀ item, event.request ≠ .writeSecret item := by
  have saw := saw.history history
  refine ⟨saw, saw.hadData, saw.reads, fun secrets => saw.empty, ?_⟩
  intro lineage policy events final run
  have own := reaches_write_own sharedWorld_total run
  obtain ⟨visits, more, ended, outcome, ordered, calls, visited⟩ :=
    visits_of_reaches sharedWorld_total run
  refine ⟨run.steps.frame own (fun _ _ _ _ own call saw => saw.sharedCall own call) saw, visits,
    ended, outcome, visited, ordered, ⟨more, calls⟩, ?_⟩
  intro visit member about secrets fetched empty
  obtain ⟨follows, asking⟩ := visits_disciplined visited visit member
  exact unwritten_of_flagged follows asking (saw.reads_of_visits visited visit member about) fetched
    empty

def flaggedStore : MemStore :=
  (SecretStoreIo.recordMarker ⟨[], []⟩ (lineageKey (sampleEntry 1)) (.inProgress true)).2

def sealedOver : MemStore :=
  (SecretStoreIo.recordMarker flaggedStore (lineageKey (sampleEntry 1)) (.done false)).2

def sealedWalk : Migration (List PredecessorMigration) :=
  migrateDelegateSecrets [sampleEntry 1] .newestSnapshotWins

theorem data_sticks_sealed :
    (predecessorMigrationHadData sealedOver (lineageKey (sampleEntry 1)) = none ∨
      predecessorMigrationHadData sealedOver (lineageKey (sampleEntry 1)) = some true) ∧
      (importPredecessorSecretsOnce sealedOver (lineageKey (sampleEntry 1)) []).2 = sealedOver ∧
      let run := sealedWalk.run (storeHandler fun _ => []) sealedOver
      (⟨.fetchSecrets (lineageKey (sampleEntry 1)), .ok []⟩ : Event Request Answer) ∈ run.1 ∧
        SawData (lineageKey (sampleEntry 1)) run.2.1 ∧
        ∃ visits : List Visit, ∃ ended, ∃ outcome : WalkState Unit,
          Visits noObserver .newestSnapshotWins sharedWorld sealedOver (.start ()) visits ended outcome ∧
          InNewestOrder [sampleEntry 1] (visits.map Visit.row) ∧
          run.1 <+: (visits.map Visit.calls).flatten := by
  have saw : SawData (lineageKey (sampleEntry 1)) flaggedStore :=
    ⟨PRED_DONE_MARKER_VALUE_DATA, by decide +kernel, by decide⟩
  have facts := data_sticks saw (.single (.records flaggedStore (lineageKey (sampleEntry 1)) (.done false)))
  have run : Reaches sharedWorld sealedOver (migrateDelegateSecrets [sampleEntry 1] .newestSnapshotWins)
      (sealedWalk.run (storeHandler fun _ => []) sealedOver).1
      (sealedWalk.run (storeHandler fun _ => []) sealedOver).2.1 :=
    (executes_run (fun store request => ⟨store, .refl, storeWorld_storeHandler (fun _ => []) store request⟩)
      sealedOver).reaches
  obtain ⟨kept, visits, ended, outcome, visited, ordered, calls, -⟩ := facts.2.2.2.2 _ _ _ _ run
  exact ⟨facts.2.1, facts.2.2.2.1 [] (by simp), .tail _ (.tail _ (.head _)), kept, visits, ended, outcome,
    visited, ordered, calls⟩

end FreenetMigrate.Migrate
