import FreenetMigrate.Import.Sticky

namespace FreenetMigrate.Migrate

open Calls SecretStore

variable {Store : Type} [SecretStore Store] {exports : DelegateKey → List SecretPair}

section Items

variable {asked : Asked} {offering : Offering} {w : TwoPhaseWrite} {store : Store}

structure Counts (w : TwoPhaseWrite) (offering : Offering) : Prop where
  tally : offering.tally = ⟨w.imported, w.skipped, w.failed, 0, 0⟩
  stage : offering.failure.map WriterFailure.stage = if w.failed = 0 then none else some .item

theorem counts_start : Counts ⟨0, 0, 0, false⟩ .start := ⟨rfl, rfl⟩

theorem Counts.failure_or (counts : Counts w offering) (error : String) :
    (offering.failure.or (some ⟨.item, error⟩)).map WriterFailure.stage = some .item := by
  have stage := counts.stage
  cases failed : offering.failure with
  | none => rfl
  | some failure =>
    rw [failed, Option.map_some] at stage
    split at stage
    · cases stage
    · exact stage

theorem counts_offerItem (exports : DelegateKey → List SecretPair) (asked : Asked) (store : Store)
    (counts : Counts w offering) {pair : SecretPair} (unreserved : isMarker pair.1 = false) :
    ((offerItem asked [] offering pair).ends (storeHandler exports) store).1 =
        (writePair (w, store) pair).2 ∧
      Counts (writePair (w, store) pair).1
        ((offerItem asked [] offering pair).ends (storeHandler exports) store).2 := by
  have tally := counts.tally
  unfold offerItem writePair
  simp only [List.not_mem_nil, if_false, ends_bind, writeSecret, ends_request, storeHandler,
    SecretStoreIo.writeSecret, unreserved, Bool.false_eq_true]
  by_cases held : hasSecret store pair.1 = true
  · simp only [held, if_true, ends_pure]
    refine ⟨trivial, ?_, counts.stage⟩
    simp only [tally]
  · simp only [held, if_false, Bool.false_eq_true]
    by_cases stored : (setSecret store pair.1 pair.2).1 = true
    · simp only [stored, if_true, ends_pure]
      refine ⟨trivial, ?_, counts.stage⟩
      simp only [tally]
    · simp only [stored, if_false, ends_pure, Bool.false_eq_true]
      refine ⟨trivial, ?_, ?_⟩
      · simp only [tally]
      · rw [counts.failure_or]
        exact (if_neg (Nat.succ_ne_zero _)).symm

theorem counts_offers (exports : DelegateKey → List SecretPair) (asked : Asked) (store : Store)
    (counts : Counts w offering) (items : List SecretPair)
    (unreserved : ∀ pair ∈ items, isMarker pair.1 = false) :
    ((items.foldlM (offerItem asked []) offering).ends (storeHandler exports) store).1 =
        (items.foldl writePair (w, store)).2 ∧
      Counts (items.foldl writePair (w, store)).1
        ((items.foldlM (offerItem asked []) offering).ends (storeHandler exports) store).2 := by
  induction items generalizing w offering store with
  | nil => exact ⟨rfl, counts⟩
  | cons pair rest ih =>
    obtain ⟨same, counted⟩ := counts_offerItem exports asked store counts
      (unreserved pair (List.mem_cons_self ..))
    rw [List.foldlM_cons, ends_bind, List.foldl_cons, same]
    exact ih _ counted fun other member => unreserved other (List.mem_cons_of_mem _ member)

end Items

/-- How a row of the walk answers to an outcome of the two-phase import of `exported`, the pairs of
    the export that are not the crate's own. -/
inductive Corresponds (key : DelegateKey) (generation : UInt32) (exported : List SecretPair) :
    PredecessorImportOutcome → PredecessorMigration → Prop
  | alreadyMigrated : Corresponds key generation exported .alreadyMigrated
      (.alreadyMigrated key generation)
  | imported {imported skipped : Nat} (nonempty : exported ≠ []) :
      Corresponds key generation exported (.imported imported skipped)
        (.imported key generation ⟨imported, skipped, 0, 0, 0⟩)
  | noData (empty : exported = []) :
      Corresponds key generation exported (.imported 0 0) (.noData key generation)
  | incomplete {imported skipped failed : Nat} {failure : WriterFailure}
      (stage : failure.stage = if failed = 0 then .completeMarker else .item) :
      Corresponds key generation exported (.incomplete imported skipped failed)
        (.incomplete key generation ⟨imported, skipped, failed, 0, 0⟩ (some failure))
  | beginRefused {error : String} :
      Corresponds key generation exported (.incomplete 0 0 0)
        (.writerUnavailable key generation ⟨.beginMarker, error⟩)
  | nothingAfterData (empty : exported = []) :
      Corresponds key generation exported (.incomplete 0 0 0)
        (.unresponsive key generation (some EXPORTED_NOTHING_AFTER_DATA))

def TwoPhaseWrite.outcome (w : TwoPhaseWrite) : PredecessorImportOutcome :=
  if w.completed then .imported w.imported w.skipped
  else .incomplete w.imported w.skipped w.failed

section Phases

variable {policy : SecretSelectionPolicy} {asked : Asked} {store : Store} {items : List SecretPair}
  {sawData : Bool}

/-- A walk of one row that ends where the two-phase write does, with the row that answers to it. -/
def Agrees (key : DelegateKey) (generation : UInt32) (items : List SecretPair)
    (outcome : PredecessorImportOutcome) (final : Store) (walked : Store × WalkState Unit) : Prop :=
  walked.1 = final ∧
    ∃ row, walked.2.results = [row] ∧ Corresponds key generation items outcome row

theorem agrees_completeImport (policy : SecretSelectionPolicy) (exports : DelegateKey → List SecretPair)
    (asked : Asked) (store : Store) {w : TwoPhaseWrite} {offering : Offering} (counts : Counts w offering)
    (flag : sawData = !items.isEmpty) (none : items = [] → w = ⟨0, 0, 0, false⟩)
    (fresh : w.completed = false) :
    let (written, final) :=
      if w.failed = 0 then
        let (completed, store) := setSecret store (predDoneMarker asked.key)
          (SecretStoreIo.markerValue (.done sawData))
        (({ w with completed } : TwoPhaseWrite), store)
      else (w, store)
    Agrees asked.key asked.generation items written.outcome final
      ((completeImport policy (.start ()) asked sawData offering).ends (storeHandler exports) store) := by
  have tally := counts.tally
  have stage := counts.stage
  unfold completeImport
  simp only [ends_bind, flushPredecessor, ends_request, storeHandler]
  by_cases clean : w.failed = 0
  · rw [if_pos clean, Option.map_eq_none_iff] at stage
    have complete : (offering.tally.isClean && offering.failure.isNone) = true := by
      rw [tally, stage, clean]
      rfl
    simp only [clean, complete, if_true, ends_bind, recordMarker, ends_request, storeHandler,
      SecretStoreIo.recordMarker, reduceCtorEq, false_and, if_false, SecretStoreIo.markerKey]
    by_cases stored : (setSecret store (predDoneMarker asked.key)
        (SecretStoreIo.markerValue (.done sawData))).1 = true
    · simp only [stored, if_true, TwoPhaseWrite.outcome]
      subst flag
      by_cases empty : items = []
      · obtain rfl := none empty
        subst empty
        exact ⟨rfl, _, rfl, .noData rfl⟩
      · simp only [List.isEmpty_eq_false_iff.mpr empty, Bool.not_false, if_true]
        refine ⟨rfl, _, rfl, ?_⟩
        rw [tally, clean]
        exact .imported empty
    · simp only [stored, if_false, Bool.false_eq_true, TwoPhaseWrite.outcome]
      refine ⟨rfl, _, rfl, ?_⟩
      rw [tally, clean]
      exact .incomplete rfl
  · rw [if_neg clean] at stage
    obtain ⟨failure, failed, atItem⟩ := Option.map_eq_some_iff.mp stage
    have incomplete : (offering.tally.isClean && offering.failure.isNone) = false := by
      rw [failed]
      exact Bool.and_false _
    simp only [clean, incomplete, if_false, Bool.false_eq_true, TwoPhaseWrite.outcome, fresh]
    refine ⟨rfl, _, rfl, ?_⟩
    rw [tally, failed]
    exact .incomplete (by rw [if_neg clean, atItem])

/-- Intent is written with the value that completion will have, unless it would take the data flag
    back. -/
theorem recordMarker_first {key : DelegateKey} (first : sawData = false → ¬ SawData key store) :
    SecretStoreIo.recordMarker store key (.inProgress sawData) =
      let (started, store) := setSecret store (predWipMarker key)
        (SecretStoreIo.markerValue (.done sawData))
      (if started then .ok () else .error (SecretStoreIo.writeFailed (predWipMarker key)), store) := by
  unfold SecretStoreIo.recordMarker
  rw [if_neg]
  · rfl
  · rintro ⟨same, saw⟩
    injection same with same
    exact first same (sawData_iff.mpr saw)

theorem completed_foldl_writePair (progress : TwoPhaseWrite × Store) (secrets : List SecretPair) :
    (secrets.foldl writePair progress).1.completed = progress.1.completed := by
  induction secrets generalizing progress with
  | nil => rfl
  | cons pair rest ih =>
    rw [List.foldl_cons, ih]
    obtain ⟨w, store⟩ := progress
    unfold writePair
    simp only
    split
    · rfl
    · split
      · rfl
      · split <;> rfl

/-- What is left of an import once it is judged: intent, the items, and completion. -/
theorem agrees_beginImport (unsealed : asked.marker ≠ some (.done false))
    (unreserved : ∀ pair ∈ items, isMarker pair.1 = false) (flag : sawData = !items.isEmpty)
    (first : sawData = false → ¬ SawData asked.key store) :
    let written := writeSecretsTwoPhase store (predWipMarker asked.key) (predDoneMarker asked.key)
      (SecretStoreIo.markerValue (.done sawData)) items
    Agrees asked.key asked.generation items written.1.outcome written.2
      ((beginImport policy (.start ()) asked items sawData).ends (storeHandler exports) store) := by
  unfold beginImport writeSecretsTwoPhase
  simp only [ends_bind, recordMarker, ends_request, storeHandler, recordMarker_first first]
  generalize setSecret store (predWipMarker asked.key) (SecretStoreIo.markerValue (.done sawData)) =
    begun
  obtain ⟨started, begun⟩ := begun
  cases started with
  | true =>
    simp only [if_true, unsealed, if_false]
    obtain ⟨same, counts⟩ := counts_offers exports asked begun counts_start items unreserved
    have fresh := completed_foldl_writePair (⟨0, 0, 0, false⟩, begun) items
    have nothing : items = [] →
        (items.foldl writePair ((⟨0, 0, 0, false⟩ : TwoPhaseWrite), begun)).1 = ⟨0, 0, 0, false⟩ := by
      rintro rfl
      rfl
    have agrees := agrees_completeImport policy exports asked
      (items.foldl writePair ((⟨0, 0, 0, false⟩ : TwoPhaseWrite), begun)).2 counts flag nothing fresh
    unfold importItems
    rw [ends_bind]
    simp only [WalkState.start]
    rw [same]
    exact agrees
  | false => exact ⟨rfl, _, rfl, .beginRefused⟩

end Phases

section Judged

variable {policy : SecretSelectionPolicy} {asked : Asked} {store : Store}

theorem flagKnownData_plain (state : WalkState Unit) :
    flagKnownData noObserver policy state asked = askPredecessor noObserver policy state asked := by
  unfold flagKnownData
  split <;> rfl

theorem flagImport_plain (state : WalkState Unit) (items : List SecretPair) (exported : UInt32) :
    flagImport noObserver policy state asked items exported =
      beginImport policy state asked items true := by
  have noFloor : ¬ exported < 0 := UInt32.not_lt_zero
  change (if exported < 0 then pure (state.push (asked.unresponsive (some (exportedFewer exported 0)))
    (policy.unresponsiveTerminates true)) else beginImport policy state asked items true) = _
  rw [if_neg noFloor]

theorem judgeExport_plain (state : WalkState Unit) (secrets : List SecretPair) :
    let items := secrets.filter fun pair => !isMarker pair.1
    judgeExport noObserver policy state asked secrets =
      if (asked.priorSawData && items.isEmpty) = true then
        pure (state.push (asked.unresponsive (some EXPORTED_NOTHING_AFTER_DATA))
          (policy.unresponsiveTerminates asked.priorSawData))
      else beginImport policy state asked items (asked.priorSawData || !items.isEmpty) := by
  have offers : offerable noObserver secrets = secrets.filter fun pair => !isMarker pair.1 := by
    unfold offerable
    simp [noObserver]
  have noFloor : ∀ exported : UInt32, ¬ exported < 0 := fun _ => UInt32.not_lt_zero
  unfold judgeExport
  simp only [offers, show ∀ observed key, noObserver.itemsSeen observed key = 0 from fun _ _ => rfl,
    noFloor, decide_false, Bool.or_false]
  split
  · rename_i refused
    rw [if_pos (Bool.and_eq_true_iff.mp refused).2]
  · split
    · rename_i data
      rw [flagImport_plain, data]
    · rename_i nothing
      rw [Bool.not_eq_true] at nothing
      rw [nothing]

theorem importPredecessorSecretsOnce_eq {predecessor : DelegateKey}
    (incomplete : predecessorAlreadyMigrated store predecessor = false) {prior : Bool}
    (judged : prior = true ↔ SawData predecessor store) (secrets : List SecretPair) :
    let items := secrets.filter fun pair => !isMarker pair.1
    let written := writeSecretsTwoPhase store (predWipMarker predecessor) (predDoneMarker predecessor)
      (SecretStoreIo.markerValue (.done (prior || !items.isEmpty))) items
    importPredecessorSecretsOnce store predecessor secrets =
      if (prior && items.isEmpty) = true then (.incomplete 0 0 0, store)
      else (written.1.outcome, written.2) := by
  have prior : (getSecret store (predWipMarker predecessor)).any (· != PRED_DONE_MARKER_VALUE_EMPTY) =
      prior := by
    rw [Bool.eq_iff_iff, judged, sawData_iff]
  have data : (secrets.any fun pair => !isMarker pair.1) =
      !(secrets.filter fun pair => !isMarker pair.1).isEmpty := by
    rw [Bool.eq_iff_iff]
    simp
  unfold importPredecessorSecretsOnce SecretStoreIo.markerValue
  simp only [incomplete, prior, data, Bool.false_eq_true, if_false, Bool.not_not,
    writeSecretsTwoPhase_filter]
  generalize writeSecretsTwoPhase store (predWipMarker predecessor) (predDoneMarker predecessor) _
    secrets = written
  split
  · rfl
  · unfold TwoPhaseWrite.outcome
    split <;> rfl

theorem agrees_asked (exports : DelegateKey → List SecretPair) (asked : Asked)
    (unsealed : asked.marker ≠ some (.done false))
    (incomplete : predecessorAlreadyMigrated store asked.key = false)
    (judged : asked.priorSawData = true ↔ SawData asked.key store) :
    let imported := importPredecessorSecretsOnce store asked.key (exports asked.key)
    Agrees asked.key asked.generation ((exports asked.key).filter fun pair => !isMarker pair.1)
      imported.1 imported.2
      ((flagKnownData noObserver policy (.start ()) asked).ends (storeHandler exports) store) := by
  have unreserved : ∀ pair ∈ (exports asked.key).filter fun pair => !isMarker pair.1,
      isMarker pair.1 = false := by
    intro pair member
    simpa using (List.mem_filter.mp member).2
  rw [flagKnownData_plain]
  unfold askPredecessor
  simp only [ends_bind, probeVerdict, fetchSecrets, ends_request, storeHandler, judgeExport_plain,
    importPredecessorSecretsOnce_eq incomplete judged]
  generalize (exports asked.key).filter (fun pair => !isMarker pair.1) = items at unreserved ⊢
  by_cases refused : (asked.priorSawData && items.isEmpty) = true
  · have empty := List.isEmpty_iff.mp (Bool.and_eq_true_iff.mp refused).2
    simp only [refused, if_true]
    exact ⟨rfl, _, rfl, .nothingAfterData empty⟩
  · simp only [refused, if_false, Bool.false_eq_true]
    have flag : (asked.priorSawData || !items.isEmpty) = !items.isEmpty := by
      cases prior : asked.priorSawData with
      | false => rfl
      | true =>
        rw [prior, Bool.true_and, Bool.not_eq_true] at refused
        rw [refused]
        rfl
    refine agrees_beginImport unsealed unreserved flag ?_
    intro first saw
    rw [judged.mpr saw] at first
    cases first

theorem reads_cases [ExactSecretStore Store] (store : Store) (key : DelegateKey) (generation : UInt32)
    (unsealed : completedGenerations store = []) :
    let read := SecretStoreIo.migrationMarker store ⟨key, generation, .atOrAboveGeneration⟩
    (predecessorAlreadyMigrated store key = true ∧ ∃ data, read = some (.done data)) ∨
      (predecessorAlreadyMigrated store key = false ∧ SawData key store ∧
        read = some (.inProgress true)) ∨
      (predecessorAlreadyMigrated store key = false ∧ ¬ SawData key store ∧
        (read = none ∨ read = some (.inProgress false))) := by
  have uncovered : legacyGenerationMigrated store generation = false := by
    unfold legacyGenerationMigrated newestCompletedGeneration
    rw [unsealed]
    rfl
  unfold SecretStoreIo.migrationMarker predecessorAlreadyMigrated
  simp only [ExactSecretStore.hasSecret_eq, uncovered, Bool.false_eq_true, if_false]
  by_cases contradicted : emptySealContradicted store key = true
  · have saw : SawData key store := by
      unfold emptySealContradicted at contradicted
      exact sawData_iff.mpr (Bool.and_eq_true_iff.mp contradicted).2
    simp [contradicted, saw]
  · rw [Bool.not_eq_true] at contradicted
    cases done : getSecret store (predDoneMarker key) with
    | some value => simp [contradicted]
    | none =>
      cases wip : getSecret store (predWipMarker key) with
      | none => simp [contradicted, SawData, wip]
      | some value =>
        by_cases empty : value = PRED_DONE_MARKER_VALUE_EMPTY
        · simp [contradicted, SawData, wip, empty]
        · simp [contradicted, SawData, wip, empty]

end Judged

theorem ends_migrate_single {policy : SecretSelectionPolicy} {store : Store} (e : DelegateLineageEntry) :
    (migrateDelegateSecrets [e] policy).ends (storeHandler exports) store =
      let walked := (heedMarker noObserver policy (.start ()) (lineageKey e) e.generation
        (SecretStoreIo.migrationMarker store ⟨lineageKey e, e.generation, policy.legacyBridge⟩)).ends
          (storeHandler exports) store
      (walked.1, walked.2.results) := by
  unfold migrateDelegateSecrets walk
  rw [show newestFirst [e] = [(lineageKey e, e.generation)] from rfl, List.foldlM_cons]
  simp only [ends_bind, List.foldlM_nil, ends_pure]
  rfl

/-- The two-phase import and a walk of its one predecessor, over the same export and from the same
    store, leave the same store and report the same of it. -/
theorem walk_agrees_with_import [ExactSecretStore Store] (e : DelegateLineageEntry)
    (secrets : List SecretPair) {store : Store} (unsealed : completedGenerations store = []) :
    let imported := importPredecessorSecretsOnce store (lineageKey e) secrets
    let walked := (migrateDelegateSecrets [e] .newestSnapshotWins).ends
      (storeHandler fun _ => secrets) store
    walked.1 = imported.2 ∧ ∃ row, walked.2 = [row] ∧
      Corresponds (lineageKey e) e.generation (secrets.filter fun pair => !isMarker pair.1)
        imported.1 row := by
  rw [ends_migrate_single, show SecretSelectionPolicy.newestSnapshotWins.legacyBridge =
    .atOrAboveGeneration from rfl]
  rcases reads_cases store (lineageKey e) e.generation unsealed with
    ⟨complete, data, read⟩ | ⟨incomplete, saw, read⟩ | ⟨incomplete, first, read | read⟩
  · have done : importPredecessorSecretsOnce store (lineageKey e) secrets =
        (.alreadyMigrated, store) := if_pos complete
    rw [read, done]
    cases data with
    | true => exact ⟨rfl, _, rfl, .alreadyMigrated⟩
    | false => exact ⟨rfl, _, rfl, .alreadyMigrated⟩
  · rw [read]
    exact agrees_asked (fun _ => secrets) ⟨lineageKey e, e.generation, some (.inProgress true), true, true⟩
      (by simp) incomplete (by simp [saw])
  · rw [read]
    exact agrees_asked (fun _ => secrets) ⟨lineageKey e, e.generation, none, false, false⟩
      (by simp) incomplete (by simp [first])
  · rw [read]
    exact agrees_asked (fun _ => secrets) ⟨lineageKey e, e.generation, some (.inProgress false), true, false⟩
      (by simp) incomplete (by simp [first])

def contradictedStore : MemStore := ⟨sealedOver.data, [[2]]⟩

theorem walk_agrees_with_import_contradicted :
    let secrets : List SecretPair := [([1], [3]), (predDoneMarker (lineageKey (sampleEntry 1)), [4]),
      ([1], [5]), ([2], [6])]
    let imported := importPredecessorSecretsOnce contradictedStore (lineageKey (sampleEntry 1)) secrets
    ((migrateDelegateSecrets [sampleEntry 1] .newestSnapshotWins).ends
      (storeHandler fun _ => secrets) contradictedStore).1 = imported.2 ∧
        imported.1 = .incomplete 1 1 1 := by
  have facts := walk_agrees_with_import (sampleEntry 1)
    [([1], [3]), (predDoneMarker (lineageKey (sampleEntry 1)), [4]), ([1], [5]), ([2], [6])]
    (show completedGenerations contradictedStore = [] by decide +kernel)
  exact ⟨facts.1, by decide +kernel⟩

end FreenetMigrate.Migrate
