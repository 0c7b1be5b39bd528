import FreenetMigrate.Import.Markers

namespace FreenetMigrate.Migrate

open SecretStore

structure ExportedSecrets where
  sourceGeneration : UInt32
  secrets : List SecretPair

inductive ImportOutcome
  | imported (generation : UInt32) (imported skipped : Nat)
  | alreadyMigrated (generation : UInt32)
  | staleGeneration (attempted newestCompleted : UInt32)
  deriving DecidableEq

inductive MigrateError
  | implausibleGeneration (source ceiling : UInt32)
  | partialImport (generation : UInt32) (imported skipped failed : Nat)
  deriving DecidableEq

inductive PredecessorImportOutcome
  | imported (imported skipped : Nat)
  | alreadyMigrated
  | incomplete (imported skipped failed : Nat)
  deriving DecidableEq

structure TwoPhaseWrite where
  imported : Nat
  skipped : Nat
  failed : Nat
  completed : Bool

section Model

variable {Store : Type} [SecretStore Store]

/-- One pair of the payload: never a marker, never over a key that is held. -/
def writePair (progress : TwoPhaseWrite × Store) (pair : SecretPair) : TwoPhaseWrite × Store :=
  let (w, store) := progress
  if isMarker pair.1 then (w, store)
  else if hasSecret store pair.1 then ({ w with skipped := w.skipped + 1 }, store)
  else
    let (ok, store) := setSecret store pair.1 pair.2
    if ok then ({ w with imported := w.imported + 1 }, store)
    else ({ w with failed := w.failed + 1 }, store)

/-- Intent first, then every pair, and the completion marker only if every write succeeded. -/
def writeSecretsTwoPhase (store : Store) (wipMarker doneMarker markerValue : Bytes)
    (secrets : List SecretPair) : TwoPhaseWrite × Store :=
  let (started, store) := setSecret store wipMarker markerValue
  if started then
    let (w, store) := secrets.foldl writePair (⟨0, 0, 0, false⟩, store)
    if w.failed = 0 then
      let (completed, store) := setSecret store doneMarker markerValue
      ({ w with completed }, store)
    else (w, store)
  else (⟨0, 0, 0, false⟩, store)

def importSecretsOnce (store : Store) (exported : ExportedSecrets) (successorGeneration : UInt32) :
    Except MigrateError ImportOutcome × Store :=
  let generation := exported.sourceGeneration
  if successorGeneration ≤ generation then
    (.error (.implausibleGeneration generation successorGeneration), store)
  else if hasSecret store (doneMarker generation) then (.ok (.alreadyMigrated generation), store)
  else match (newestCompletedGeneration store).filter fun newest => decide (generation < newest) with
    | some newest => (.ok (.staleGeneration generation newest), store)
    | none =>
      let (w, store) := writeSecretsTwoPhase store (wipMarker generation) (doneMarker generation)
        (ascii "1") exported.secrets
      if w.completed then (.ok (.imported generation w.imported w.skipped), store)
      else (.error (.partialImport generation w.imported w.skipped w.failed), store)

def predecessorAlreadyMigrated (store : Store) (predecessor : DelegateKey) : Bool :=
  hasSecret store (predDoneMarker predecessor) && !emptySealContradicted store predecessor

def predecessorMigrationHadData (store : Store) (predecessor : DelegateKey) : Option Bool :=
  if emptySealContradicted store predecessor then none
  else (getSecret store (predDoneMarker predecessor)).map (· != PRED_DONE_MARKER_VALUE_EMPTY)

/-- The import keyed by the predecessor's delegate key. The data flag of an earlier attempt sticks. -/
def importPredecessorSecretsOnce (store : Store) (predecessor : DelegateKey)
    (secrets : List SecretPair) : PredecessorImportOutcome × Store :=
  if predecessorAlreadyMigrated store predecessor then (.alreadyMigrated, store)
  else
    let currentHadData := secrets.any fun pair => !isMarker pair.1
    let priorSawData :=
      (getSecret store (predWipMarker predecessor)).any (· != PRED_DONE_MARKER_VALUE_EMPTY)
    -- An empty export after data was seen is a fault: it is not sealed.
    if priorSawData && !currentHadData then (.incomplete 0 0 0, store)
    else
      let markerValue := if priorSawData || currentHadData then PRED_DONE_MARKER_VALUE_DATA
        else PRED_DONE_MARKER_VALUE_EMPTY
      let (w, store) := writeSecretsTwoPhase store (predWipMarker predecessor)
        (predDoneMarker predecessor) markerValue secrets
      if w.completed then (.imported w.imported w.skipped, store)
      else (.incomplete w.imported w.skipped w.failed, store)

end Model

section Writes

variable {Store : Type} [SecretStore Store] [ExactSecretStore Store] {store final : Store}
  {key value : Bytes} {secrets : List SecretPair}

theorem getSecret_setSecret_cases (store : Store) (key value : Bytes) :
    getSecret (setSecret store key value).2 key = some value ∨
      ((setSecret store key value).1 = false ∧
        getSecret (setSecret store key value).2 key = getSecret store key) := by
  cases answer : (setSecret store key value).1 with
  | true => exact .inl (ExactSecretStore.getSecret_set store key value answer)
  | false =>
    rcases ExactSecretStore.getSecret_refused store key value answer with same | landed
    · exact .inr ⟨rfl, same⟩
    · exact .inl landed

theorem writePair_cases (progress : TwoPhaseWrite × Store) (pair : SecretPair) :
    ((writePair progress pair).2 = progress.2 ∧ (writePair progress pair).1.failed = progress.1.failed ∧
        (isMarker pair.1 = true ∨ (getSecret progress.2 pair.1).isSome = true)) ∨
      (isMarker pair.1 = false ∧ getSecret progress.2 pair.1 = none ∧
        (writePair progress pair).2 = (setSecret progress.2 pair.1 pair.2).2 ∧
        (writePair progress pair).1.failed =
          if (setSecret progress.2 pair.1 pair.2).1 then progress.1.failed
          else progress.1.failed + 1) := by
  obtain ⟨w, store⟩ := progress
  unfold writePair
  simp only
  split
  · rename_i reserved
    exact .inl ⟨rfl, rfl, .inl reserved⟩
  · rename_i unreserved
    split
    · rename_i held
      rw [ExactSecretStore.hasSecret_eq] at held
      exact .inl ⟨rfl, rfl, .inr held⟩
    · rename_i free
      rw [ExactSecretStore.hasSecret_eq, Bool.not_eq_true, Option.isSome_eq_false_iff,
        Option.isNone_iff_eq_none] at free
      refine .inr ⟨Bool.not_eq_true _ ▸ unreserved, free, ?_⟩
      split <;> exact ⟨rfl, rfl⟩

structure Fills (store final : Store) : Prop where
  held : ∀ key value, getSecret store key = some value → getSecret final key = some value
  reserved : ∀ key, isMarker key = true → getSecret final key = getSecret store key

omit [ExactSecretStore Store] in
theorem Fills.refl (store : Store) : Fills store store := ⟨fun _ _ => id, fun _ _ => rfl⟩

omit [ExactSecretStore Store] in
theorem Fills.trans {middle : Store} (first : Fills store middle) (second : Fills middle final) :
    Fills store final :=
  ⟨fun key value held => second.held key value (first.held key value held),
    fun key reserved => (second.reserved key reserved).trans (first.reserved key reserved)⟩

theorem fills_setSecret (unreserved : isMarker key = false) (free : getSecret store key = none) :
    Fills store (setSecret store key value).2 := by
  constructor
  · intro other value' held
    have differs : other ≠ key := by
      rintro rfl
      rw [free] at held
      cases held
    rw [ExactSecretStore.getSecret_other _ _ _ _ differs]
    exact held
  · intro other reserved
    have differs : other ≠ key := by
      rintro rfl
      rw [unreserved] at reserved
      cases reserved
    exact ExactSecretStore.getSecret_other _ _ _ _ differs

theorem fills_writePair (progress : TwoPhaseWrite × Store) (pair : SecretPair) :
    Fills progress.2 (writePair progress pair).2 := by
  rcases writePair_cases progress pair with ⟨same, -⟩ | ⟨unreserved, free, same, -⟩
  · rw [same]
    exact .refl _
  · rw [same]
    exact fills_setSecret unreserved free

theorem fills_foldl_writePair (progress : TwoPhaseWrite × Store) (secrets : List SecretPair) :
    Fills progress.2 (secrets.foldl writePair progress).2 := by
  induction secrets generalizing progress with
  | nil => exact .refl _
  | cons pair rest ih => exact (fills_writePair progress pair).trans (ih _)

theorem failed_le_foldl_writePair (progress : TwoPhaseWrite × Store) (secrets : List SecretPair) :
    progress.1.failed ≤ (secrets.foldl writePair progress).1.failed := by
  induction secrets generalizing progress with
  | nil => exact le_rfl
  | cons pair rest ih =>
    refine le_trans ?_ (ih _)
    rcases writePair_cases progress pair with ⟨-, same, -⟩ | ⟨-, -, -, counted⟩
    · rw [same]
    · rw [counted]
      split
      · exact le_rfl
      · exact Nat.le_succ _

theorem held_of_foldl_writePair (progress : TwoPhaseWrite × Store) (secrets : List SecretPair)
    (clean : (secrets.foldl writePair progress).1.failed = 0) :
    ∀ pair ∈ secrets, isMarker pair.1 = false →
      (getSecret (secrets.foldl writePair progress).2 pair.1).isSome = true := by
  induction secrets generalizing progress with
  | nil => exact fun _ absent => nomatch absent
  | cons pair rest ih =>
    have clean' : (rest.foldl writePair (writePair progress pair)).1.failed = 0 := clean
    intro other member unreserved
    rcases List.mem_cons.mp member with rfl | later
    · have bound := failed_le_foldl_writePair (writePair progress other) rest
      rw [clean'] at bound
      have held : (getSecret (writePair progress other).2 other.1).isSome = true := by
        rcases writePair_cases progress other with ⟨same, -, reserved | held⟩ | ⟨-, -, same, counted⟩
        · rw [unreserved] at reserved
          cases reserved
        · rw [same]
          exact held
        · rw [counted] at bound
          split at bound
          · rename_i stored
            rw [same, ExactSecretStore.getSecret_set _ _ _ stored]
            rfl
          · exact absurd bound (Nat.not_succ_le_zero _)
      obtain ⟨value, held⟩ := Option.isSome_iff_exists.mp held
      have kept := (fills_foldl_writePair (writePair progress other) rest).held _ _ held
      rw [List.foldl_cons, kept]
      rfl
    · exact ih _ clean' other later unreserved

omit [ExactSecretStore Store] in
theorem foldl_writePair_filter (progress : TwoPhaseWrite × Store) (secrets : List SecretPair) :
    (secrets.filter fun pair => !isMarker pair.1).foldl writePair progress =
      secrets.foldl writePair progress := by
  induction secrets generalizing progress with
  | nil => rfl
  | cons pair rest ih =>
    rw [List.foldl_cons, List.filter_cons]
    split
    · exact ih _
    · rename_i reserved
      have same : writePair progress pair = progress := by
        obtain ⟨w, store⟩ := progress
        exact if_pos (by simpa using reserved)
      rw [same]
      exact ih _

omit [ExactSecretStore Store] in
theorem writeSecretsTwoPhase_filter (wipMarker doneMarker markerValue : Bytes) :
    writeSecretsTwoPhase store wipMarker doneMarker markerValue
        (secrets.filter fun pair => !isMarker pair.1) =
      writeSecretsTwoPhase store wipMarker doneMarker markerValue secrets := by
  unfold writeSecretsTwoPhase
  simp only [foldl_writePair_filter]

/-- What a two-phase import leaves: everything held outside its two markers, which hold what they
    did or the marker's value, and the completion marker only once every key is held. -/
structure Imports (wipMarker doneMarker markerValue : Bytes) (secrets : List SecretPair)
    (store final : Store) : Prop where
  held : ∀ key value, isMarker key = false → getSecret store key = some value →
    getSecret final key = some value
  reserved : ∀ key, isMarker key = true → key ≠ wipMarker → key ≠ doneMarker →
    getSecret final key = getSecret store key
  wip : getSecret final wipMarker = getSecret store wipMarker ∨
    getSecret final wipMarker = some markerValue
  done : getSecret final doneMarker = getSecret store doneMarker ∨
    (getSecret final doneMarker = some markerValue ∧
      getSecret final wipMarker = some markerValue ∧
      ∀ pair ∈ secrets, isMarker pair.1 = false → (getSecret final pair.1).isSome = true)

omit [ExactSecretStore Store] in
theorem Imports.refl {wipMarker doneMarker markerValue : Bytes} (store : Store) :
    Imports wipMarker doneMarker markerValue secrets store store :=
  ⟨fun _ _ _ held => held, fun _ _ _ _ => rfl, .inl rfl, .inl rfl⟩

theorem imports_writeSecretsTwoPhase {wipMarker doneMarker markerValue : Bytes}
    (wipReserved : isMarker wipMarker = true) (doneReserved : isMarker doneMarker = true)
    (apart : wipMarker ≠ doneMarker) (store : Store) (secrets : List SecretPair) :
    Imports wipMarker doneMarker markerValue secrets store
      (writeSecretsTwoPhase store wipMarker doneMarker markerValue secrets).2 := by
  have unreserved : ∀ {key marker : Bytes}, isMarker key = false → isMarker marker = true →
      key ≠ marker := by
    rintro key marker free taken rfl
    rw [free] at taken
    cases taken
  -- Each marker is written under its own key.
  have begun : ∀ key, key ≠ wipMarker →
      getSecret (setSecret store wipMarker markerValue).2 key = getSecret store key :=
    fun key differs => ExactSecretStore.getSecret_other _ _ _ _ differs
  unfold writeSecretsTwoPhase
  simp only
  split
  · rename_i started
    have wip := ExactSecretStore.getSecret_set _ _ _ started
    have fills := fills_foldl_writePair
      ((⟨0, 0, 0, false⟩ : TwoPhaseWrite), (setSecret store wipMarker markerValue).2) secrets
    have wipFilled := fills.held _ _ wip
    have doneFilled := (fills.reserved _ doneReserved).trans (begun _ apart.symm)
    split
    · rename_i clean
      have keys := held_of_foldl_writePair _ secrets clean
      generalize (secrets.foldl writePair
        ((⟨0, 0, 0, false⟩ : TwoPhaseWrite), (setSecret store wipMarker markerValue).2)).2 = filled
        at *
      have ended : ∀ key, key ≠ doneMarker →
          getSecret (setSecret filled doneMarker markerValue).2 key = getSecret filled key :=
        fun key differs => ExactSecretStore.getSecret_other _ _ _ _ differs
      refine ⟨?_, ?_, ?_, ?_⟩
      · intro key value free held
        rw [ended key (unreserved free doneReserved)]
        exact fills.held _ _ ((begun key (unreserved free wipReserved)).trans held)
      · intro key reserved notWip notDone
        rw [ended key notDone, fills.reserved key reserved, begun key notWip]
      · rw [ended _ apart]
        exact .inr wipFilled
      · rcases getSecret_setSecret_cases filled doneMarker markerValue with now | ⟨-, before⟩
        · refine .inr ⟨now, (ended _ apart).trans wipFilled, ?_⟩
          intro pair member free
          rw [ended _ (unreserved free doneReserved)]
          exact keys pair member free
        · exact .inl (before.trans doneFilled)
    · refine ⟨?_, ?_, .inr wipFilled, .inl doneFilled⟩
      · intro key value free held
        exact fills.held _ _ ((begun key (unreserved free wipReserved)).trans held)
      · intro key reserved notWip notDone
        rw [fills.reserved key reserved, begun key notWip]
  · refine ⟨?_, ?_, ?_, .inl (begun _ apart.symm)⟩
    · intro key value free held
      exact (begun key (unreserved free wipReserved)).trans held
    · exact fun key reserved notWip notDone => begun key notWip
    · rcases getSecret_setSecret_cases store wipMarker markerValue with now | ⟨-, before⟩
      · exact .inr now
      · exact .inl before

end Writes

end FreenetMigrate.Migrate
