import FreenetMigrate.Import.History

namespace FreenetMigrate.Migrate

open SecretStore

def HOST_ENUMERATION_CAP : Nat := 4096

/-- The host's secret store: a key is looked up exactly, a listing is of at most the capped number of
    the scope's keys, and the cap comes before the prefix filter. -/
class HostSecretStore (Store : Type) [SecretStore Store] : Prop extends ExactSecretStore Store where
  length_listSecrets (store : Store) : (listSecrets store []).length ≤ HOST_ENUMERATION_CAP
  held_of_listed (store : Store) (key : Bytes) (listed : key ∈ listSecrets store []) :
    (getSecret store key).isSome
  listed_of_held (store : Store) (key : Bytes)
    (short : (listSecrets store []).length < HOST_ENUMERATION_CAP)
    (held : (getSecret store key).isSome) : key ∈ listSecrets store []
  listSecrets_eq (store : Store) (start : Bytes) :
    listSecrets store start = (listSecrets store []).filter fun key => start.isPrefixOf key

instance instSoundHostStore {Store : Type} [SecretStore Store] [HostSecretStore Store] :
    SoundSecretStore Store where
  held_of_listed store start key listed := by
    rw [HostSecretStore.listSecrets_eq, List.mem_filter, List.isPrefixOf_iff_prefix] at listed
    exact ⟨listed.2, HostSecretStore.held_of_listed store key listed.1⟩

/-- One scope of the host, with its keys in the order in which they were registered. -/
structure HostScope where
  registered : List Bytes
  values : Bytes → Option Bytes
  registers : ∀ key, key ∈ registered ↔ (values key).isSome = true

namespace HostScope

def empty : HostScope := ⟨[], fun _ => none, by simp⟩

def holding (keys : List Bytes) : HostScope where
  registered := keys
  values key := if key ∈ keys then some [] else none
  registers key := by by_cases held : key ∈ keys <;> simp [held]

def set (scope : HostScope) (key value : Bytes) : HostScope where
  registered := if (scope.values key).isSome then scope.registered else scope.registered ++ [key]
  values other := if other = key then some value else scope.values other
  registers other := by
    have registers := scope.registers other
    split
    · rename_i held
      rw [registers]
      by_cases same : other = key
      · subst same
        simp [held]
      · rw [if_neg same]
    · rw [List.mem_append, List.mem_singleton, registers]
      by_cases same : other = key <;> simp [same]

instance : SecretStore HostScope where
  listSecrets scope start :=
    (scope.registered.take HOST_ENUMERATION_CAP).filter fun key => start.isPrefixOf key
  getSecret scope key := scope.values key
  hasSecret scope key := (scope.values key).isSome
  setSecret scope key value := (true, scope.set key value)

theorem getSecret_holding (keys : List Bytes) (key : Bytes) :
    getSecret (holding keys) key = if key ∈ keys then some [] else none := rfl

@[simp] theorem getSecret_set (scope : HostScope) (key value other : Bytes) :
    getSecret (scope.set key value) other = if other = key then some value else getSecret scope other :=
  rfl

@[simp] theorem setSecret_eq (scope : HostScope) (key value : Bytes) :
    setSecret scope key value = (true, scope.set key value) := rfl

theorem listSecrets_nil (scope : HostScope) :
    listSecrets scope [] = scope.registered.take HOST_ENUMERATION_CAP :=
  List.filter_eq_self.mpr fun _ _ => rfl

instance : HostSecretStore HostScope where
  hasSecret_eq _ _ := rfl
  getSecret_other _ _ _ _ differs := if_neg differs
  getSecret_set _ _ _ _ := if_pos rfl
  getSecret_refused _ _ _ refused := by cases refused
  length_listSecrets scope := by
    rw [listSecrets_nil]
    exact List.length_take_le _ _
  held_of_listed scope key listed := by
    rw [listSecrets_nil] at listed
    exact (scope.registers key).mp (List.mem_of_mem_take listed)
  listed_of_held scope key short held := by
    rw [listSecrets_nil, List.length_take] at short
    rw [listSecrets_nil, List.take_of_length_le (by omega)]
    exact (scope.registers key).mpr held
  listSecrets_eq scope start := by
    rw [listSecrets_nil]
    rfl

end HostScope

def MarksNewer (generation : UInt32) (key : Bytes) : Prop :=
  DONE_PREFIX <+: key ∧
    ∃ newer, parseU32 (key.drop DONE_PREFIX.length) = some newer ∧ generation < newer

/-- Where a newer generation's marker is stored, the keys that the host enumerates hold one. -/
def EnumeratesNewer {Store : Type} [SecretStore Store] (store : Store) (generation : UInt32) : Prop :=
  (∃ newer, generation < newer ∧ (getSecret store (doneMarker newer)).isSome) →
    ∃ key ∈ listSecrets store [], MarksNewer generation key

theorem marksNewer_doneMarker {generation newer : UInt32} (above : generation < newer) :
    MarksNewer generation (doneMarker newer) := by
  refine ⟨List.prefix_append .., newer, ?_, above⟩
  unfold doneMarker
  rw [List.drop_left]
  exact parseU32_decimal newer

section Guard

variable {Store : Type} [SecretStore Store] [HostSecretStore Store] {start store : Store}
  {generation : UInt32}

theorem newestCompletedGeneration_above :
    ((newestCompletedGeneration store).filter fun newest => decide (generation < newest)).isSome = true ↔
      ∃ key ∈ listSecrets store [], MarksNewer generation key := by
  have among : ∀ newer, newer ∈ completedGenerations store ↔ ∃ key ∈ listSecrets store [],
      DONE_PREFIX <+: key ∧ parseU32 (key.drop DONE_PREFIX.length) = some newer := by
    intro newer
    unfold completedGenerations
    rw [HostSecretStore.listSecrets_eq store DONE_PREFIX]
    simp only [List.mem_filterMap, List.mem_filter, List.isPrefixOf_iff_prefix]
    constructor
    · rintro ⟨key, ⟨listed, starts⟩, parsed⟩
      rw [if_pos starts] at parsed
      exact ⟨key, listed, starts, parsed⟩
    · rintro ⟨key, listed, starts, parsed⟩
      exact ⟨key, ⟨listed, starts⟩, by rw [if_pos starts]; exact parsed⟩
  unfold newestCompletedGeneration
  constructor
  · intro above
    obtain ⟨newest, found⟩ := Option.isSome_iff_exists.mp above
    rw [Option.filter_eq_some_iff, decide_eq_true_eq] at found
    obtain ⟨key, listed, starts, parsed⟩ := (among newest).mp (List.max?_mem found.1)
    exact ⟨key, listed, starts, newest, parsed, found.2⟩
  · rintro ⟨key, listed, starts, newer, parsed, above⟩
    have member := (among newer).mpr ⟨key, listed, starts, parsed⟩
    cases found : (completedGenerations store).max? with
    | none =>
      rw [List.max?_eq_none_iff.mp found] at member
      cases member
    | some newest =>
      have greatest := (List.max?_eq_some_iff.mp found).2 newer member
      have bound : generation < newest := lt_of_lt_of_le above greatest
      rw [Option.filter_some, if_pos (decide_eq_true bound)]
      rfl

theorem enumeratesNewer_of_short
    (short : (listSecrets store []).length < HOST_ENUMERATION_CAP) :
    EnumeratesNewer store generation := by
  rintro ⟨newer, above, held⟩
  exact ⟨doneMarker newer, HostSecretStore.listed_of_held store _ short held,
    marksNewer_doneMarker above⟩

/-- An import that is refused whatever came before it: its own generation is completed or is none of
    this successor's, or the enumeration holds a newer marker if one is stored. -/
def Barred (store : Store) (generation successorGeneration : UInt32) : Prop :=
  (getSecret store (doneMarker generation)).isSome ∨ successorGeneration ≤ generation ∨
    EnumeratesNewer store generation

/-- In every history an import below a completed generation is refused and leaves the store as it is,
    as long as it is barred. -/
theorem older_import_refused {exported : ExportedSecrets} {successorGeneration : UInt32}
    (history : ImportHistory start store) (done : (getSecret start (doneMarker generation)).isSome)
    (older : exported.sourceGeneration < generation)
    (barred : Barred store exported.sourceGeneration successorGeneration) :
    ((∃ attempted newest, (importSecretsOnce store exported successorGeneration).1 =
        .ok (.staleGeneration attempted newest)) ∨
      (∃ migrated, (importSecretsOnce store exported successorGeneration).1 =
        .ok (.alreadyMigrated migrated)) ∨
      ∃ error, (importSecretsOnce store exported successorGeneration).1 = .error error) ∧
    (importSecretsOnce store exported successorGeneration).2 = store := by
  unfold importSecretsOnce
  simp only
  split
  · exact ⟨.inr (.inr ⟨_, rfl⟩), rfl⟩
  · rename_i below
    split
    · exact ⟨.inr (.inl ⟨_, rfl⟩), rfl⟩
    · rename_i open'
      rw [ExactSecretStore.hasSecret_eq] at open'
      have enumerates : EnumeratesNewer store exported.sourceGeneration := by
        rcases barred with own | late | enumerates
        · exact absurd own open'
        · exact absurd late below
        · exact enumerates
      have above := newestCompletedGeneration_above.mpr (enumerates ⟨generation, older, history.done done⟩)
      split
      · exact ⟨.inl ⟨_, _, rfl⟩, rfl⟩
      · rename_i unseen
        rw [unseen] at above
        cases above

end Guard

def completedScope : HostScope := (importSecretsOnce HostScope.empty ⟨2, [([1], [20])]⟩ 3).2

theorem older_import_refused_short :
    (importSecretsOnce completedScope ⟨1, [([2], [10])]⟩ 3).2 = completedScope := by
  have done : (getSecret completedScope (doneMarker 2)).isSome = true := by decide +kernel
  have short : (listSecrets completedScope []).length < HOST_ENUMERATION_CAP := by decide +kernel
  exact (older_import_refused (Relation.ReflTransGen.refl) done (by decide)
    (.inr (.inr (enumeratesNewer_of_short short)))).2

section FullScope

variable {apps : List Bytes} {scope : HostScope} {older newer successorGeneration : UInt32}

def RegisteredFirst (apps : List Bytes) (scope : HostScope) : Prop := apps <+: scope.registered

theorem RegisteredFirst.set (first : RegisteredFirst apps scope) (key value : Bytes) :
    RegisteredFirst apps (scope.set key value) := by
  unfold RegisteredFirst HostScope.set
  simp only
  split
  · exact first
  · exact first.trans (List.prefix_append _ _)

/-- Behind as many of the app's keys as the host enumerates no completion marker is seen. -/
theorem RegisteredFirst.unseen (first : RegisteredFirst apps scope)
    (many : apps.length = HOST_ENUMERATION_CAP) (plain : ∀ key ∈ apps, isMarker key = false) :
    newestCompletedGeneration scope = none := by
  have enumerated : listSecrets scope [] = apps := by
    obtain ⟨rest, registered⟩ := first
    rw [HostScope.listSecrets_nil, ← registered, ← many, List.take_left]
  have unlisted : listSecrets scope DONE_PREFIX = [] := by
    rw [HostSecretStore.listSecrets_eq, enumerated, List.filter_eq_nil_iff]
    intro key app starts
    have reserved := isMarker_of_done (List.isPrefixOf_iff_prefix.mp starts)
    rw [plain key app] at reserved
    cases reserved
  unfold newestCompletedGeneration completedGenerations
  rw [unlisted]
  rfl

theorem importSecretsOnce_unseen {secrets : List SecretPair}
    (unseen : newestCompletedGeneration scope = none) (below : older < successorGeneration)
    (fresh : getSecret scope (doneMarker older) = none) :
    importSecretsOnce scope ⟨older, secrets⟩ successorGeneration =
      let w := writeSecretsTwoPhase scope (wipMarker older) (doneMarker older) (ascii "1") secrets
      if w.1.completed then (.ok (.imported older w.1.imported w.1.skipped), w.2)
      else (.error (.partialImport older w.1.imported w.1.skipped w.1.failed), w.2) := by
  have absent : hasSecret scope (doneMarker older) = false := by
    rw [ExactSecretStore.hasSecret_eq, fresh]
    rfl
  unfold importSecretsOnce
  simp only
  rw [if_neg (not_le.mpr below), absent, unseen]
  rfl

theorem writeSecretsTwoPhase_single {wipMarker doneMarker markerValue key value : Bytes}
    (own : isMarker key = false) (apart : key ≠ wipMarker) (free : getSecret scope key = none) :
    writeSecretsTwoPhase scope wipMarker doneMarker markerValue [(key, value)] =
      (⟨1, 0, 0, true⟩, ((scope.set wipMarker markerValue).set key value).set doneMarker markerValue) := by
  have begun : hasSecret (scope.set wipMarker markerValue) key = false := by
    rw [ExactSecretStore.hasSecret_eq, HostScope.getSecret_set, if_neg apart, free]
    rfl
  simp [writeSecretsTwoPhase, writePair, own, begun]

/-- In a scope that holds as many of the app's keys as the host enumerates, a newer generation is
    imported and marked complete, and an older export then writes a key that it had deleted. -/
theorem older_export_imported (many : apps.length = HOST_ENUMERATION_CAP)
    (plain : ∀ key ∈ apps, isMarker key = false) (above : older < newer)
    (below : newer < successorGeneration) {key value : Bytes} (own : isMarker key = false)
    (free : key ∉ apps) :
    ∃ completed : HostScope,
      importSecretsOnce (.holding apps) ⟨newer, []⟩ successorGeneration =
        (.ok (.imported newer 0 0), completed) ∧
      (getSecret completed (doneMarker newer)).isSome ∧ getSecret completed key = none ∧
      (importSecretsOnce completed ⟨older, [(key, value)]⟩ successorGeneration).1 =
        .ok (.imported older 1 0) ∧
      getSecret (importSecretsOnce completed ⟨older, [(key, value)]⟩ successorGeneration).2 key =
        some value := by
  have first : RegisteredFirst apps (HostScope.holding apps) := by
    unfold RegisteredFirst HostScope.holding
    exact List.prefix_rfl
  have unheld : ∀ {marker}, isMarker marker = true → getSecret (HostScope.holding apps) marker = none := by
    intro marker reserved
    rw [HostScope.getSecret_holding, if_neg]
    intro app
    rw [plain marker app] at reserved
    cases reserved
  have apart : ∀ {marker}, isMarker marker = true → key ≠ marker := by
    rintro marker reserved rfl
    rw [own] at reserved
    cases reserved
  have markers : doneMarker older ≠ doneMarker newer := fun same =>
    above.ne (doneMarker_eq_iff.mp same)
  let completed := ((HostScope.holding apps).set (wipMarker newer) (ascii "1")).set
    (doneMarker newer) (ascii "1")
  have missing : getSecret completed key = none := by
    rw [HostScope.getSecret_set, if_neg (apart (isMarker_doneMarker newer)), HostScope.getSecret_set,
      if_neg (apart (isMarker_wipMarker newer)), HostScope.getSecret_holding, if_neg free]
  have fresh : getSecret completed (doneMarker older) = none := by
    rw [HostScope.getSecret_set, if_neg markers, HostScope.getSecret_set,
      if_neg (wipMarker_ne_doneMarker _ _).symm, unheld (isMarker_doneMarker older)]
  have replayed : importSecretsOnce completed ⟨older, [(key, value)]⟩ successorGeneration =
      (.ok (.imported older 1 0), ((completed.set (wipMarker older) (ascii "1")).set key value).set
        (doneMarker older) (ascii "1")) := by
    rw [importSecretsOnce_unseen (((first.set _ _).set _ _).unseen many plain)
      (above.trans below) fresh,
      writeSecretsTwoPhase_single own (apart (isMarker_wipMarker older)) missing]
    rfl
  refine ⟨completed, ?_, ?_, missing, ?_, ?_⟩
  · rw [importSecretsOnce_unseen (first.unseen many plain) below
      (unheld (isMarker_doneMarker newer))]
    rfl
  · rw [HostScope.getSecret_set, if_pos rfl]
    rfl
  · rw [replayed]
  · rw [replayed, HostScope.getSecret_set, if_neg (apart (isMarker_doneMarker older)),
      HostScope.getSecret_set, if_pos rfl]

def appKeys : List Bytes := (List.range HOST_ENUMERATION_CAP).map fun n => ascii "app/" ++ decimal n

theorem length_appKeys : appKeys.length = HOST_ENUMERATION_CAP := by
  rw [appKeys, List.length_map, List.length_range]

theorem not_isMarker_appKeys : ∀ key ∈ appKeys, isMarker key = false := by
  intro key app
  obtain ⟨n, -, rfl⟩ := List.mem_map.mp app
  rfl

theorem not_mem_appKeys : [1] ∉ appKeys := by
  intro app
  obtain ⟨n, -, same⟩ := List.mem_map.mp app
  cases congrArg List.head? same

/-- Generation 2 no longer has the key `[1]`, which the older export brings back. -/
theorem older_export_rolls_back :
    ∃ completed : HostScope,
      importSecretsOnce (.holding appKeys) ⟨2, []⟩ 3 = (.ok (.imported 2 0 0), completed) ∧
      (getSecret completed (doneMarker 2)).isSome ∧ getSecret completed [1] = none ∧
      (importSecretsOnce completed ⟨1, [([1], [10])]⟩ 3).1 = .ok (.imported 1 1 0) ∧
      getSecret (importSecretsOnce completed ⟨1, [([1], [10])]⟩ 3).2 [1] = some [10] :=
  older_export_imported length_appKeys not_isMarker_appKeys (by decide) (by decide) (by decide)
    not_mem_appKeys

end FullScope

end FreenetMigrate.Migrate
