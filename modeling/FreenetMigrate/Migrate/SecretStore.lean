import FreenetMigrate.Migrate.Interface
import Mathlib.Data.List.MinMax

namespace FreenetMigrate.Migrate

open Calls

class SecretStore (Store : Type) where
  listSecrets : Store → Bytes → List Bytes
  getSecret : Store → Bytes → Option Bytes
  hasSecret : Store → Bytes → Bool
  setSecret : Store → Bytes → Bytes → Bool × Store

open SecretStore

/-- What a store does that looks a key up exactly, however it enumerates. A refused write may still have
    landed. -/
class ExactSecretStore (Store : Type) [SecretStore Store] : Prop where
  hasSecret_eq (store : Store) (key : Bytes) : hasSecret store key = (getSecret store key).isSome
  getSecret_other (store : Store) (key value other : Bytes) (differs : other ≠ key) :
    getSecret (setSecret store key value).2 other = getSecret store other
  getSecret_set (store : Store) (key value : Bytes) (stored : (setSecret store key value).1 = true) :
    getSecret (setSecret store key value).2 key = some value
  getSecret_refused (store : Store) (key value : Bytes)
    (refused : (setSecret store key value).1 = false) :
    getSecret (setSecret store key value).2 key = getSecret store key ∨
      getSecret (setSecret store key value).2 key = some value

/-- A store that looks keys up exactly and lists only what it holds, though perhaps not all of it. -/
class SoundSecretStore (Store : Type) [SecretStore Store] : Prop extends ExactSecretStore Store where
  held_of_listed (store : Store) (start key : Bytes) (listed : key ∈ listSecrets store start) :
    start <+: key ∧ (getSecret store key).isSome

/-- The documented behaviour of a secret store: a listing is of all that is held. -/
class LawfulSecretStore (Store : Type) [SecretStore Store] : Prop extends SoundSecretStore Store where
  listed_of_held (store : Store) (start key : Bytes) (starts : start <+: key)
    (held : (getSecret store key).isSome) : key ∈ listSecrets store start

def WIP_PREFIX : Bytes := 0 :: ascii "freenet-migrate/wip:"
def DONE_PREFIX : Bytes := 0 :: ascii "freenet-migrate/done:"
def PRED_WIP_PREFIX : Bytes := 0 :: ascii "freenet-migrate/v1/pred-wip:"
def PRED_DONE_MARKER_KEY_PREFIX : Bytes := 0 :: ascii "freenet-migrate/v1/pred-done:"
def PRED_DONE_MARKER_VALUE_DATA : Bytes := ascii "1"
def PRED_DONE_MARKER_VALUE_EMPTY : Bytes := ascii "0"

def predWipMarker (predecessor : DelegateKey) : Bytes := PRED_WIP_PREFIX ++ predecessor.bytes.toList

def predDoneMarker (predecessor : DelegateKey) : Bytes :=
  PRED_DONE_MARKER_KEY_PREFIX ++ predecessor.bytes.toList

def doneMarker (generation : UInt32) : Bytes :=
  DONE_PREFIX ++ ascii (toString generation.toNat)

def digitsValue (digits : Bytes) : Option Nat :=
  digits.foldlM (fun value digit =>
    if 48 ≤ digit ∧ digit ≤ 57 then some (10 * value + (digit.toNat - 48)) else none) 0

/-- `str::parse::<u32>`: one optional plus sign, then at least one digit. -/
def parseU32 (text : Bytes) : Option UInt32 := do
  let digits := if text.head? = some 43 then text.tail else text
  if digits.isEmpty then none
  let value ← digitsValue digits
  if value < UInt32.size then some (UInt32.ofNat value) else none

section Reads

variable {Store : Type} [SecretStore Store]

def emptySealContradicted (store : Store) (predecessor : DelegateKey) : Bool :=
  getSecret store (predDoneMarker predecessor) == some PRED_DONE_MARKER_VALUE_EMPTY &&
    (getSecret store (predWipMarker predecessor)).any (· != PRED_DONE_MARKER_VALUE_EMPTY)

def completedGenerations (store : Store) : List UInt32 :=
  (listSecrets store DONE_PREFIX).filterMap fun key =>
    if DONE_PREFIX.isPrefixOf key then parseU32 (key.drop DONE_PREFIX.length) else none

def newestCompletedGeneration (store : Store) : Option UInt32 := (completedGenerations store).max?

def legacyGenerationMigrated (store : Store) (generation : UInt32) : Bool :=
  (newestCompletedGeneration store).any fun newest => decide (generation ≤ newest)

def legacyGenerationMigratedExact (store : Store) (generation : UInt32) : Bool :=
  hasSecret store (doneMarker generation)

namespace SecretStoreIo

def migrationMarker (store : Store) (query : MarkerQuery) : Option MigrationMarker :=
  if emptySealContradicted store query.predecessor then some (.inProgress true)
  else match getSecret store (predDoneMarker query.predecessor) with
    -- An unrecognized value counts as data-bearing.
    | some value => some (.done (value != PRED_DONE_MARKER_VALUE_EMPTY))
    | none =>
      let bridged := match query.legacyBridge with
        | .atOrAboveGeneration => legacyGenerationMigrated store query.generation
        | .exactGenerationOnly => legacyGenerationMigratedExact store query.generation
      if bridged then some (.done true)
      else (getSecret store (predWipMarker query.predecessor)).map fun value =>
        .inProgress (value != PRED_DONE_MARKER_VALUE_EMPTY)

theorem migrationMarker_cases (store : Store) (query : MarkerQuery) :
    (emptySealContradicted store query.predecessor = true ∧
      migrationMarker store query = some (.inProgress true)) ∨
    (emptySealContradicted store query.predecessor = false ∧ ∃ value,
      getSecret store (predDoneMarker query.predecessor) = some value ∧
        migrationMarker store query = some (.done (value != PRED_DONE_MARKER_VALUE_EMPTY))) ∨
    (getSecret store (predDoneMarker query.predecessor) = none ∧
      (migrationMarker store query = some (.done true) ∨
        migrationMarker store query = (getSecret store (predWipMarker query.predecessor)).map
          fun value => .inProgress (value != PRED_DONE_MARKER_VALUE_EMPTY))) := by
  unfold migrationMarker
  by_cases contradicted : emptySealContradicted store query.predecessor = true
  · exact .inl ⟨contradicted, if_pos contradicted⟩
  · rw [if_neg contradicted]
    cases found : getSecret store (predDoneMarker query.predecessor) with
    | some value => exact .inr (.inl ⟨Bool.not_eq_true _ ▸ contradicted, value, rfl, rfl⟩)
    | none =>
      exact .inr (.inr ⟨rfl, ite_eq_or_eq ..⟩)

def writeFailed (key : Bytes) : String :=
  s!"SecretStoreWriteFailed \x7b key: {key.map UInt8.toNat} \x7d"

def markerKey (predecessor : DelegateKey) : MigrationMarker → Bytes
  | .inProgress _ => predWipMarker predecessor
  | .done _ => predDoneMarker predecessor

def markerValue : MigrationMarker → Bytes
  | .inProgress data => if data then PRED_DONE_MARKER_VALUE_DATA else PRED_DONE_MARKER_VALUE_EMPTY
  | .done data => if data then PRED_DONE_MARKER_VALUE_DATA else PRED_DONE_MARKER_VALUE_EMPTY

def recordMarker (store : Store) (predecessor : DelegateKey) (marker : MigrationMarker) :
    Except String Unit × Store :=
  let key := markerKey predecessor marker
  if marker = .inProgress false ∧
      (getSecret store key).any (· != PRED_DONE_MARKER_VALUE_EMPTY) = true then (.ok (), store)
  else
    let (ok, store) := setSecret store key (markerValue marker)
    (if ok then .ok () else .error (writeFailed key), store)

def writeSecret (store : Store) (item : RecoveredSecret) : ItemWrite × Store :=
  if hasSecret store item.key then (.alreadyAuthoritative, store)
  else
    let (ok, store) := setSecret store item.key item.value
    (if ok then .written else .failed (writeFailed item.key) .retryable, store)

end SecretStoreIo

def AppEdit (store edited : Store) : Prop :=
  ∀ key, isMarker key = true → getSecret edited key = getSecret store key

theorem AppEdit.refl (store : Store) : AppEdit store store := fun _ _ => rfl

/-- A successor over a secret store, which the app may edit outside the crate's keys at any time.
    The plain entry point keeps no journal. -/
def storeWorld : World Request Answer Store := fun before request answer after =>
  ∃ edited, AppEdit before edited ∧
    match request, answer with
    | .migrationMarker query, answer =>
      answer = .ok (SecretStoreIo.migrationMarker edited query) ∧ after = edited
    | .recordMarker predecessor marker, answer =>
      (answer, after) = SecretStoreIo.recordMarker edited predecessor marker
    | .writeSecret item, answer => (answer, after) = SecretStoreIo.writeSecret edited item
    | .flushPredecessor _, answer => answer = .ok () ∧ after = edited
    | .loadJournal, _ => after = edited
    | .storeJournal _, _ => after = edited
    | .probeVerdict _, _ => after = edited
    | .fetchSecrets _, _ => after = edited

def soleWorld : World Request Answer Store := fun before request answer after =>
  match request, answer with
  | .migrationMarker query, answer =>
    answer = .ok (SecretStoreIo.migrationMarker before query) ∧ after = before
  | .recordMarker predecessor marker, answer =>
    (answer, after) = SecretStoreIo.recordMarker before predecessor marker
  | .writeSecret item, answer => (answer, after) = SecretStoreIo.writeSecret before item
  | .flushPredecessor _, answer => answer = .ok () ∧ after = before
  | .loadJournal, _ => after = before
  | .storeJournal _, _ => after = before
  | .probeVerdict _, _ => after = before
  | .fetchSecrets _, _ => after = before

/-- Only a marker or an item changes the store. -/
theorem soleWorld_cases {store final : Store} {request : Request} {answer : Answer request}
    (call : soleWorld store request answer final) :
    final = store ∨
      (∃ predecessor marker, request = .recordMarker predecessor marker ∧
        final = (SecretStoreIo.recordMarker store predecessor marker).2) ∨
      ∃ item, request = .writeSecret item ∧ final = (SecretStoreIo.writeSecret store item).2 := by
  cases request with
  | migrationMarker | flushPredecessor => exact .inl call.2
  | recordMarker predecessor marker =>
    exact .inr (.inl ⟨predecessor, marker, rfl, congrArg Prod.snd call⟩)
  | writeSecret item => exact .inr (.inr ⟨item, rfl, congrArg Prod.snd call⟩)
  | loadJournal | storeJournal | probeVerdict | fetchSecrets => exact .inl call

theorem storeWorld_of_soleWorld {store final : Store} {request : Request} {answer : Answer request}
    (call : soleWorld store request answer final) : storeWorld store request answer final :=
  ⟨store, .refl store, call⟩

def storeHandler (exports : DelegateKey → List SecretPair) :
    Store → (request : Request) → Answer request × Store
  | store, .migrationMarker query => (.ok (SecretStoreIo.migrationMarker store query), store)
  | store, .recordMarker predecessor marker => SecretStoreIo.recordMarker store predecessor marker
  | store, .writeSecret item => SecretStoreIo.writeSecret store item
  | store, .flushPredecessor _ => (.ok (), store)
  | store, .loadJournal => (.ok none, store)
  | store, .storeJournal _ => (.ok (), store)
  | store, .probeVerdict _ => (.ok .executable, store)
  | store, .fetchSecrets key => (.ok (exports key), store)

theorem soleWorld_storeHandler (exports : DelegateKey → List SecretPair) (store : Store)
    (request : Request) :
    soleWorld store request (storeHandler exports store request).1
      (storeHandler exports store request).2 := by
  cases request with
  | migrationMarker | flushPredecessor => exact ⟨rfl, rfl⟩
  | _ => rfl

theorem storeWorld_storeHandler (exports : DelegateKey → List SecretPair) (store : Store)
    (request : Request) :
    storeWorld store request (storeHandler exports store request).1
      (storeHandler exports store request).2 :=
  storeWorld_of_soleWorld (soleWorld_storeHandler exports store request)

theorem storeWorld_total (store : Store) (request : Request) :
    ∃ answer after, storeWorld store request answer after :=
  ⟨_, _, storeWorld_storeHandler (fun _ => []) store request⟩

end Reads

section Keys

theorem append_ne_append {left right : Bytes} (shared : Nat) (bound : shared ≤ left.length)
    (bound' : shared ≤ right.length) (differ : left.take shared ≠ right.take shared)
    (leftRest rightRest : Bytes) : left ++ leftRest ≠ right ++ rightRest := by
  intro same
  apply differ
  have taken := congrArg (List.take shared) same
  rwa [List.take_append_of_le_length bound, List.take_append_of_le_length bound'] at taken

theorem predDoneMarker_eq_iff {p q : DelegateKey} :
    predDoneMarker p = predDoneMarker q ↔ p.bytes = q.bytes := by
  unfold predDoneMarker
  rw [List.append_cancel_left_eq]
  exact Fixed.toList_injective.eq_iff

theorem predWipMarker_eq_iff {p q : DelegateKey} :
    predWipMarker p = predWipMarker q ↔ p.bytes = q.bytes := by
  unfold predWipMarker
  rw [List.append_cancel_left_eq]
  exact Fixed.toList_injective.eq_iff

theorem predDoneMarker_ne_predWipMarker (p q : DelegateKey) :
    predDoneMarker p ≠ predWipMarker q :=
  append_ne_append 28 (by decide) (by decide) (by decide) _ _

theorem not_done_prefix_predDoneMarker (p : DelegateKey) : ¬ DONE_PREFIX <+: predDoneMarker p := by
  rintro ⟨rest, same⟩
  exact append_ne_append 20 (by decide) (by decide) (by decide) _ _ same

theorem not_done_prefix_predWipMarker (p : DelegateKey) : ¬ DONE_PREFIX <+: predWipMarker p := by
  rintro ⟨rest, same⟩
  exact append_ne_append 20 (by decide) (by decide) (by decide) _ _ same

theorem isMarker_of_prefix {start key : Bytes} (reserved : MARKER_NS <+: start)
    (starts : start <+: key) : isMarker key = true := by
  have inside := List.isPrefixOf_iff_prefix.mpr (reserved.trans starts)
  rw [isMarker, inside, Bool.true_or]

theorem isMarker_of_done {key : Bytes} (starts : DONE_PREFIX <+: key) : isMarker key = true :=
  isMarker_of_prefix (by decide) starts

theorem isMarker_markerKey (predecessor : DelegateKey) (marker : MigrationMarker) :
    isMarker (SecretStoreIo.markerKey predecessor marker) = true := by
  cases marker with
  | inProgress => exact isMarker_of_prefix (by decide) (List.prefix_append PRED_WIP_PREFIX _)
  | done => exact isMarker_of_prefix (by decide) (List.prefix_append PRED_DONE_MARKER_KEY_PREFIX _)

end Keys

structure MemStore where
  data : List (Bytes × Bytes)
  failKeys : List Bytes

namespace MemStore

def keep (store : MemStore) (kept : Bytes → Bool) : MemStore :=
  { store with data := store.data.filter fun entry => kept entry.1 }

instance : SecretStore MemStore where
  listSecrets store start := (store.data.map Prod.fst).filter fun key => start.isPrefixOf key
  getSecret store key := store.data.lookup key
  hasSecret store key := (store.data.lookup key).isSome
  setSecret store key value :=
    if key ∈ store.failKeys then (false, store)
    else (true, { store with data := (key, value) :: store.data })

theorem getSecret_keep (store : MemStore) (kept : Bytes → Bool) {key : Bytes}
    (keeps : kept key = true) : getSecret (store.keep kept) key = getSecret store key := by
  obtain ⟨data, failKeys⟩ := store
  change (data.filter fun entry => kept entry.1).lookup key = data.lookup key
  induction data with
  | nil => rfl
  | cons entry rest ih =>
    obtain ⟨name, value⟩ := entry
    by_cases same : key = name
    · subst same
      rw [List.filter_cons, if_pos keeps, List.lookup_cons_self, List.lookup_cons_self]
    · rw [List.lookup_cons, beq_false_of_ne same, List.filter_cons]
      split
      · rw [List.lookup_cons, beq_false_of_ne same]
        exact ih
      · exact ih

theorem mem_listSecrets {store : MemStore} {start key : Bytes} :
    key ∈ listSecrets store start ↔ start <+: key ∧ (getSecret store key).isSome := by
  change key ∈ (store.data.map Prod.fst).filter _ ↔ _ ∧ (store.data.lookup key).isSome = true
  rw [List.mem_filter, List.lookup_isSome_iff, List.mem_map, List.isPrefixOf_iff_prefix, and_comm]
  simp only [beq_iff_eq, @eq_comm _ _ key]

instance : LawfulSecretStore MemStore where
  held_of_listed _ _ _ := mem_listSecrets.mp
  listed_of_held _ _ _ starts held := mem_listSecrets.mpr ⟨starts, held⟩
  hasSecret_eq _ _ := rfl
  getSecret_other store key value other differs := by
    simp only [setSecret]
    split
    · rfl
    · simp only [getSecret]
      rw [List.lookup_cons, beq_false_of_ne differs]
  getSecret_set store key value stored := by
    simp only [setSecret] at stored ⊢
    split
    · rename_i fails
      rw [if_pos fails] at stored
      cases stored
    · exact List.lookup_cons_self
  getSecret_refused store key value refused := by
    simp only [setSecret] at refused ⊢
    split
    · exact .inl rfl
    · rename_i accepts
      rw [if_neg accepts] at refused
      cases refused

end MemStore

end FreenetMigrate.Migrate
