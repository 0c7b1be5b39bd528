import FreenetMigrate.Build.Guard
import FreenetMigrate.Build.Identity
import FreenetMigrate.Migrate.Retries

namespace FreenetMigrate.Migrate

open Calls SecretStore Build

structure Registration where
  predecessors : List DelegateLineageEntry
  policy : SecretSelectionPolicy

abbrev Registering (α : Type) : Type :=
  Program (Registration ⊕ Request) (Sum.elim (fun _ => Except String Unit) Answer) α

def registerSuccessor (registration : Registration) : Registering (Except String Unit) :=
  Program.request (Sum.inl registration)

/-- Register the successor, then migrate. A registration that fails moves no secret. -/
def registerDelegateWithMigration (predecessors : List DelegateLineageEntry)
    (policy : SecretSelectionPolicy) : Registering (Except String (List PredecessorMigration)) := do
  let newestFirst := predecessors.insertionSort fun a b => b.generation ≤ a.generation
  match ← registerSuccessor ⟨newestFirst, policy⟩ with
  | .error e => return .error e
  | .ok () =>
    let report ← (migrateDelegateSecrets predecessors policy).beside
    return .ok report

variable {Store : Type} [SecretStore Store] {exports : Fixed 32 → List SecretPair}
  {start store final : Store} {predecessors : List DelegateLineageEntry}
  {policy : SecretSelectionPolicy}

def registerWorld (exports : Fixed 32 → List SecretPair) :
    World (Registration ⊕ Request) (Sum.elim (fun _ => Except String Unit) Answer) Store :=
  World.beside (fun before _ _ after => after = before) (soleWorld.within (Truthful exports))

/-- The successor is registered with the predecessors in the order in which they are reported. -/
theorem newestFirst_registered (predecessors : List DelegateLineageEntry) :
    (predecessors.insertionSort fun a b => b.generation ≤ a.generation).map
      (fun e => (lineageKey e, e.generation)) = newestFirst predecessors :=
  List.map_insertionSort _ _ _ _ fun _ _ _ _ => Iff.rfl

theorem reports_of_migrate {events : History} {report : List PredecessorMigration}
    (run : Executes soleWorld store (migrateDelegateSecrets predecessors policy) events final report) :
    (report.map fun row => (row.key, row.generation)) = newestFirst predecessors := by
  obtain ⟨visits, state', rows, -, rfl, visited⟩ := visits_of_migrate run
  rw [← rows, List.map_map]
  apply List.map_congr_left
  intro visit member
  obtain ⟨s₁, state₁, s₂, state₂, runs, pushed⟩ := visited.visited member
  obtain ⟨report, alone, key, generation⟩ := runs.reports
  rw [report_unique alone pushed] at key generation
  rw [Function.comp_apply, key, generation]

section Register

variable [SoundSecretStore Store]

theorem wp_register (underway : Underway exports
      (selected .newestSnapshotWins exports (newestFirst predecessors)) start store) :
    (registerDelegateWithMigration predecessors .newestSnapshotWins).wp (registerWorld exports)
      (Underway exports (selected .newestSnapshotWins exports (newestFirst predecessors)) start)
        (fun _ _ => True) store := by
  refine wp_call underway ?_
  rintro answer s' rfl
  cases answer with
  | error e => exact wp_pure underway trivial
  | ok =>
    refine wp_bind (wp_beside (wp_migrate False (fun _ => id) False.elim underway)) ?_
    intro s report underway' _
    exact wp_pure underway' trivial

def RegisterAttempted (exports : Fixed 32 → List SecretPair)
    (predecessors : List DelegateLineageEntry) (before after : Store) : Prop :=
  ∃ events, Reaches (registerWorld exports) before
    (registerDelegateWithMigration predecessors .newestSnapshotWins) events after

theorem registered_underway (unmarked : ∀ key, isMarker key = true → getSecret start key = none)
    (attempts : Relation.ReflTransGen (RegisterAttempted exports predecessors) start store) :
    Underway exports (selected .newestSnapshotWins exports (newestFirst predecessors)) start store := by
  induction attempts with
  | refl => exact underway_start unmarked
  | tail _ attempt ih =>
    obtain ⟨events, attempt⟩ := attempt
    exact (wp_register ih).reaches attempt

end Register

theorem executes_register {report : List PredecessorMigration}
    {events : List (Event (Registration ⊕ Request) (Sum.elim (fun _ => Except String Unit) Answer))}
    (run : Executes (registerWorld exports) store (registerDelegateWithMigration predecessors policy)
      events final (.ok report)) :
    ∃ own, events = ⟨.inl ⟨predecessors.insertionSort fun a b => b.generation ≤ a.generation, policy⟩,
        .ok ()⟩ :: own.map (fun event => ⟨.inr event.request, event.answer⟩) ∧
      Executes (soleWorld.within (Truthful exports)) store (migrateDelegateSecrets predecessors policy)
        own final report := by
  obtain ⟨answer, middle, remaining, rfl, rfl, rest⟩ := executes_call.mp run
  cases answer with
  | error e =>
    obtain ⟨-, -, other⟩ := executes_pure.mp rest
    cases other
  | ok =>
    obtain ⟨first, s, reported, second, rfl, migrated, done⟩ := executes_bind.mp rest
    obtain ⟨rfl, rfl, same⟩ := executes_pure.mp done
    obtain rfl := Except.ok.inj same
    obtain ⟨own, rfl, inner⟩ := executes_beside migrated
    rw [List.append_nil]
    exact ⟨own, rfl, inner⟩

/-- The chosen export is that of a listed predecessor which is no older than one with data. -/
theorem selected_of_data {rows : List (DelegateKey × UInt32)}
    (ordered : rows.Pairwise fun earlier later => later.2 ≤ earlier.2)
    {row : DelegateKey × UInt32} (listed : row ∈ rows)
    (data : hasData (exports row.1.bytes) = true) :
    ∃ newest ∈ rows, row.2 ≤ newest.2 ∧ hasData (exports newest.1.bytes) = true ∧
      selected .newestSnapshotWins exports rows = exports newest.1.bytes := by
  have snapshot : SecretSelectionPolicy.newestSnapshotWins ≠ .unionAllGenerations := by decide
  induction rows with
  | nil => cases listed
  | cons first rest ih =>
    obtain ⟨above, ordered⟩ := List.pairwise_cons.mp ordered
    rw [selected_snapshot snapshot]
    cases own : hasData (exports first.1.bytes) with
    | true =>
      refine ⟨first, List.mem_cons_self, ?_, own, if_pos rfl⟩
      rcases List.mem_cons.mp listed with rfl | later
      · exact le_refl _
      · exact above row later
    | false =>
      rw [if_neg Bool.false_ne_true]
      rcases List.mem_cons.mp listed with rfl | later
      · rw [own] at data
        cases data
      · obtain ⟨newest, member, rest⟩ := ih ordered later
        exact ⟨newest, List.mem_cons_of_mem _ member, rest⟩

section Releases

variable [Bs58] [Blake3]

omit [Blake3] in
theorem mem_delegateLineage {registry : Registry} {lineage : List DelegateConst}
    (generated : registry.delegateLineage = pure lineage) {codeHash : Fixed 32} {generation : UInt32}
    (recorded : Recorded .delegate registry codeHash generation) :
    ∃ source ∈ registry.delegate, ∃ row ∈ lineage, source.const = pure row ∧
      row.codeHash = codeHash ∧ row.generation = generation := by
  obtain ⟨_, member, decoded, rfl⟩ := recorded
  obtain ⟨source, inside, rfl⟩ := List.mem_map.mp member
  obtain ⟨row, listed, made⟩ :=
    exists_of_mem_forall₂ (Build.Outcome.mapM_eq_pure.mp generated) inside
  obtain ⟨code, -, generation, -⟩ := DelegateRow.const_eq_pure.mp made
  exact ⟨source, inside, row, listed, made, Build.Outcome.pure_inj.mp (code.symm.trans decoded),
    generation⟩

variable (Store) in
/-- No release strands the secrets of an earlier delegate. Where the guard passed at every release
    and rows were only added, a delegate that was ever shipped is the current one or is listed, under
    the key that its row's params derive. However often the current release was stopped or refused
    on the way, when it reports completion it holds all secrets of a predecessor that is no older. -/
theorem no_release_strands_secrets [SoundSecretStore Store] {release current : Release}
    {codeHash now : Fixed 32} {lineage : List DelegateConst}
    (steps : Releases .delegate release current)
    (shipped : decodeHash32 release.codeHash = pure codeHash)
    (running : decodeHash32 current.codeHash = pure now)
    (accepted : current.registry.validate = pure ())
    (generated : current.registry.delegateLineage = pure lineage) :
    codeHash = now ∨ ∃ source ∈ current.registry.delegate, ∃ row ∈ lineage,
      source.const = pure row ∧ row.codeHash = codeHash ∧
      (row.irregularKey = false → ∃ params, source.paramsBytes = pure params ∧
        row.delegateKey = deriveDelegateKey codeHash params) ∧
      ∀ (exports : Fixed 32 → List SecretPair) (start store final : Store) (events) (report),
        (∀ key, isMarker key = true → getSecret start key = none) →
        Relation.ReflTransGen (RegisterAttempted exports (lineage.map DelegateConst.entry)) start
          store →
        Executes (registerWorld exports) store
          (registerDelegateWithMigration (lineage.map DelegateConst.entry) .newestSnapshotWins) events
          final (.ok report) →
        (∃ registered own, events = ⟨.inl ⟨registered, .newestSnapshotWins⟩, .ok ()⟩ :: own ∧
          registered.Perm (lineage.map DelegateConst.entry) ∧
          (report.map fun reported => (reported.key, reported.generation)) =
            registered.map fun e => (lineageKey e, e.generation)) ∧
        (isComplete report = true → hasData (exports row.delegateKey) = true →
          ∃ newer ∈ lineage, row.generation ≤ newer.generation ∧
            hasData (exports newer.delegateKey) = true ∧
            ∀ pair ∈ exports newer.delegateKey, isMarker pair.1 = false →
              (getSecret final pair.1).isSome = true) := by
  rcases shipped_recorded steps shipped with still | ⟨generation, recorded⟩
  · left
    exact Build.Outcome.pure_inj.mp (still.symm.trans running)
  · right
    obtain ⟨source, inside, row, listed, made, rfl, same⟩ := mem_delegateLineage generated recorded
    obtain ⟨code, key, -, irregular, -⟩ := DelegateRow.const_eq_pure.mp made
    refine ⟨source, inside, row, listed, made, rfl, ?_, ?_⟩
    · intro regular
      obtain ⟨codeHash, delegateKey, params, readCode, readKey, readParams, derives⟩ :=
        (Registry.validate_eq_pure _).mp accepted |>.delegateRows source inside
      obtain rfl := Build.Outcome.pure_inj.mp (readCode.symm.trans code)
      obtain rfl := Build.Outcome.pure_inj.mp (readKey.symm.trans key)
      exact ⟨params, readParams, (derives.mpr (irregular.symm.trans regular)).symm⟩
    · intro exports start store final events report unmarked attempts run
      obtain ⟨own, rfl, migrated⟩ := executes_register run
      constructor
      · refine ⟨_, _, rfl, List.perm_insertionSort _ _, ?_⟩
        rw [newestFirst_registered]
        exact reports_of_migrate (executes_within.mp migrated).1
      · intro complete data
        obtain ⟨-, held⟩ := (registered_underway unmarked attempts).complete migrated complete
        have ordered := newestFirst_ordered (lineage.map DelegateConst.entry)
        have visited : (lineageKey row.entry, row.generation) ∈
            newestFirst (lineage.map DelegateConst.entry) := by
          rw [ordered.perm.mem_iff, List.map_map]
          exact List.mem_map.mpr ⟨row, listed, rfl⟩
        obtain ⟨newest, member, newer, hasOwn, chosen⟩ :=
          selected_of_data ordered.newest visited data
        rw [ordered.perm.mem_iff, List.map_map] at member
        obtain ⟨other, among, rfl⟩ := List.mem_map.mp member
        rw [chosen] at held
        exact ⟨other, among, newer, hasOwn, held⟩

end Releases

section

local instance : Bs58 := standardBs58
local instance : LawfulBs58 := standardBs58_lawful
local instance : Blake3 := riverDigests

def riverV2Key : String := "e3ad5c5b1a821089536be84d674329b37f46d2fba3e7026008fae85f3556511f"

def riverLineage : List DelegateConst :=
  [⟨1, riverV1CodeHash, riverV1DelegateKey, true, "V1"⟩,
    ⟨2, riverV2CodeHash, riverV2DelegateKey, false, "V2"⟩]

def thirdCodeHash : Fixed 32 := ⟨List.replicate 32 0x5e, List.length_replicate⟩

def secondDelegate : Release :=
  ⟨"cfb9774c03cd95424955adab70a41d7575cd3312f09fd3f16d6ef548ba8cf051", ⟨[], [riverV1]⟩⟩

def thirdDelegate : Release :=
  ⟨.ofList (Text.hex thirdCodeHash.toList), riverRegistry riverV2Key false⟩

theorem decode_thirdDelegate : decodeHash32 thirdDelegate.codeHash = pure thirdCodeHash := by
  rw [decodeHash32_eq_pure, thirdDelegate, String.toList_ofList]
  exact .inl (Text.spells_hex _)

theorem third_follows : Follows .delegate secondDelegate thirdDelegate where
  kept codeHash generation recorded := by
    obtain ⟨row, member, rest⟩ := recorded
    obtain rfl := List.mem_singleton.mp member
    exact ⟨_, List.mem_cons_self, rest⟩
  guarded := by
    refine checkMigrationGuard_passes.mpr ⟨riverV2CodeHash, thirdCodeHash,
      riverSecond_codeHash riverV2Key false, decode_thirdDelegate, .inr ⟨2, ?_⟩⟩
    exact ⟨_, List.mem_cons_of_mem _ (List.mem_singleton_self _),
      riverSecond_codeHash riverV2Key false, rfl⟩

def riverExports (key : Fixed 32) : List SecretPair :=
  if key = riverV2DelegateKey then [([1], [2])] else []

def registerHandler : MemStore → (request : Registration ⊕ Request) →
    Sum.elim (fun _ => Except String Unit) Answer request × MemStore
  | store, .inl _ => (.ok (), store)
  | store, .inr request => storeHandler (fun key => riverExports key.bytes) store request

theorem registerWorld_registerHandler (store : MemStore) (request : Registration ⊕ Request) :
    registerWorld riverExports store request (registerHandler store request).1
      (registerHandler store request).2 := by
  cases request with
  | inl => exact rfl
  | inr request =>
    refine ⟨soleWorld_storeHandler (fun key => riverExports key.bytes) store request, ?_⟩
    cases request with
    | fetchSecrets predecessor =>
      rintro secrets ⟨⟩
      rfl
    | _ => trivial

def thirdLoad : List (Event (Registration ⊕ Request) (Sum.elim (fun _ => Except String Unit) Answer)) ×
    MemStore × Except String (List PredecessorMigration) :=
  (registerDelegateWithMigration (riverLineage.map DelegateConst.entry) .newestSnapshotWins).run
    registerHandler ⟨[], []⟩

theorem no_release_strands_secrets_river :
    ∃ newer ∈ riverLineage, 2 ≤ newer.generation ∧ hasData (riverExports newer.delegateKey) = true ∧
      ∀ pair ∈ riverExports newer.delegateKey, isMarker pair.1 = false →
        (getSecret thirdLoad.2.1 pair.1).isSome = true := by
  have accepted : thirdDelegate.registry.validate = pure () :=
    riverRegistry_accepted riverV2_delegateKey (iff_of_true rfl rfl)
  have generated : thirdDelegate.registry.delegateLineage = pure riverLineage :=
    riverRegistry_delegateLineage riverV2_delegateKey
  have loaded : (thirdLoad.2.2.toOption.map isComplete) = some true := by decide +kernel
  obtain ⟨report, returned, complete⟩ := Option.map_eq_some_iff.mp loaded
  have run : Executes (registerWorld riverExports) (⟨[], []⟩ : MemStore)
      (registerDelegateWithMigration (riverLineage.map DelegateConst.entry) .newestSnapshotWins)
      thirdLoad.1 thirdLoad.2.1 thirdLoad.2.2 := executes_run registerWorld_registerHandler ⟨[], []⟩
  have succeeded : thirdLoad.2.2 = .ok report := by
    cases result : thirdLoad.2.2 with
    | error e =>
      rw [result] at returned
      cases returned
    | ok reported =>
      rw [result] at returned
      rw [Option.some.inj returned]
  rw [succeeded] at run
  rcases no_release_strands_secrets MemStore (.single third_follows)
    (riverSecond_codeHash riverV2Key false) decode_thirdDelegate accepted generated with
    same | ⟨-, -, row, listed, -, code, -, completes⟩
  · exact absurd same (by decide)
  · have second : row = ⟨2, riverV2CodeHash, riverV2DelegateKey, false, "V2"⟩ := by
      rcases List.mem_pair.mp listed with rfl | rfl
      · exact absurd code (by decide)
      · rfl
    have held := (completes riverExports _ _ _ _ _ (fun _ _ => rfl) .refl run).2 complete
    rw [second] at held
    exact held (by decide)

end

end FreenetMigrate.Migrate
