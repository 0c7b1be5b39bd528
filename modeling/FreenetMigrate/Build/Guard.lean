import FreenetMigrate.Build.Validate
import Mathlib.Logic.Relation

namespace FreenetMigrate.Build

open Text Outcome

inductive Component
  | contract
  | delegate
  deriving DecidableEq

inductive GuardOutcome
  | unchanged
  | predecessorRegistered (generation : UInt32)
  | predecessorMissing (base : String)
  deriving DecidableEq

def GuardOutcome.passes : GuardOutcome → Bool
  | .predecessorMissing _ => false
  | _ => true

/-- `Result::is_ok_and`, where no panic is at stake. -/
def Outcome.isOkAnd {ε α : Type} (x : Outcome ε α) (accept : α → Bool) : Bool :=
  match x with
  | some (.ok a) => accept a
  | _ => false

theorem Outcome.isOkAnd_eq_true {ε α : Type} {x : Outcome ε α} {accept : α → Bool} :
    x.isOkAnd accept = true ↔ ∃ a, x = pure a ∧ accept a = true := by
  rcases x.cases with rfl | ⟨e, rfl⟩ | ⟨a, rfl⟩
  · exact ⟨nofun, fun ⟨a, same, _⟩ => absurd same panics_ne_pure⟩
  · exact ⟨nofun, fun ⟨a, same, _⟩ => absurd same throw_ne_pure⟩
  · constructor
    · exact fun accepted => ⟨a, rfl, accepted⟩
    · rintro ⟨b, same, accepted⟩
      obtain rfl := pure_inj.mp same
      exact accepted

section Lookup

variable [Bs58]

def findCodeHash (rows : List (UInt32 × String)) (codeHash : Fixed 32) : Option UInt32 :=
  (rows.find? fun r => (decodeHash32 r.2).isOkAnd (· == codeHash)).map Prod.fst

namespace Registry

def contractHashes (registry : Registry) : List (UInt32 × String) :=
  registry.contract.map fun r => (r.generation, r.codeHash)

def delegateHashes (registry : Registry) : List (UInt32 × String) :=
  registry.delegate.map fun r => (r.generation, r.codeHash)

def findContractCodeHashBytes (registry : Registry) (codeHash : Fixed 32) : Option UInt32 :=
  findCodeHash registry.contractHashes codeHash

def findDelegateCodeHashBytes (registry : Registry) (codeHash : Fixed 32) : Option UInt32 :=
  findCodeHash registry.delegateHashes codeHash

def findContractCodeHash (registry : Registry) (codeHash : String) : Option UInt32 :=
  match decodeHash32 codeHash with
  | some (.ok wanted) => registry.findContractCodeHashBytes wanted
  | _ => none

def findDelegateCodeHash (registry : Registry) (codeHash : String) : Option UInt32 :=
  match decodeHash32 codeHash with
  | some (.ok wanted) => registry.findDelegateCodeHashBytes wanted
  | _ => none

end Registry

/-- A changed code hash needs the previous one in the registry. -/
def checkMigrationGuard (component : Component) (baseCodeHash headCodeHash : String)
    (registry : Registry) : Outcome BuildError GuardOutcome := do
  let base ← decodeHash32 baseCodeHash
  let head ← decodeHash32 headCodeHash
  if base = head then return .unchanged
  else
    let found := match component with
      | .contract => registry.findContractCodeHashBytes base
      | .delegate => registry.findDelegateCodeHashBytes base
    return match found with
      | some generation => .predecessorRegistered generation
      | none => .predecessorMissing baseCodeHash

end Lookup

def codeHashB58 [Bs58] [Blake3] (wasm : Bytes) : String := b58 (Blake3.hash wasm)

def codeHashHex [Blake3] (wasm : Bytes) : String := .ofList (hex (Blake3.hash wasm).toList)

section Guard

variable [Bs58]

def Component.rows (component : Component) (registry : Registry) : List (UInt32 × String) :=
  match component with
  | .contract => registry.contractHashes
  | .delegate => registry.delegateHashes

/-- A row of the component has the code hash, in hex or in base58, under the generation. -/
def Recorded (component : Component) (registry : Registry) (codeHash : Fixed 32)
    (generation : UInt32) : Prop :=
  ∃ row ∈ component.rows registry, decodeHash32 row.2 = pure codeHash ∧ row.1 = generation

theorem findCodeHash_isSome {rows : List (UInt32 × String)} {codeHash : Fixed 32} :
    (findCodeHash rows codeHash).isSome = true ↔
      ∃ row ∈ rows, decodeHash32 row.2 = pure codeHash := by
  simp only [findCodeHash, Option.isSome_map, List.find?_isSome, isOkAnd_eq_true, beq_iff_eq,
    exists_eq_right]

theorem findCodeHash_eq_some {rows : List (UInt32 × String)}
    (distinct : (rows.map fun row => decodeHash32 row.2).Nodup) {codeHash : Fixed 32}
    {generation : UInt32} : findCodeHash rows codeHash = some generation ↔
      ∃ row ∈ rows, decodeHash32 row.2 = pure codeHash ∧ row.1 = generation := by
  have decodes {row : UInt32 × String}
      (first : (rows.find? fun r => (decodeHash32 r.2).isOkAnd (· == codeHash)) = some row) :
      decodeHash32 row.2 = pure codeHash := by
    have accepted := List.find?_some first
    obtain ⟨hash, decoded, equal⟩ := isOkAnd_eq_true.mp accepted
    rwa [beq_iff_eq.mp equal] at decoded
  unfold findCodeHash
  constructor
  · intro found
    obtain ⟨row, first, same⟩ := Option.map_eq_some_iff.mp found
    exact ⟨row, List.mem_of_find?_eq_some first, decodes first, same⟩
  · rintro ⟨row, member, decoded, rfl⟩
    have found : (rows.find? fun r => (decodeHash32 r.2).isOkAnd (· == codeHash)).isSome = true := by
      rw [List.find?_isSome]
      exact ⟨row, member, isOkAnd_eq_true.mpr ⟨codeHash, decoded, beq_self_eq_true codeHash⟩⟩
    obtain ⟨other, first⟩ := Option.isSome_iff_exists.mp found
    obtain rfl : other = row := List.inj_on_of_nodup_map distinct (List.mem_of_find?_eq_some first)
      member ((decodes first).trans decoded.symm)
    rw [first]
    rfl

/-- The guard fails exactly where the hash changed and is nowhere recorded. -/
theorem checkMigrationGuard_passes {component : Component} {baseCodeHash headCodeHash : String}
    {registry : Registry} : (∃ outcome, checkMigrationGuard component baseCodeHash headCodeHash
        registry = pure outcome ∧ outcome.passes = true) ↔
      ∃ base head, decodeHash32 baseCodeHash = pure base ∧ decodeHash32 headCodeHash = pure head ∧
        (base = head ∨ ∃ generation, Recorded component registry base generation) := by
  have looks (base : Fixed 32) :
      (match component with
        | .contract => registry.findContractCodeHashBytes base
        | .delegate => registry.findDelegateCodeHashBytes base).isSome = true ↔
      ∃ generation, Recorded component registry base generation := by
    cases component with
    | contract => simp [Registry.findContractCodeHashBytes, findCodeHash_isSome, Recorded,
        Component.rows]
    | delegate => simp [Registry.findDelegateCodeHashBytes, findCodeHash_isSome, Recorded,
        Component.rows]
  unfold checkMigrationGuard
  simp only [bind_eq_pure]
  constructor
  · rintro ⟨outcome, ⟨base, readBase, head, readHead, judged⟩, passes⟩
    refine ⟨base, head, readBase, readHead, ?_⟩
    split at judged
    · rename_i same
      exact .inl same
    · right
      rw [← looks]
      obtain rfl := pure_inj.mp judged
      split at passes
      · rename_i found
        rw [found]
        rfl
      · cases passes
  · rintro ⟨base, head, readBase, readHead, same | recorded⟩
    · exact ⟨.unchanged, ⟨base, readBase, head, readHead, if_pos same⟩, rfl⟩
    · by_cases same : base = head
      · exact ⟨.unchanged, ⟨base, readBase, head, readHead, if_pos same⟩, rfl⟩
      · obtain ⟨generation, found⟩ := Option.isSome_iff_exists.mp ((looks base).mpr recorded)
        refine ⟨.predecessorRegistered generation, ⟨base, readBase, head, readHead, ?_⟩, rfl⟩
        rw [if_neg same, found]

structure Release where
  codeHash : String
  registry : Registry

/-- One release after another: the guard passes, and whatever was recorded stays recorded. -/
structure Follows (component : Component) (before after : Release) : Prop where
  kept : ∀ codeHash generation, Recorded component before.registry codeHash generation →
    Recorded component after.registry codeHash generation
  guarded : ∃ outcome, checkMigrationGuard component before.codeHash after.codeHash after.registry =
    pure outcome ∧ outcome.passes = true

abbrev Releases (component : Component) : Release → Release → Prop :=
  Relation.ReflTransGen (Follows component)

/-- What was ever shipped is what is shipped now, or it is recorded. -/
theorem shipped_recorded {component : Component} {release current : Release} {codeHash : Fixed 32}
    (steps : Releases component release current) (shipped : decodeHash32 release.codeHash = pure codeHash) :
    decodeHash32 current.codeHash = pure codeHash ∨
      ∃ generation, Recorded component current.registry codeHash generation := by
  induction steps with
  | refl => exact .inl shipped
  | tail before step ih =>
    rcases ih with current | ⟨generation, recorded⟩
    · obtain ⟨base, head, readBase, readHead, covered⟩ := checkMigrationGuard_passes.mp step.guarded
      obtain rfl := pure_inj.mp (readBase.symm.trans current)
      rcases covered with rfl | recorded
      · exact .inl readHead
      · exact .inr recorded
    · exact .inr ⟨generation, step.kept codeHash generation recorded⟩

theorem recorded_stays {component : Component} {release current : Release} {codeHash : Fixed 32}
    {generation : UInt32} (steps : Releases component release current)
    (recorded : Recorded component release.registry codeHash generation) :
    Recorded component current.registry codeHash generation := by
  induction steps with
  | refl => exact recorded
  | tail _ step ih => exact step.kept codeHash generation ih

theorem Recorded.unique [Blake3] {component : Component} {registry : Registry} {codeHash : Fixed 32}
    {generation other : UInt32} (valid : registry.Valid)
    (recorded : Recorded component registry codeHash generation)
    (also : Recorded component registry codeHash other) : generation = other := by
  have distinct : ((component.rows registry).map fun row => decodeHash32 row.2).Nodup := by
    cases component with
    | contract =>
      rw [Component.rows, Registry.contractHashes, List.map_map]
      exact valid.contractDistinct
    | delegate =>
      rw [Component.rows, Registry.delegateHashes, List.map_map]
      exact valid.delegateDistinct
  obtain ⟨row, member, decoded, rfl⟩ := recorded
  obtain ⟨second, otherMember, otherDecoded, rfl⟩ := also
  rw [List.inj_on_of_nodup_map distinct member otherMember (decoded.trans otherDecoded.symm)]

end Guard

end FreenetMigrate.Build
