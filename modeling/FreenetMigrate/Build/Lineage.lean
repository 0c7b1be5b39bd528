import FreenetMigrate.Build.Validate
import FreenetMigrate.Migrate.Interface

namespace FreenetMigrate.Build

open Outcome

/-! What the generated consts hold: the rows of a registry, with their hashes decoded. -/

theorem exists_forall₂ {α β : Type} {relates : α → β → Prop} {xs : List α}
    (each : ∀ x ∈ xs, ∃ y, relates x y) : ∃ ys, List.Forall₂ relates xs ys := by
  induction xs with
  | nil => exact ⟨[], .nil⟩
  | cons x rest ih =>
    obtain ⟨⟨y, first⟩, others⟩ := List.forall_mem_cons.mp each
    obtain ⟨ys, tail⟩ := ih others
    exact ⟨y :: ys, .cons first tail⟩

theorem exists_of_mem_forall₂ {α β : Type} {relates : α → β → Prop} {xs : List α} {ys : List β}
    (related : List.Forall₂ relates xs ys) {x : α} (member : x ∈ xs) : ∃ y ∈ ys, relates x y := by
  induction related with
  | nil => cases member
  | cons first _ ih =>
    rcases List.mem_cons.mp member with rfl | later
    · exact ⟨_, List.mem_cons_self, first⟩
    · obtain ⟨y, inside, relates⟩ := ih later
      exact ⟨y, List.mem_cons_of_mem _ inside, relates⟩

theorem pairwise_of_forall₂ {α β : Type} {relates : α → β → Prop} {before : α → α → Prop}
    {after : β → β → Prop}
    (carries : ∀ x x' y y', relates x y → relates x' y' → before x x' → after y y')
    {xs : List α} {ys : List β} (related : List.Forall₂ relates xs ys) (pairs : xs.Pairwise before) :
    ys.Pairwise after := by
  induction related with
  | nil => exact .nil
  | @cons x y rest others first tail ih =>
    obtain ⟨head, later⟩ := List.pairwise_cons.mp pairs
    refine .cons ?_ (ih later)
    clear ih later pairs
    induction tail with
    | nil => simp
    | cons second _ ih =>
      obtain ⟨near, far⟩ := List.forall_mem_cons.mp head
      exact List.forall_mem_cons.mpr ⟨carries _ _ _ _ first second near, ih far⟩

structure ContractConst where
  generation : UInt32
  codeHash : Fixed 32
  note : String
  deriving DecidableEq

structure DelegateConst where
  generation : UInt32
  codeHash : Fixed 32
  delegateKey : Fixed 32
  irregularKey : Bool
  note : String
  deriving DecidableEq

def DelegateConst.entry (row : DelegateConst) : Migrate.DelegateLineageEntry :=
  ⟨row.generation, row.codeHash, row.delegateKey⟩

variable [Bs58]

def ContractRow.const (row : ContractRow) : Outcome BuildError ContractConst := do
  let codeHash ← row.codeHashBytes
  return ⟨row.generation, codeHash, row.note⟩

def DelegateRow.const (row : DelegateRow) : Outcome BuildError DelegateConst := do
  let codeHash ← row.codeHashBytes
  let delegateKey ← row.delegateKeyBytes
  return ⟨row.generation, codeHash, delegateKey, row.irregularKey, row.note⟩

def Registry.contractLineage (registry : Registry) : Outcome BuildError (List ContractConst) :=
  registry.contract.mapM ContractRow.const

def Registry.delegateLineage (registry : Registry) : Outcome BuildError (List DelegateConst) :=
  registry.delegate.mapM DelegateRow.const

theorem ContractRow.const_eq_pure {row : ContractRow} {const : ContractConst} :
    row.const = pure const ↔ row.codeHashBytes = pure const.codeHash ∧
      const.generation = row.generation ∧ const.note = row.note := by
  unfold ContractRow.const
  rw [bind_eq_pure]
  constructor
  · rintro ⟨codeHash, code, same⟩
    obtain rfl := pure_inj.mp same
    exact ⟨code, rfl, rfl⟩
  · rintro ⟨code, generation, note⟩
    refine ⟨_, code, pure_inj.mpr ?_⟩
    rw [← generation, ← note]

theorem DelegateRow.const_eq_pure {row : DelegateRow} {const : DelegateConst} :
    row.const = pure const ↔ row.codeHashBytes = pure const.codeHash ∧
      row.delegateKeyBytes = pure const.delegateKey ∧ const.generation = row.generation ∧
        const.irregularKey = row.irregularKey ∧ const.note = row.note := by
  unfold DelegateRow.const
  simp only [bind_eq_pure]
  constructor
  · rintro ⟨codeHash, code, delegateKey, key, same⟩
    obtain rfl := pure_inj.mp same
    exact ⟨code, key, rfl, rfl, rfl⟩
  · rintro ⟨code, key, generation, irregular, note⟩
    refine ⟨_, code, _, key, pure_inj.mpr ?_⟩
    rw [← generation, ← irregular, ← note]

namespace Registry.Valid

variable [Blake3] {registry : Registry}

theorem contractLineage (valid : registry.Valid) :
    ∃ lineage, registry.contractLineage = pure lineage := by
  simp only [Registry.contractLineage, mapM_eq_pure]
  apply exists_forall₂
  intro row member
  obtain ⟨codeHash, code⟩ := valid.contractHashes row member
  exact ⟨⟨row.generation, codeHash, row.note⟩, ContractRow.const_eq_pure.mpr ⟨code, rfl, rfl⟩⟩

theorem delegateLineage (valid : registry.Valid) :
    ∃ lineage, registry.delegateLineage = pure lineage := by
  simp only [Registry.delegateLineage, mapM_eq_pure]
  apply exists_forall₂
  intro row member
  obtain ⟨codeHash, delegateKey, params, code, key, -⟩ := valid.delegateRows row member
  exact ⟨⟨row.generation, codeHash, delegateKey, row.irregularKey, row.note⟩,
    DelegateRow.const_eq_pure.mpr ⟨code, key, rfl, rfl, rfl⟩⟩

end Registry.Valid
end FreenetMigrate.Build
