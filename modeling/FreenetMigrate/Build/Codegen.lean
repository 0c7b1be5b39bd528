import FreenetMigrate.Build.Lineage
import FreenetMigrate.Rust.Escape

namespace FreenetMigrate.Build

open Outcome

structure Codegen where
  contractConst : Option String
  delegateConst : Option String
  cratePath : Option String
  canonical : Bool
  contractHashView : Option String
  delegatePairView : Option String
  deriving DecidableEq

def codegen : Codegen where
  contractConst := none
  delegateConst := none
  cratePath := none
  canonical := true
  contractHashView := none
  delegatePairView := none

/-- Line breaks would end the comment. -/
def commentSafe (note : String) : String :=
  .ofList (note.toList.map fun c => if c = '\n' ∨ c = '\r' then ' ' else c)

def fmtBytes32 (bytes : Fixed 32) : String :=
  "[" ++ ", ".intercalate (bytes.toList.map fun b => toString b.toNat) ++ "]"

def rustStr (s : String) : String := "\"" ++ .ofList (Rust.escapeDefault s.toList) ++ "\""

def fmtBool (b : Bool) : String := if b then "true" else "false"

def noteLine (note : String) : String :=
  if note.isEmpty then "" else "    // " ++ commentSafe note ++ "\n"

section Rendering

variable [Bs58]

/-! The bodies of the loops, a row each. -/

def renderContractRow (cratePath out : String) (row : ContractRow) : Outcome BuildError String := do
  let codeHash ← row.codeHashBytes
  return out ++ ("    " ++ cratePath ++ "::ContractLineageEntry \x7b generation: " ++
    toString row.generation.toNat ++ "u32, code_hash: " ++ fmtBytes32 codeHash ++ ", note: " ++
    rustStr row.note ++ " \x7d,\n")

def renderDelegateRow (cratePath out : String) (row : DelegateRow) : Outcome BuildError String := do
  let codeHash ← row.codeHashBytes
  let delegateKey ← row.delegateKeyBytes
  return out ++ ("    " ++ cratePath ++ "::DelegateLineageEntry \x7b generation: " ++
    toString row.generation.toNat ++ "u32, code_hash: " ++ fmtBytes32 codeHash ++
    ", delegate_key: " ++ fmtBytes32 delegateKey ++ ", irregular_key: " ++
    fmtBool row.irregularKey ++ ", note: " ++ rustStr row.note ++ " \x7d,\n")

def renderHashRow (out : String) (row : ContractRow) : Outcome BuildError String := do
  let out := out ++ noteLine row.note
  let codeHash ← row.codeHashBytes
  return out ++ ("    " ++ fmtBytes32 codeHash ++ ",\n")

def renderPairRow (out : String) (row : DelegateRow) : Outcome BuildError String := do
  let out := out ++ noteLine row.note
  let delegateKey ← row.delegateKeyBytes
  let codeHash ← row.codeHashBytes
  return out ++ ("    (" ++ fmtBytes32 delegateKey ++ ", " ++ fmtBytes32 codeHash ++ "),\n")

def Codegen.renderCanonical (config : Codegen) (registry : Registry) (out : String) :
    Outcome BuildError String := do
  let cratePath := config.cratePath.getD "::freenet_migrate"
  let contractConst := config.contractConst.getD "CONTRACT_LINEAGE"
  let delegateConst := config.delegateConst.getD "DELEGATE_LINEAGE"
  let out ← registry.contract.foldlM (renderContractRow cratePath)
    (out ++ ("pub const " ++ contractConst ++ ": &[" ++ cratePath ++ "::ContractLineageEntry] = &[\n"))
  let out := out ++ "];\n\n"
  let out ← registry.delegate.foldlM (renderDelegateRow cratePath)
    (out ++ ("pub const " ++ delegateConst ++ ": &[" ++ cratePath ++ "::DelegateLineageEntry] = &[\n"))
  return out ++ "];\n\n"

def renderContractHashView (registry : Registry) (name out : String) :
    Outcome BuildError String := do
  let out ← registry.contract.foldlM renderHashRow
    (out ++ ("pub const " ++ name ++ ": &[[u8; 32]] = &[\n"))
  return out ++ "];\n\n"

def renderDelegatePairView (registry : Registry) (name out : String) :
    Outcome BuildError String := do
  let out ← registry.delegate.foldlM renderPairRow
    (out ++ ("pub const " ++ name ++ ": &[([u8; 32], [u8; 32])] = &[\n"))
  return out ++ "];\n\n"

def renderView (render : String → String → Outcome BuildError String) (view : Option String)
    (out : String) : Outcome BuildError String :=
  match view with
  | some name => render name out
  | none => pure out

def Codegen.EmitsNothing (config : Codegen) : Prop :=
  config.canonical = false ∧ config.contractHashView = none ∧ config.delegatePairView = none

instance (config : Codegen) : Decidable config.EmitsNothing := inferInstanceAs (Decidable (_ ∧ _))

def Codegen.render [Blake3] (config : Codegen) (registry : Registry) :
    Outcome BuildError String := do
  registry.validate
  if config.EmitsNothing then throw .nothingToEmit
  else
    let out := "// @generated by freenet-migrate-build — do not edit.\n\n"
    let out ← (if config.canonical then config.renderCanonical registry out else pure out)
    let out ← renderView (renderContractHashView registry) config.contractHashView out
    renderView (renderDelegatePairView registry) config.delegatePairView out

end Rendering
end FreenetMigrate.Build
