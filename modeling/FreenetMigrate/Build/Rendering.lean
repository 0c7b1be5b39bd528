import FreenetMigrate.Build.Generated

namespace FreenetMigrate.Build

open Outcome Rust

variable [Xid] {path : Path}

theorem header_writes :
    Writes "// @generated by freenet-migrate-build — do not edit.\n\n" [Token.comment HEADER] := by
  have comment : Lexes .ready ('/' :: '/' :: HEADER ++ ['\n']) [Token.comment HEADER] .ready :=
    Lexes.commented (by decide +kernel) (by decide +kernel) (by decide)
  have blank : Lexes .ready ['\n'] [] .ready := ⟨by decide, rfl⟩
  have split : "// @generated by freenet-migrate-build — do not edit.\n\n".toList =
      '/' :: '/' :: HEADER ++ ['\n'] ++ ['\n'] := by decide
  unfold Writes
  rw [split]
  exact comment.append blank

theorem renderView_writes {out : String} {tokens : List Token}
    {render : String → String → Outcome BuildError String}
    {const : String → List Token} {view : Option String}
    (renders : ∀ name, view = some name → ∃ after, render name out = pure after ∧
      Writes after (tokens ++ const name)) (writes : Writes out tokens) :
    ∃ after, renderView render view out = pure after ∧
      Writes after (tokens ++ (view.map const).getD []) := by
  cases view with
  | some name => exact renders name rfl
  | none =>
    refine ⟨out, rfl, ?_⟩
    simpa using writes

variable [Bs58] {registry : Registry} {contracts : List ContractConst} {delegates : List DelegateConst}
  {config : Codegen} {out : String} {tokens : List Token}

theorem renderCanonical_writes (named : config.Named path) (canonical : config.canonical = true)
    (contractRows : registry.contractLineage = pure contracts)
    (delegateRows : registry.delegateLineage = pure delegates) (writes : Writes out tokens) :
    ∃ after, config.renderCanonical registry out = pure after ∧
      Writes after (tokens ++ config.canonicalTokens path contracts delegates) := by
  have spelt := named.cratePath canonical
  obtain ⟨first, contractSteps, written⟩ := const_writes (mapM_eq_pure.mp contractRows)
    (lexes_itemHead (named.contractConst canonical) spelt contractEntry_isIdent
      "::ContractLineageEntry] = &[\n" rfl)
    (fun _ _ _ _ decodes => renderContractRow_writes spelt decodes) writes
  obtain ⟨second, delegateSteps, all⟩ := const_writes (mapM_eq_pure.mp delegateRows)
    (lexes_itemHead (named.delegateConst canonical) spelt delegateEntry_isIdent
      "::DelegateLineageEntry] = &[\n" rfl)
    (fun _ _ _ _ decodes => renderDelegateRow_writes spelt decodes) written
  refine ⟨second ++ "];\n\n", ?_, ?_⟩
  · exact bind_eq_pure.mpr ⟨first, contractSteps, bind_eq_pure.mpr ⟨second, delegateSteps, rfl⟩⟩
  · rwa [List.append_assoc] at all

theorem renderContractHashView_writes {name : String} (ident : IsIdent name.toList)
    (contractRows : registry.contractLineage = pure contracts) (writes : Writes out tokens) :
    ∃ after, renderContractHashView registry name out = pure after ∧
      Writes after (tokens ++ hashViewTokens contracts name) := by
  have typed : Lexes (.word name.toList) ": &[[u8; 32]] = &[\n".toList
      (word name :: mark ':' :: mark '&' :: mark '[' :: HASH_TYPE ++
        [mark ']', mark '=', mark '&', mark '[']) .ready := ⟨by decide, rfl⟩
  obtain ⟨after, steps, all⟩ := const_writes (mapM_eq_pure.mp contractRows)
    (lexes_head ident typed) (fun _ _ _ _ decodes => renderHashRow_writes decodes) writes
  exact ⟨after ++ "];\n\n", bind_eq_pure.mpr ⟨after, steps, rfl⟩, all⟩

theorem renderDelegatePairView_writes {name : String} (ident : IsIdent name.toList)
    (delegateRows : registry.delegateLineage = pure delegates) (writes : Writes out tokens) :
    ∃ after, renderDelegatePairView registry name out = pure after ∧
      Writes after (tokens ++ pairViewTokens delegates name) := by
  have typed : Lexes (.word name.toList) ": &[([u8; 32], [u8; 32])] = &[\n".toList
      (word name :: mark ':' :: mark '&' :: mark '[' :: PAIR_TYPE ++
        [mark ']', mark '=', mark '&', mark '[']) .ready := ⟨by decide, rfl⟩
  obtain ⟨after, steps, all⟩ := const_writes (mapM_eq_pure.mp delegateRows)
    (lexes_head ident typed) (fun _ _ _ _ decodes => renderPairRow_writes decodes) writes
  exact ⟨after ++ "];\n\n", bind_eq_pure.mpr ⟨after, steps, rfl⟩, all⟩

theorem render_writes [Blake3] (named : config.Named path) (accepted : registry.validate = pure ())
    (emits : ¬ config.EmitsNothing) (contractRows : registry.contractLineage = pure contracts)
    (delegateRows : registry.delegateLineage = pure delegates) :
    ∃ text, config.render registry = pure text ∧
      Writes text (config.tokens path contracts delegates) := by
  have canonical (head : String) (tokens : List Token) (writes : Writes head tokens) :
      ∃ after, (if config.canonical then config.renderCanonical registry head else pure head) =
          (pure after : Outcome BuildError String) ∧ Writes after (tokens ++
        if config.canonical then config.canonicalTokens path contracts delegates else []) := by
    cases canonical : config.canonical with
    | true => exact renderCanonical_writes named canonical contractRows delegateRows writes
    | false =>
      refine ⟨head, rfl, ?_⟩
      simpa using writes
  obtain ⟨first, canonicalStep, written⟩ := canonical _ _ header_writes
  obtain ⟨second, hashStep, hashes⟩ := renderView_writes (fun name view =>
    renderContractHashView_writes (named.contractHashView name view) contractRows written) written
  obtain ⟨last, pairStep, all⟩ := renderView_writes (fun name view =>
    renderDelegatePairView_writes (named.delegatePairView name view) delegateRows hashes) hashes
  refine ⟨last, ?_, all⟩
  unfold Codegen.render
  rw [then_eq_pure, if_neg emits]
  refine ⟨accepted, bind_eq_pure.mpr ⟨first, canonicalStep, bind_eq_pure.mpr ⟨second, hashStep, ?_⟩⟩⟩
  exact pairStep

end FreenetMigrate.Build
