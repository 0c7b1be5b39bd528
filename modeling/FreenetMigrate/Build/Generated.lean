import FreenetMigrate.Build.Codegen
import FreenetMigrate.Rust.Path

namespace FreenetMigrate.Build

open Outcome Rust

/-! The generated program, token by token. -/

def hashTokens (hash : Fixed 32) : List Token :=
  mark '[' :: ([mark ','].intercalate (hash.toList.map fun b => [Token.int b.toNat []]) ++ [mark ']'])

def HASH_TYPE : List Token :=
  [mark '[', word "u8", mark ';', Token.int 32 [], mark ']']

def FOOTER : List Token := [mark ']', mark ';']

def HEADER : List Char := " @generated by freenet-migrate-build — do not edit.".toList

def headTokens (name : List Char) (type : List Token) : List Token :=
  [word "pub", word "const", Token.ident name, mark ':', mark '&', mark '['] ++
    type ++ [mark ']', mark '=', mark '&', mark '[']

def CONTRACT_ENTRY : List Char := "ContractLineageEntry".toList

def DELEGATE_ENTRY : List Char := "DelegateLineageEntry".toList

def contractTokens (type : List Token) (row : ContractConst) : List Token :=
  type ++ [mark '\x7b', word "generation", mark ':',
    Token.int row.generation.toNat "u32".toList, mark ',', word "code_hash", mark ':'] ++
  hashTokens row.codeHash ++ [mark ',', word "note", mark ':', Token.str row.note.toList,
    mark '\x7d']

def delegateTokens (type : List Token) (row : DelegateConst) : List Token :=
  type ++ [mark '\x7b', word "generation", mark ':',
    Token.int row.generation.toNat "u32".toList, mark ',', word "code_hash", mark ':'] ++
  hashTokens row.codeHash ++ [mark ',', word "delegate_key", mark ':'] ++
  hashTokens row.delegateKey ++ [mark ',', word "irregular_key", mark ':',
    word (fmtBool row.irregularKey), mark ',', word "note", mark ':',
    Token.str row.note.toList, mark '\x7d']

def pairTokens (pair : Fixed 32 × Fixed 32) : List Token :=
  mark '(' :: hashTokens pair.1 ++ mark ',' :: hashTokens pair.2 ++ [mark ')']

def noteTokens (note : String) : List Token :=
  if note.isEmpty then [] else [Token.comment (' ' :: (commentSafe note).toList)]

def PAIR_TYPE : List Token := mark '(' :: HASH_TYPE ++ mark ',' :: HASH_TYPE ++ [mark ')']

def constTokens {κ : Type} (name : List Char) (type : List Token) (rowTokens : κ → List Token)
    (rows : List κ) : List Token :=
  headTokens name type ++ (rows.flatMap fun row => rowTokens row ++ [mark ',']) ++ FOOTER

theorem toList_toString (n : Nat) : (toString n).toList = Nat.toDigits 10 n := by
  rw [Nat.toString_eq_repr, Nat.toList_repr]

theorem commentSafe_plain {note : String} {c : Char} (member : c ∈ (commentSafe note).toList) :
    c ≠ '\n' ∧ c ≠ '\r' := by
  rw [commentSafe, String.toList_ofList, List.mem_map] at member
  obtain ⟨d, -, rfl⟩ := member
  by_cases breaks : d = '\n' ∨ d = '\r'
  · rw [if_pos breaks]
    decide
  · rw [if_neg breaks]
    exact not_or.mp breaks

section Writing

variable [Xid]

def Codegen.canonicalTokens (config : Codegen) (path : Path) (contracts : List ContractConst)
    (delegates : List DelegateConst) : List Token :=
  constTokens (config.contractConst.getD "CONTRACT_LINEAGE").toList (path.item CONTRACT_ENTRY)
    (contractTokens (path.item CONTRACT_ENTRY)) contracts ++
  constTokens (config.delegateConst.getD "DELEGATE_LINEAGE").toList (path.item DELEGATE_ENTRY)
    (delegateTokens (path.item DELEGATE_ENTRY)) delegates

def hashViewTokens (contracts : List ContractConst) (name : String) : List Token :=
  constTokens name.toList HASH_TYPE (fun row => noteTokens row.note ++ hashTokens row.codeHash)
    contracts

def pairViewTokens (delegates : List DelegateConst) (name : String) : List Token :=
  constTokens name.toList PAIR_TYPE
    (fun row => noteTokens row.note ++ pairTokens (row.delegateKey, row.codeHash)) delegates

def Codegen.tokens (config : Codegen) (path : Path) (contracts : List ContractConst)
    (delegates : List DelegateConst) : List Token :=
  [Token.comment HEADER] ++
    (if config.canonical then config.canonicalTokens path contracts delegates else []) ++
    (config.contractHashView.map (hashViewTokens contracts)).getD [] ++
    (config.delegatePairView.map (pairViewTokens delegates)).getD []

/-- The names are identifiers, and the crate is named by a path. -/
structure Codegen.Named (config : Codegen) (path : Path) : Prop where
  contractConst : config.canonical = true →
    IsIdent (config.contractConst.getD "CONTRACT_LINEAGE").toList
  delegateConst : config.canonical = true →
    IsIdent (config.delegateConst.getD "DELEGATE_LINEAGE").toList
  cratePath : config.canonical = true →
    path.text = (config.cratePath.getD "::freenet_migrate").toList
  contractHashView : ∀ name, config.contractHashView = some name → IsIdent name.toList
  delegatePairView : ∀ name, config.delegatePairView = some name → IsIdent name.toList

def Writes (out : String) (tokens : List Token) : Prop := Lexes .ready out.toList tokens .ready

theorem Writes.push {out text : String} {tokens more : List Token} (writes : Writes out tokens)
    (lexes : Lexes .ready text.toList more .ready) : Writes (out ++ text) (tokens ++ more) := by
  unfold Writes
  rw [String.toList_append]
  exact writes.append lexes

theorem foldlM_writes {ρ κ : Type} {decodes : ρ → κ → Prop} {rows : List ρ} {consts : List κ}
    (decoded : List.Forall₂ decodes rows consts) {body : String → ρ → Outcome BuildError String}
    {text : κ → List Token}
    (each : ∀ row const out tokens, decodes row const → Writes out tokens →
      ∃ after, body out row = pure after ∧ Writes after (tokens ++ text const))
    {out : String} {tokens : List Token} (writes : Writes out tokens) :
    ∃ after, rows.foldlM body out = pure after ∧ Writes after (tokens ++ consts.flatMap text) := by
  induction decoded generalizing out tokens with
  | nil =>
    refine ⟨out, rfl, ?_⟩
    rwa [List.flatMap_nil, List.append_nil]
  | @cons row const rest others first tail ih =>
    obtain ⟨between, step, written⟩ := each row const out tokens first writes
    obtain ⟨after, steps, all⟩ := ih written
    refine ⟨after, ?_, ?_⟩
    · rw [List.foldlM_cons, bind_eq_pure]
      exact ⟨between, step, steps⟩
    · rwa [List.flatMap_cons, ← List.append_assoc]

theorem lexes_fmtBytes32 (hash : Fixed 32) :
    Lexes .ready (fmtBytes32 hash).toList (hashTokens hash) .ready := by
  have numbers (bytes : Bytes) : Lexes .ready
      (", ".toList.intercalate (bytes.map fun b => Nat.toDigits 10 b.toNat) ++ "]".toList)
      ([mark ','].intercalate (bytes.map fun b => [Token.int b.toNat []]) ++ [mark ']']) .ready := by
    induction bytes with
    | nil => exact ⟨by decide, rfl⟩
    | cons b rest ih =>
      have number := Lexes.number b.toNat
      cases rest with
      | nil =>
        have close : Lexes (.number b.toNat) "]".toList [Token.int b.toNat [], mark ']'] .ready :=
          ⟨by decide, rfl⟩
        simpa only [List.map_cons, List.map_nil, List.intercalate_singleton, List.nil_append,
          List.singleton_append] using number.append close
      | cons next others =>
        have comma : Lexes (.number b.toNat) ", ".toList [Token.int b.toNat [], mark ','] .ready :=
          ⟨by decide, rfl⟩
        have all := (number.append comma).append ih
        simpa only [List.map_cons, List.intercalate_cons_cons, List.append_assoc, List.nil_append,
          List.cons_append] using all
  have opened : Lexes .ready "[".toList [mark '['] .ready := ⟨by decide, rfl⟩
  have decimals : (hash.toList.map fun b => toString b.toNat).map String.toList =
      hash.toList.map fun b => Nat.toDigits 10 b.toNat := by
    rw [List.map_map]
    exact List.map_congr_left fun b _ => toList_toString b.toNat
  unfold fmtBytes32
  rw [String.toList_append, String.toList_append, String.toList_intercalate, decimals,
    List.append_assoc]
  exact opened.append (numbers hash.toList)

theorem lexes_rustStr (note : String) :
    Lexes .ready (rustStr note).toList [] (.quoted note.toList) := by
  have body : (String.ofList (escapeDefault note.toList)).toList = escapeDefault note.toList :=
    String.toList_ofList
  unfold rustStr
  rw [String.toList_append, String.toList_append, body, List.append_assoc]
  exact Lexes.quote note.toList

theorem lexes_decimal (n : Nat) : Lexes .ready (toString n).toList [] (.number n) := by
  rw [toList_toString]
  exact Lexes.number n

theorem lexes_name {name : String} (ident : IsIdent name.toList) :
    Lexes .ready ("pub const ".toList ++ name.toList) [word "pub", word "const"]
      (.word name.toList) := by
  have opened : Lexes .ready "pub const ".toList [word "pub", word "const"] .ready :=
    ⟨by decide, rfl⟩
  have named := opened.append (Lexes.ident ident)
  rwa [List.append_nil] at named

/-- A head is its name, and a text in which the name ends and the type stands. -/
theorem lexes_head {name text : String} {type : List Token} (ident : IsIdent name.toList)
    (typed : Lexes (.word name.toList) text.toList (word name :: mark ':' :: mark '&' :: mark '[' ::
      type ++ [mark ']', mark '=', mark '&', mark '[']) .ready) :
    Lexes .ready ("pub const " ++ name ++ text).toList (headTokens name.toList type) .ready := by
  rw [String.toList_append, String.toList_append]
  exact (lexes_name ident).append typed

theorem lexes_itemHead {path : Path} {name cratePath : String} (ident : IsIdent name.toList)
    (spelt : path.text = cratePath.toList) {entry : List Char} (entryIdent : IsIdent entry)
    (text : String) (split : text.toList = "::".toList ++ entry ++ "] = &[\n".toList) :
    Lexes .ready ("pub const " ++ name ++ ": &[" ++ cratePath ++ text).toList
      (headTokens name.toList (path.item entry)) .ready := by
  obtain ⟨before, item, below⟩ := path.lexes entryIdent
  have colon : Lexes (.word name.toList) ": &[".toList
      [word name, mark ':', mark '&', mark '['] .ready := ⟨by decide, rfl⟩
  have opened : Lexes (.word entry) "] = &[\n".toList
      [Token.ident entry, mark ']', mark '=', mark '&', mark '['] .ready := ⟨by decide, rfl⟩
  have typed := (colon.append below).append opened
  rw [String.append_assoc, String.append_assoc]
  apply lexes_head ident
  rw [String.toList_append, String.toList_append, split, ← spelt]
  simpa only [item, List.append_assoc, List.cons_append, List.nil_append] using typed

theorem lexes_entryHead {cratePath : String} (path : Path) (spelt : path.text = cratePath.toList)
    {entry : List Char} (entryIdent : IsIdent entry) (generation : Nat) :
    Lexes .ready ("    ".toList ++ (cratePath.toList ++ "::".toList ++ entry) ++
      " \x7b generation: ".toList ++ (toString generation).toList ++ "u32, code_hash: ".toList)
      (path.item entry ++ [mark '\x7b', word "generation", mark ':',
        Token.int generation "u32".toList, mark ',', word "code_hash", mark ':']) .ready := by
  obtain ⟨before, item, below⟩ := path.lexes entryIdent
  have indent : Lexes .ready "    ".toList [] .ready := ⟨by decide, rfl⟩
  have opened : Lexes (.word entry) " \x7b generation: ".toList
      [Token.ident entry, mark '\x7b', word "generation", mark ':'] .ready := ⟨by decide, rfl⟩
  have number : Lexes (.number generation) "u32, code_hash: ".toList
      [Token.int generation "u32".toList, mark ',', word "code_hash", mark ':'] .ready :=
    ⟨by decide, rfl⟩
  have head := (((indent.append below).append opened).append (lexes_decimal generation)).append number
  rw [← spelt]
  simpa only [item, List.append_assoc, List.cons_append, List.nil_append, List.append_nil] using head

theorem contractEntry_isIdent : IsIdent CONTRACT_ENTRY :=
  ⟨'C', _, rfl, rfl, List.all_eq_true.mp rfl⟩

theorem delegateEntry_isIdent : IsIdent DELEGATE_ENTRY :=
  ⟨'D', _, rfl, rfl, List.all_eq_true.mp rfl⟩

theorem lexes_footer : Lexes .ready "];\n\n".toList FOOTER .ready := ⟨by decide, rfl⟩

/-- A note above a row of a view is one comment, and ends where its line does. -/
theorem lexes_noteLine (note : String) :
    Lexes .ready (noteLine note).toList (noteTokens note) .ready := by
  unfold noteLine noteTokens
  by_cases silent : note.isEmpty = true
  · rw [if_pos silent, if_pos silent]
    exact .nil _
  · rw [if_neg silent, if_neg silent]
    have apart (c : Char) (other : c ≠ ' ') (breaks : c = '\n' ∨ c = '\r') :
        c ∉ ' ' :: (commentSafe note).toList := by
      intro member
      rcases List.mem_cons.mp member with same | member
      · exact other same
      · have plain := commentSafe_plain member
        rcases breaks with rfl | rfl
        · exact plain.1 rfl
        · exact plain.2 rfl
    have indent : Lexes .ready "    ".toList [] .ready := ⟨by decide, rfl⟩
    have comment := Lexes.commented (apart '\n' (by decide) (.inl rfl))
      (apart '\r' (by decide) (.inr rfl)) rfl
    rw [String.toList_append, String.toList_append, List.append_assoc]
    exact indent.append comment

theorem const_writes {ρ κ : Type} {decodes : ρ → κ → Prop} {rows : List ρ} {consts : List κ}
    (decoded : List.Forall₂ decodes rows consts) {body : String → ρ → Outcome BuildError String}
    {name : List Char} {type : List Token} {rowTokens : κ → List Token} {head : String}
    (opened : Lexes .ready head.toList (headTokens name type) .ready)
    (each : ∀ row const out tokens, decodes row const → Writes out tokens →
      ∃ after, body out row = pure after ∧ Writes after (tokens ++ (rowTokens const ++ [mark ','])))
    {out : String} {tokens : List Token} (writes : Writes out tokens) :
    ∃ after, rows.foldlM body (out ++ head) = pure after ∧
      Writes (after ++ "];\n\n") (tokens ++ constTokens name type rowTokens consts) := by
  obtain ⟨after, steps, written⟩ := foldlM_writes decoded each (writes.push opened)
  refine ⟨after, steps, ?_⟩
  have closed := written.push lexes_footer
  simpa only [constTokens, List.append_assoc] using closed

section Rows

variable [Bs58] {cratePath out : String} {path : Path} {tokens : List Token}

theorem renderContractRow_writes (spelt : path.text = cratePath.toList) {row : ContractRow}
    {const : ContractConst} (decodes : row.const = pure const) (writes : Writes out tokens) :
    ∃ after, renderContractRow cratePath out row = pure after ∧
      Writes after (tokens ++ (contractTokens (path.item CONTRACT_ENTRY) const ++ [mark ','])) := by
  obtain ⟨code, generation, note⟩ := ContractRow.const_eq_pure.mp decodes
  have head := lexes_entryHead path spelt contractEntry_isIdent const.generation.toNat
  have comma : Lexes .ready ", note: ".toList [mark ',', word "note", mark ':'] .ready :=
    ⟨by decide, rfl⟩
  have closed : Lexes (.quoted const.note.toList) " \x7d,\n".toList
      [Token.str const.note.toList, mark '\x7d', mark ','] .ready := ⟨by decide, rfl⟩
  have all := (((head.append (lexes_fmtBytes32 const.codeHash)).append comma).append
    (lexes_rustStr const.note)).append closed
  have split : "::ContractLineageEntry \x7b generation: ".toList =
      "::".toList ++ CONTRACT_ENTRY ++ " \x7b generation: ".toList := rfl
  refine ⟨_, bind_eq_pure.mpr ⟨_, code, rfl⟩, writes.push ?_⟩
  rw [← generation, ← note]
  simp only [String.toList_append, split]
  simpa only [contractTokens, List.append_assoc, List.cons_append, List.nil_append] using all

theorem renderDelegateRow_writes (spelt : path.text = cratePath.toList) {row : DelegateRow}
    {const : DelegateConst} (decodes : row.const = pure const) (writes : Writes out tokens) :
    ∃ after, renderDelegateRow cratePath out row = pure after ∧
      Writes after (tokens ++ (delegateTokens (path.item DELEGATE_ENTRY) const ++ [mark ','])) := by
  obtain ⟨code, key, generation, irregular, note⟩ := DelegateRow.const_eq_pure.mp decodes
  have head := lexes_entryHead path spelt delegateEntry_isIdent const.generation.toNat
  have keyField : Lexes .ready ", delegate_key: ".toList
      [mark ',', word "delegate_key", mark ':'] .ready := ⟨by decide, rfl⟩
  have flag : Lexes .ready (", irregular_key: ".toList ++ (fmtBool const.irregularKey).toList ++
      ", note: ".toList) [mark ',', word "irregular_key", mark ':',
        word (fmtBool const.irregularKey), mark ',', word "note", mark ':']
      .ready := by
    cases const.irregularKey <;> exact ⟨by decide, rfl⟩
  have closed : Lexes (.quoted const.note.toList) " \x7d,\n".toList
      [Token.str const.note.toList, mark '\x7d', mark ','] .ready := ⟨by decide, rfl⟩
  have hashes := ((head.append (lexes_fmtBytes32 const.codeHash)).append keyField).append
    (lexes_fmtBytes32 const.delegateKey)
  have all := ((hashes.append flag).append (lexes_rustStr const.note)).append closed
  have split : "::DelegateLineageEntry \x7b generation: ".toList =
      "::".toList ++ DELEGATE_ENTRY ++ " \x7b generation: ".toList := rfl
  refine ⟨_, bind_eq_pure.mpr ⟨_, code, bind_eq_pure.mpr ⟨_, key, rfl⟩⟩, writes.push ?_⟩
  rw [← generation, ← irregular, ← note]
  simp only [String.toList_append, split]
  simpa only [delegateTokens, List.append_assoc, List.cons_append, List.nil_append] using all

theorem renderHashRow_writes {row : ContractRow} {const : ContractConst}
    (decodes : row.const = pure const) (writes : Writes out tokens) :
    ∃ after, renderHashRow out row = pure after ∧
      Writes after (tokens ++ (noteTokens const.note ++ hashTokens const.codeHash ++ [mark ','])) := by
  obtain ⟨code, -, note⟩ := ContractRow.const_eq_pure.mp decodes
  have indent : Lexes .ready "    ".toList [] .ready := ⟨by decide, rfl⟩
  have closed : Lexes .ready ",\n".toList [mark ','] .ready := ⟨by decide, rfl⟩
  have line : Lexes .ready ("    " ++ fmtBytes32 const.codeHash ++ ",\n").toList
      (hashTokens const.codeHash ++ [mark ',']) .ready := by
    rw [String.toList_append, String.toList_append]
    exact (indent.append (lexes_fmtBytes32 const.codeHash)).append closed
  have written := (writes.push (lexes_noteLine const.note)).push line
  refine ⟨_, bind_eq_pure.mpr ⟨_, code, rfl⟩, ?_⟩
  rw [← note]
  simpa only [List.append_assoc] using written

theorem renderPairRow_writes {row : DelegateRow} {const : DelegateConst}
    (decodes : row.const = pure const) (writes : Writes out tokens) :
    ∃ after, renderPairRow out row = pure after ∧ Writes after (tokens ++
      (noteTokens const.note ++ pairTokens (const.delegateKey, const.codeHash) ++ [mark ','])) := by
  obtain ⟨code, key, -, -, note⟩ := DelegateRow.const_eq_pure.mp decodes
  have opened : Lexes .ready "    (".toList [mark '('] .ready := ⟨by decide, rfl⟩
  have comma : Lexes .ready ", ".toList [mark ','] .ready := ⟨by decide, rfl⟩
  have closed : Lexes .ready "),\n".toList [mark ')', mark ','] .ready := ⟨by decide, rfl⟩
  have all := (((opened.append (lexes_fmtBytes32 const.delegateKey)).append comma).append
    (lexes_fmtBytes32 const.codeHash)).append closed
  have line : Lexes .ready ("    (" ++ fmtBytes32 const.delegateKey ++ ", " ++
      fmtBytes32 const.codeHash ++ "),\n").toList
      (pairTokens (const.delegateKey, const.codeHash) ++ [mark ',']) .ready := by
    simp only [String.toList_append]
    simpa only [pairTokens, List.append_assoc, List.cons_append, List.nil_append] using all
  have written := (writes.push (lexes_noteLine const.note)).push line
  refine ⟨_, bind_eq_pure.mpr ⟨_, key, bind_eq_pure.mpr ⟨_, code, rfl⟩⟩, ?_⟩
  rw [← note]
  simpa only [List.append_assoc] using written

end Rows

end Writing
end FreenetMigrate.Build
