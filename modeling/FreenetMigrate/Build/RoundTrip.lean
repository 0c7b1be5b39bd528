import FreenetMigrate.Build.Readback
import FreenetMigrate.Build.Identity

namespace FreenetMigrate.Build

open Outcome Rust Reader

def isCode : Token → Bool
  | Token.comment _ => false
  | _ => true

def commentText : Token → Option (List Char)
  | Token.comment text => some text
  | _ => none

def code (tokens : List Token) : List Token := tokens.filter isCode

def comments (tokens : List Token) : List (List Char) := tokens.filterMap commentText

theorem code_append (front back : List Token) : code (front ++ back) = code front ++ code back :=
  List.filter_append front back

theorem comments_append (front back : List Token) :
    comments (front ++ back) = comments front ++ comments back := List.filterMap_append

def Plain (tokens : List Token) : Prop := tokens.all isCode = true

namespace Plain

variable {tokens : List Token}

theorem append_iff {front back : List Token} : Plain (front ++ back) ↔ Plain front ∧ Plain back := by
  unfold Plain
  rw [List.all_append, Bool.and_eq_true]

theorem cons_iff {token : Token} {back : List Token} :
    Plain (token :: back) ↔ isCode token = true ∧ Plain back := by
  unfold Plain
  rw [List.all_cons, Bool.and_eq_true]

theorem nil : Plain [] := rfl

theorem code_eq (plain : Plain tokens) : code tokens = tokens :=
  List.filter_eq_self.mpr (List.all_eq_true.mp plain)

theorem comments_eq (plain : Plain tokens) : comments tokens = [] := by
  apply List.filterMap_eq_nil_iff.mpr
  intro token member
  have here := List.all_eq_true.mp plain token member
  cases token with
  | comment text => cases here
  | _ => rfl

theorem hashTokens (hash : Fixed 32) : Plain (hashTokens hash) := by
  have bytes (bytes : Bytes) :
      Plain ([mark ','].intercalate (bytes.map fun b => [Token.int b.toNat []])) := by
    induction bytes with
    | nil => exact nil
    | cons b rest ih =>
      cases rest with
      | nil => exact cons_iff.mpr ⟨rfl, nil⟩
      | cons next others =>
        rw [List.map_cons, List.map_cons, List.intercalate_cons_cons, append_iff]
        exact ⟨rfl, ih⟩
  rw [Build.hashTokens, cons_iff, append_iff]
  exact ⟨rfl, bytes hash.toList, rfl⟩

theorem contractTokens {type : List Token} (plain : Plain type) (row : ContractConst) :
    Plain (contractTokens type row) := by
  rw [Build.contractTokens, append_iff, append_iff, append_iff]
  exact ⟨⟨⟨plain, rfl⟩, hashTokens row.codeHash⟩, rfl⟩

theorem delegateTokens {type : List Token} (plain : Plain type) (row : DelegateConst) :
    Plain (delegateTokens type row) := by
  rw [Build.delegateTokens, append_iff, append_iff, append_iff, append_iff, append_iff]
  exact ⟨⟨⟨⟨⟨plain, rfl⟩, hashTokens row.codeHash⟩, rfl⟩, hashTokens row.delegateKey⟩, rfl⟩

theorem pairTokens (pair : Fixed 32 × Fixed 32) : Plain (pairTokens pair) := by
  rw [Build.pairTokens, append_iff, append_iff, cons_iff, cons_iff]
  exact ⟨⟨⟨rfl, hashTokens pair.1⟩, rfl, hashTokens pair.2⟩, rfl⟩

theorem item [Xid] (path : Path) (entry : List Char) : Plain (path.item entry) := by
  have root : Plain (path.root Path.SEPARATOR) := by
    unfold Path.root
    cases path.rooted <;> rfl
  have segments : Plain (path.segments.flatMap fun segment => Token.ident segment :: Path.SEPARATOR) := by
    rw [Plain, List.all_flatMap]
    exact List.all_eq_true.mpr fun segment _ => rfl
  rw [Path.item, append_iff, append_iff]
  exact ⟨⟨root, segments⟩, rfl⟩

theorem headTokens {type : List Token} (plain : Plain type) (name : List Char) :
    Plain (headTokens name type) := by
  rw [Build.headTokens, append_iff, append_iff]
  exact ⟨⟨rfl, plain⟩, rfl⟩

theorem constTokens {κ : Type} {type : List Token} (plain : Plain type) (name : List Char)
    {rowTokens : κ → List Token} (each : ∀ row, Plain (rowTokens row)) (rows : List κ) :
    Plain (constTokens name type rowTokens rows) := by
  have listed : Plain (rows.flatMap fun row => rowTokens row ++ [mark ',']) := by
    rw [Plain, List.all_flatMap]
    exact List.all_eq_true.mpr fun row _ => append_iff.mpr ⟨each row, rfl⟩
  rw [Build.constTokens, append_iff, append_iff]
  exact ⟨⟨headTokens plain name, listed⟩, rfl⟩

end Plain

theorem code_constTokens {κ : Type} {type : List Token} (plain : Plain type) (name : List Char)
    (rowTokens : κ → List Token) (rows : List κ) :
    code (constTokens name type rowTokens rows) =
      constTokens name type (fun row => code (rowTokens row)) rows := by
  have head := (plain.headTokens name).code_eq
  have each : code (rows.flatMap fun row => rowTokens row ++ [mark ',']) =
      rows.flatMap fun row => code (rowTokens row) ++ [mark ','] := by
    unfold code
    rw [List.filter_flatMap]
    simp only [List.filter_append]
    rfl
  unfold constTokens
  rw [code_append, code_append, head, each]
  rfl

theorem comments_constTokens {κ : Type} {type : List Token} (plain : Plain type) (name : List Char)
    (rowTokens : κ → List Token) (rows : List κ) :
    comments (constTokens name type rowTokens rows) =
      rows.flatMap fun row => comments (rowTokens row) := by
  have head := (plain.headTokens name).comments_eq
  have footer : comments FOOTER = [] := rfl
  have each : comments (rows.flatMap fun row => rowTokens row ++ [mark ',']) =
      rows.flatMap fun row => comments (rowTokens row) := by
    unfold comments
    rw [List.filterMap_flatMap]
    simp only [List.filterMap_append]
    apply List.flatMap_congr
    intro row _
    exact List.append_nil _
  unfold constTokens
  rw [comments_append, comments_append, head, footer, each, List.nil_append, List.append_nil]

def Codegen.consts (config : Codegen) (contracts : List ContractConst)
    (delegates : List DelegateConst) : List Const :=
  (if config.canonical then
    [.contracts (config.contractConst.getD "CONTRACT_LINEAGE") contracts,
      .delegates (config.delegateConst.getD "DELEGATE_LINEAGE") delegates]
  else []) ++
  (config.contractHashView.map fun name => Const.hashes name (contracts.map (·.codeHash))).toList ++
  (config.delegatePairView.map fun name =>
    Const.pairs name (delegates.map fun row => (row.delegateKey, row.codeHash))).toList

def noteComments (notes : List String) : List (List Char) :=
  (notes.filter fun note => !note.isEmpty).map fun note => ' ' :: (commentSafe note).toList

def Codegen.comments (config : Codegen) (contracts : List ContractConst)
    (delegates : List DelegateConst) : List (List Char) :=
  [HEADER] ++
  (config.contractHashView.map fun _ => noteComments (contracts.map (·.note))).getD [] ++
  (config.delegatePairView.map fun _ => noteComments (delegates.map (·.note))).getD []

theorem code_noteTokens (note : String) : code (noteTokens note) = [] := by
  unfold noteTokens
  split <;> rfl

theorem comments_noteTokens (notes : List String) :
    (notes.flatMap fun note => comments (noteTokens note)) = noteComments notes := by
  induction notes with
  | nil => rfl
  | cons note rest ih =>
    unfold noteComments at ih ⊢
    rw [List.flatMap_cons, ih]
    unfold noteTokens
    by_cases silent : note.isEmpty = true
    · rw [if_pos silent, List.filter_cons_of_neg (by simpa using silent)]
      rfl
    · rw [if_neg silent, List.filter_cons_of_pos (by simpa using silent)]
      rfl

section Reading

variable (contracts : List ContractConst) (delegates : List DelegateConst)

theorem comments_hashView (name : String) :
    comments (hashViewTokens contracts name) = noteComments (contracts.map (·.note)) := by
  have type : Plain HASH_TYPE := rfl
  rw [hashViewTokens, comments_constTokens type, ← comments_noteTokens, List.flatMap_map]
  apply List.flatMap_congr
  intro row _
  rw [comments_append, (Plain.hashTokens row.codeHash).comments_eq, List.append_nil]

theorem comments_pairView (name : String) :
    comments (pairViewTokens delegates name) = noteComments (delegates.map (·.note)) := by
  have type : Plain PAIR_TYPE := rfl
  rw [pairViewTokens, comments_constTokens type, ← comments_noteTokens, List.flatMap_map]
  apply List.flatMap_congr
  intro row _
  rw [comments_append, (Plain.pairTokens _).comments_eq, List.append_nil]

variable [Xid] (path : Path)

theorem code_hashView (name : String) : code (hashViewTokens contracts name) =
    (Const.hashes name (contracts.map (·.codeHash))).tokens path := by
  have rows : (fun row : ContractConst => code (noteTokens row.note ++ hashTokens row.codeHash)) =
      fun row => hashTokens row.codeHash := by
    funext row
    rw [code_append, code_noteTokens, (Plain.hashTokens row.codeHash).code_eq, List.nil_append]
  have type : Plain HASH_TYPE := rfl
  rw [hashViewTokens, code_constTokens type, rows, Const.tokens, constTokens, constTokens,
    List.flatMap_map]

theorem code_pairView (name : String) : code (pairViewTokens delegates name) =
    (Const.pairs name (delegates.map fun row => (row.delegateKey, row.codeHash))).tokens path := by
  have rows : (fun row : DelegateConst =>
      code (noteTokens row.note ++ pairTokens (row.delegateKey, row.codeHash))) =
      fun row => pairTokens (row.delegateKey, row.codeHash) := by
    funext row
    rw [code_append, code_noteTokens, (Plain.pairTokens _).code_eq, List.nil_append]
  have type : Plain PAIR_TYPE := rfl
  rw [pairViewTokens, code_constTokens type, rows, Const.tokens, constTokens, constTokens,
    List.flatMap_map]

theorem plain_contracts (name : String) : Plain ((Const.contracts name contracts).tokens path) :=
  .constTokens (.item path CONTRACT_ENTRY) name.toList (.contractTokens (.item path CONTRACT_ENTRY))
    contracts

theorem plain_delegates (name : String) : Plain ((Const.delegates name delegates).tokens path) :=
  .constTokens (.item path DELEGATE_ENTRY) name.toList (.delegateTokens (.item path DELEGATE_ENTRY))
    delegates

theorem plain_canonical (config : Codegen) : Plain (config.canonicalTokens path contracts delegates) :=
  Plain.append_iff.mpr ⟨plain_contracts contracts path _, plain_delegates delegates path _⟩

theorem code_tokens (config : Codegen) : code (config.tokens path contracts delegates) =
    (config.consts contracts delegates).flatMap (Const.tokens path) := by
  have canonical : code (if config.canonical then config.canonicalTokens path contracts delegates else []) =
      (if config.canonical then
        [Const.contracts (config.contractConst.getD "CONTRACT_LINEAGE") contracts,
          Const.delegates (config.delegateConst.getD "DELEGATE_LINEAGE") delegates]
      else []).flatMap (Const.tokens path) := by
    cases config.canonical with
    | true =>
      simp only [if_true, (plain_canonical contracts delegates path config).code_eq, List.flatMap_cons,
        List.flatMap_nil, List.append_nil]
      rfl
    | false => rfl
  have hashes : code ((config.contractHashView.map (hashViewTokens contracts)).getD []) =
      (config.contractHashView.map fun name =>
        Const.hashes name (contracts.map (·.codeHash))).toList.flatMap (Const.tokens path) := by
    cases config.contractHashView with
    | none => rfl
    | some name => simp [code_hashView contracts path]
  have pairs : code ((config.delegatePairView.map (pairViewTokens delegates)).getD []) =
      (config.delegatePairView.map fun name =>
        Const.pairs name (delegates.map fun row => (row.delegateKey, row.codeHash))).toList.flatMap
          (Const.tokens path) := by
    cases config.delegatePairView with
    | none => rfl
    | some name => simp [code_pairView delegates path]
  have header : code [.comment HEADER] = [] := rfl
  rw [Codegen.tokens, code_append, code_append, code_append, header, canonical, hashes, pairs,
    Codegen.consts, List.flatMap_append, List.flatMap_append, List.nil_append]

theorem comments_tokens (config : Codegen) :
    comments (config.tokens path contracts delegates) = config.comments contracts delegates := by
  have canonical :
      comments (if config.canonical then config.canonicalTokens path contracts delegates else []) = [] := by
    cases config.canonical with
    | true => exact (plain_canonical contracts delegates path config).comments_eq
    | false => rfl
  have hashes : comments ((config.contractHashView.map (hashViewTokens contracts)).getD []) =
      (config.contractHashView.map fun _ => noteComments (contracts.map (·.note))).getD [] := by
    cases config.contractHashView with
    | none => rfl
    | some name => exact comments_hashView contracts name
  have pairs : comments ((config.delegatePairView.map (pairViewTokens delegates)).getD []) =
      (config.delegatePairView.map fun _ => noteComments (delegates.map (·.note))).getD [] := by
    cases config.delegatePairView with
    | none => rfl
    | some name => exact comments_pairView delegates name
  have header : comments [.comment HEADER] = [HEADER] := rfl
  rw [Codegen.tokens, comments_append, comments_append, comments_append, header, canonical, hashes, pairs,
    Codegen.comments, List.append_nil]

/-- The program that is generated, read by its literals, has the rows of the registry in order. A note
    is the content of a string, or a comment of one line; no other token has anything of it. -/
theorem generated_reads_back [Bs58] [Blake3] {config : Codegen} (named : config.Named path)
    {registry : Registry} (accepted : registry.validate = pure ()) :
    ∃ contracts delegates, registry.contractLineage = pure contracts ∧
      registry.delegateLineage = pure delegates ∧
      (config.EmitsNothing → config.render registry = throw .nothingToEmit) ∧
      (¬ config.EmitsNothing → ∃ text, config.render registry = pure text ∧
        let tokens := config.tokens path contracts delegates
        lex text.toList = some tokens ∧
        whole readConst (code tokens) = some (config.consts contracts delegates) ∧
        comments tokens = config.comments contracts delegates) := by
  have valid := registry.validate_eq_pure.mp accepted
  obtain ⟨contracts, contractRows⟩ := valid.contractLineage
  obtain ⟨delegates, delegateRows⟩ := valid.delegateLineage
  refine ⟨contracts, delegates, contractRows, delegateRows, ?_, ?_⟩
  · intro nothing
    unfold Codegen.render
    rw [accepted, pure_bind, if_pos nothing]
  · intro emits
    obtain ⟨text, renders, writes⟩ := render_writes named accepted emits contractRows delegateRows
    refine ⟨text, renders, writes.lex_eq, ?_, comments_tokens contracts delegates path config⟩
    rw [code_tokens contracts delegates path config]
    apply whole_eq
    intro const _
    refine ⟨?_, readConst_reads path const⟩
    cases const <;> simp [Const.tokens, constTokens, headTokens]

end Reading

section Samples

local instance : Bs58 := standardBs58

local instance : Blake3 := riverDigests

local instance asciiXid : Xid := ⟨fun _ => false, fun _ => false⟩

def riverCodegen : Codegen := { codegen with delegatePairView := some "LEGACY_DELEGATES" }

def cratePath : Path where
  rooted := true
  segments := ["freenet_migrate".toList]
  nonempty := List.cons_ne_nil _ _
  idents := List.forall_mem_singleton.mpr ⟨'f', _, rfl, rfl, List.all_eq_true.mp rfl⟩

theorem riverCodegen_named : riverCodegen.Named cratePath where
  contractConst _ := ⟨'C', _, rfl, rfl, List.all_eq_true.mp rfl⟩
  delegateConst _ := ⟨'D', _, rfl, rfl, List.all_eq_true.mp rfl⟩
  cratePath _ := rfl
  contractHashView _ view := by cases view
  delegatePairView _ view := by
    obtain rfl := Option.some.inj view
    exact ⟨'L', _, rfl, rfl, List.all_eq_true.mp rfl⟩

theorem generated_reads_back_river :
    let first : DelegateConst := ⟨1, riverV1CodeHash, riverV1DelegateKey, true, "V1"⟩
    let second : DelegateConst := ⟨2, riverV2CodeHash, riverV2DelegateKey, false, "V2"⟩
    ∃ text tokens, riverCodegen.render (riverRegistry
        "e3ad5c5b1a821089536be84d674329b37f46d2fba3e7026008fae85f3556511f" false) = pure text ∧
      lex text.toList = some tokens ∧
      whole readConst (code tokens) = some [.contracts "CONTRACT_LINEAGE" [],
        .delegates "DELEGATE_LINEAGE" [first, second],
        .pairs "LEGACY_DELEGATES" [(riverV1DelegateKey, riverV1CodeHash),
          (riverV2DelegateKey, riverV2CodeHash)]] ∧
      comments tokens = [HEADER, " V1".toList, " V2".toList] := by
  obtain ⟨contracts, delegates, contractRows, delegateRows, -, emits⟩ := generated_reads_back cratePath
    riverCodegen_named (riverRegistry_accepted riverV2_delegateKey (iff_of_true rfl rfl))
  obtain rfl := pure_inj.mp contractRows
  rw [riverRegistry_delegateLineage riverV2_delegateKey, pure_inj] at delegateRows
  subst delegateRows
  obtain ⟨text, renders, lexes, reads, passed⟩ := emits (by decide)
  exact ⟨text, _, renders, lexes, reads, passed⟩

end Samples
end FreenetMigrate.Build
