import FreenetMigrate.Build.Rendering
import FreenetMigrate.Rust.Reader

namespace FreenetMigrate.Build

open Outcome Rust Reader

/-! What the literals of the generated consts say, read off the tokens that are not comments. -/

inductive Const
  | contracts (name : String) (rows : List ContractConst)
  | delegates (name : String) (rows : List DelegateConst)
  | hashes (name : String) (rows : List (Fixed 32))
  | pairs (name : String) (rows : List (Fixed 32 × Fixed 32))
  deriving DecidableEq

def readIdent : Reader Token String := accept fun
  | Token.ident name => some (.ofList name)
  | _ => none

def readU8 : Reader Token UInt8 := accept fun
  | Token.int value [] => if value < 256 then some (.ofNat value) else none
  | _ => none

def readU32 : Reader Token UInt32 := accept fun
  | Token.int value suffix =>
    if suffix = "u32".toList ∧ value < 4294967296 then some (.ofNat value) else none
  | _ => none

def readBool : Reader Token Bool := accept fun
  | Token.ident name =>
    if name = "true".toList then some true else if name = "false".toList then some false else none
  | _ => none

def readStr : Reader Token String := accept fun
  | Token.str content => some (.ofList content)
  | _ => none

def readHash : Reader Token (Fixed 32) := do
  expect [mark '[']
  let bytes ← separated (mark ',') (mark ']') readU8
  if length : bytes.length = 32 then return ⟨bytes, length⟩ else failure

def readContract (type : List Token) : Reader Token ContractConst := do
  expect (type ++ [mark '\x7b', word "generation", mark ':'])
  let generation ← readU32
  expect [mark ',', word "code_hash", mark ':']
  let codeHash ← readHash
  expect [mark ',', word "note", mark ':']
  let note ← readStr
  expect [mark '\x7d']
  return ⟨generation, codeHash, note⟩

def readDelegate (type : List Token) : Reader Token DelegateConst := do
  expect (type ++ [mark '\x7b', word "generation", mark ':'])
  let generation ← readU32
  expect [mark ',', word "code_hash", mark ':']
  let codeHash ← readHash
  expect [mark ',', word "delegate_key", mark ':']
  let delegateKey ← readHash
  expect [mark ',', word "irregular_key", mark ':']
  let irregularKey ← readBool
  expect [mark ',', word "note", mark ':']
  let note ← readStr
  expect [mark '\x7d']
  return ⟨generation, codeHash, delegateKey, irregularKey, note⟩

def readPair : Reader Token (Fixed 32 × Fixed 32) := do
  expect [mark '(']
  let first ← readHash
  expect [mark ',']
  let second ← readHash
  expect [mark ')']
  return (first, second)

def readRows {κ : Type} (row : Reader Token κ) : Reader Token (List κ) := do
  expect [mark '=', mark '&', mark '[']
  let rows ← separated (mark ',') (mark ']') row
  expect [mark ';']
  return rows

/-- A const. The path of a struct is the same in its type and in its rows. -/
def readConst : Reader Token Const := do
  expect [word "pub", word "const"]
  let name ← readIdent
  expect [mark ':', mark '&', mark '[']
  ahead fun next =>
    if next = some (mark '[') then do
      expect (HASH_TYPE ++ [mark ']'])
      return .hashes name (← readRows readHash)
    else if next = some (mark '(') then do
      expect (PAIR_TYPE ++ [mark ']'])
      return .pairs name (← readRows readPair)
    else do
      let type ← upTo (mark ']')
      if type.getLast? = some (Token.ident CONTRACT_ENTRY) then
        return .contracts name (← readRows (readContract type))
      else if type.getLast? = some (Token.ident DELEGATE_ENTRY) then
        return .delegates name (← readRows (readDelegate type))
      else failure

theorem readU8_reads (b : UInt8) : ReadsBack readU8 [Token.int b.toNat []] b := by
  apply ReadsBack.accept
  dsimp only
  rw [if_pos b.toNat_lt, UInt8.ofNat_toNat]

theorem readU32_reads (n : UInt32) : ReadsBack readU32 [Token.int n.toNat "u32".toList] n := by
  apply ReadsBack.accept
  dsimp only
  rw [if_pos ⟨rfl, n.toNat_lt⟩, UInt32.ofNat_toNat]

theorem readBool_reads (b : Bool) : ReadsBack readBool [word (fmtBool b)] b := by
  apply ReadsBack.accept
  cases b <;> rfl

theorem readStr_reads (note : String) : ReadsBack readStr [Token.str note.toList] note :=
  ReadsBack.accept (congrArg some String.ofList_toList)

theorem readIdent_reads (name : String) : ReadsBack readIdent [word name] name :=
  ReadsBack.accept (congrArg some String.ofList_toList)

theorem listed_bytes (bytes : Bytes) : Listed readU8 (mark ',') (mark ']') bytes
    ([mark ','].intercalate (bytes.map fun b => [Token.int b.toNat []]) ++ [mark ']']) := by
  induction bytes with
  | nil => exact .nil
  | cons b rest ih =>
    have goesOn : Token.int b.toNat [] ≠ mark ']' := by simp
    cases rest with
    | nil => exact .last (readU8_reads b) goesOn
    | cons next others => exact .cons (readU8_reads b) goesOn ih

theorem readHash_reads (hash : Fixed 32) : ReadsBack readHash (hashTokens hash) hash := by
  have pieces : hashTokens hash = [mark '['] ++
      (([mark ','].intercalate (hash.toList.map fun b => [Token.int b.toNat []]) ++ [mark ']']) ++
        []) := by
    simp only [hashTokens, List.append_nil, List.singleton_append]
  rw [pieces]
  refine (ReadsBack.expect _).bind ?_
  refine ((listed_bytes hash.toList).reads (by decide)).bind ?_
  rw [dif_pos hash.length_toList]
  exact ReadsBack.pure hash

theorem readContract_reads (type : List Token) (row : ContractConst) :
    ReadsBack (readContract type) (contractTokens type row) row := by
  have pieces : contractTokens type row =
      (type ++ [mark '\x7b', word "generation", mark ':']) ++
        ([Token.int row.generation.toNat "u32".toList] ++
          ([mark ',', word "code_hash", mark ':'] ++ (hashTokens row.codeHash ++
            ([mark ',', word "note", mark ':'] ++
              ([Token.str row.note.toList] ++ ([mark '\x7d'] ++ [])))))) := by
    simp only [contractTokens, List.append_assoc, List.cons_append, List.nil_append]
  rw [pieces]
  unfold readContract
  refine (ReadsBack.expect _).bind ?_
  refine (readU32_reads row.generation).bind ?_
  refine (ReadsBack.expect _).bind ?_
  refine (readHash_reads row.codeHash).bind ?_
  refine (ReadsBack.expect _).bind ?_
  refine (readStr_reads row.note).bind ?_
  refine (ReadsBack.expect _).bind ?_
  exact ReadsBack.pure row

theorem readDelegate_reads (type : List Token) (row : DelegateConst) :
    ReadsBack (readDelegate type) (delegateTokens type row) row := by
  have pieces : delegateTokens type row =
      (type ++ [mark '\x7b', word "generation", mark ':']) ++
        ([Token.int row.generation.toNat "u32".toList] ++
          ([mark ',', word "code_hash", mark ':'] ++ (hashTokens row.codeHash ++
            ([mark ',', word "delegate_key", mark ':'] ++ (hashTokens row.delegateKey ++
              ([mark ',', word "irregular_key", mark ':'] ++
                ([word (fmtBool row.irregularKey)] ++
                  ([mark ',', word "note", mark ':'] ++
                    ([Token.str row.note.toList] ++ ([mark '\x7d'] ++ [])))))))))) := by
    simp only [delegateTokens, List.append_assoc, List.cons_append, List.nil_append]
  rw [pieces]
  unfold readDelegate
  refine (ReadsBack.expect _).bind ?_
  refine (readU32_reads row.generation).bind ?_
  refine (ReadsBack.expect _).bind ?_
  refine (readHash_reads row.codeHash).bind ?_
  refine (ReadsBack.expect _).bind ?_
  refine (readHash_reads row.delegateKey).bind ?_
  refine (ReadsBack.expect _).bind ?_
  refine (readBool_reads row.irregularKey).bind ?_
  refine (ReadsBack.expect _).bind ?_
  refine (readStr_reads row.note).bind ?_
  refine (ReadsBack.expect _).bind ?_
  exact ReadsBack.pure row

theorem readPair_reads (pair : Fixed 32 × Fixed 32) :
    ReadsBack readPair (pairTokens pair) pair := by
  have pieces : pairTokens pair = [mark '('] ++ (hashTokens pair.1 ++
      ([mark ','] ++ (hashTokens pair.2 ++ ([mark ')'] ++ [])))) := by
    simp only [pairTokens, List.append_assoc, List.cons_append, List.nil_append]
  rw [pieces]
  refine (ReadsBack.expect _).bind ?_
  refine (readHash_reads pair.1).bind ?_
  refine (ReadsBack.expect _).bind ?_
  refine (readHash_reads pair.2).bind ?_
  refine (ReadsBack.expect _).bind ?_
  exact ReadsBack.pure pair

/-- The rows of a const, none of which begins with the bracket that closes it. -/
theorem readRows_reads {κ : Type} {row : Reader Token κ} (rowTokens : κ → List Token) (rows : List κ)
    (each : ∀ item ∈ rows, ∃ token front, rowTokens item = token :: front ∧ token ≠ mark ']' ∧
      ReadsBack row (rowTokens item) item) :
    ReadsBack (readRows row) ([mark '=', mark '&', mark '['] ++
      ((rows.flatMap fun item => rowTokens item ++ [mark ',']) ++ FOOTER)) rows := by
  have pieces : (rows.flatMap fun item => rowTokens item ++ [mark ',']) ++ FOOTER =
      ((rows.flatMap fun item => rowTokens item ++ [mark ',']) ++ [mark ']']) ++
        ([mark ';'] ++ []) := by
    simp [FOOTER]
  rw [pieces]
  refine (ReadsBack.expect _).bind ?_
  refine ((Listed.trailing each).reads (by decide)).bind ?_
  refine (ReadsBack.expect _).bind ?_
  exact ReadsBack.pure rows

section Consts

variable [Xid] (path : Path)

def Const.tokens : Const → List Token
  | .contracts name rows => constTokens name.toList (path.item CONTRACT_ENTRY)
      (contractTokens (path.item CONTRACT_ENTRY)) rows
  | .delegates name rows => constTokens name.toList (path.item DELEGATE_ENTRY)
      (delegateTokens (path.item DELEGATE_ENTRY)) rows
  | .hashes name rows => constTokens name.toList HASH_TYPE hashTokens rows
  | .pairs name rows => constTokens name.toList PAIR_TYPE pairTokens rows

theorem ahead_item {entry : List Char} {back : List Token} {bracketed parenthesized : Reader Token Const}
    {named : List Token → Reader Token Const} {const : Const}
    (reads : ReadsBack (named (path.item entry)) back const) :
    ReadsBack (ahead fun next =>
      if next = some (mark '[') then bracketed
      else if next = some (mark '(') then parenthesized
      else upTo (mark ']') >>= named) ((path.item entry ++ [mark ']']) ++ back) const := by
  have type := ReadsBack.upTo (path.punct_not_mem entry (show ']' ≠ ':' by decide))
  have noBracket := path.punct_not_mem entry (show '[' ≠ ':' by decide)
  have noParenthesis := path.punct_not_mem entry (show '(' ≠ ':' by decide)
  obtain ⟨token, front, starts⟩ := path.item_eq_cons entry
  have whole := type.bind reads
  rw [starts] at whole noBracket noParenthesis ⊢
  apply ReadsBack.ahead
  rw [if_neg, if_neg]
  · exact whole
  · rintro ⟨⟩
    exact noParenthesis (List.mem_cons_self ..)
  · rintro ⟨⟩
    exact noBracket (List.mem_cons_self ..)

theorem readConst_reads (const : Const) : ReadsBack readConst (const.tokens path) const := by
  have pieces {κ : Type} (name : String) (type : List Token) (rowTokens : κ → List Token) (rows : List κ) :
      constTokens name.toList type rowTokens rows =
        [word "pub", word "const"] ++ ([word name] ++
          ([mark ':', mark '&', mark '['] ++ ((type ++ [mark ']']) ++
            (([mark '=', mark '&', mark '['] ++
              ((rows.flatMap fun item => rowTokens item ++ [mark ',']) ++ FOOTER)) ++ [])))) := by
    simp only [constTokens, headTokens, List.append_assoc, List.cons_append, List.nil_append,
      List.append_nil]
  have goesOn (entry : List Char) : ∃ token front, path.item entry = token :: front ∧ token ≠ mark ']' := by
    obtain ⟨token, front, starts⟩ := path.item_eq_cons entry
    refine ⟨token, front, starts, ?_⟩
    rintro rfl
    exact path.punct_not_mem entry (by decide) (starts ▸ List.mem_cons_self ..)
  cases const with
  | hashes name rows =>
    have list := readRows_reads hashTokens rows fun hash _ =>
      ⟨_, _, rfl, by decide, readHash_reads hash⟩
    rw [Const.tokens, pieces, readConst]
    refine (ReadsBack.expect _).bind ?_
    refine (readIdent_reads name).bind ?_
    refine (ReadsBack.expect _).bind ?_
    apply ReadsBack.ahead
    rw [if_pos rfl]
    refine (ReadsBack.expect (HASH_TYPE ++ [mark ']'])).bind ?_
    exact list.bind (ReadsBack.pure _)
  | pairs name rows =>
    have list := readRows_reads pairTokens rows fun pair _ =>
      ⟨_, _, rfl, by decide, readPair_reads pair⟩
    rw [Const.tokens, pieces, readConst]
    refine (ReadsBack.expect _).bind ?_
    refine (readIdent_reads name).bind ?_
    refine (ReadsBack.expect _).bind ?_
    apply ReadsBack.ahead
    rw [if_neg (by decide), if_pos rfl]
    refine (ReadsBack.expect (PAIR_TYPE ++ [mark ']'])).bind ?_
    exact list.bind (ReadsBack.pure _)
  | contracts name rows =>
    have list := readRows_reads (contractTokens (path.item CONTRACT_ENTRY)) rows
      fun row _ => by
        obtain ⟨token, front, starts, apart⟩ := goesOn CONTRACT_ENTRY
        refine ⟨token, (contractTokens (path.item CONTRACT_ENTRY) row).tail, ?_, apart,
          readContract_reads _ row⟩
        rw [contractTokens, starts]
        rfl
    rw [Const.tokens, pieces, readConst]
    refine (ReadsBack.expect _).bind ?_
    refine (readIdent_reads name).bind ?_
    refine (ReadsBack.expect _).bind ?_
    apply ahead_item
    rw [if_pos (path.getLast_item CONTRACT_ENTRY)]
    exact list.bind (ReadsBack.pure _)
  | delegates name rows =>
    have list := readRows_reads (delegateTokens (path.item DELEGATE_ENTRY)) rows
      fun row _ => by
        obtain ⟨token, front, starts, apart⟩ := goesOn DELEGATE_ENTRY
        refine ⟨token, (delegateTokens (path.item DELEGATE_ENTRY) row).tail, ?_, apart,
          readDelegate_reads _ row⟩
        rw [delegateTokens, starts]
        rfl
    have other : (path.item DELEGATE_ENTRY).getLast? ≠ some (Token.ident CONTRACT_ENTRY) := by
      rw [path.getLast_item]
      decide
    rw [Const.tokens, pieces, readConst]
    refine (ReadsBack.expect _).bind ?_
    refine (readIdent_reads name).bind ?_
    refine (ReadsBack.expect _).bind ?_
    apply ahead_item
    rw [if_neg other, if_pos (path.getLast_item DELEGATE_ENTRY)]
    exact list.bind (ReadsBack.pure _)

end Consts
end FreenetMigrate.Build
