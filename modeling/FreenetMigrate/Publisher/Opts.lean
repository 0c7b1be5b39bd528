import FreenetMigrate.Text.Str

namespace FreenetMigrate.Publisher

open Text

def USAGE : String :=
  "usage:\n" ++
  "  pointer-record key    --author-vk VK --app-id ID\n" ++
  "  pointer-record sign   --author-vk VK --app-id ID --version N --code-hash HASH  < keyfile\n" ++
  "  pointer-record verify --author-vk VK --app-id ID --state STATE\n" ++
  "                        [--expect-version N] [--expect-code-hash HASH] [--expect-key KEY]\n" ++
  "\n" ++
  "  VK     author verifying key: 'app:v1:vk:<base58>', bare base58, or 64-char hex\n" ++
  "  ID     app id, e.g. river.room-contract  (a-z 0-9 . - _ only, 1..=64 bytes)\n" ++
  "  HASH   a code hash: 64-char hex or base58\n" ++
  "  STATE  the 100-byte record: hex, or a path to a file holding the raw bytes\n" ++
  "         ('-' reads raw bytes from stdin)\n" ++
  "\n" ++
  "  sign reads the signing key from STDIN, never from a flag. A whole TOML key\n" ++
  "  file is accepted: the value of the first 'signing_key' line is used.\n"

def FLAGS_VERIFY : List String :=
  ["--author-vk", "--app-id", "--state", "--expect-version", "--expect-code-hash", "--expect-key"]

@[ext] structure Opts where
  entries : List (String × String)
  deriving DecidableEq

namespace Opts

def push (allowed : List String) (out : List (String × String)) (k v : String) :
    Except String (List (String × String)) :=
  if !allowed.contains k then
    .error ("unknown flag '" ++ k ++ "' for this subcommand.\nAccepted here: " ++
      " ".intercalate allowed ++ "\n\n" ++ USAGE)
  else if out.any fun existing => existing.1 == k then
    .error ("'" ++ k ++ "' given more than once. Refusing to guess which one you meant.")
  else .ok (out ++ [(k, v)])

def parseLoop (allowed : List String) : List String → List (String × String) →
    Except String (List (String × String))
  | [], out => .ok out
  | a :: rest, out =>
    if !startsWith a "--" then .error ("unexpected argument '" ++ a ++ "'\n\n" ++ USAGE)
    else match splitOnce a '=' with
      | some (k, v) => do parseLoop allowed rest (← push allowed out k v)
      | none => match rest with
        | [] => .error ("'" ++ a ++ "' needs a value\n\n" ++ USAGE)
        | v :: rest => do parseLoop allowed rest (← push allowed out a v)

def parse (args allowed : List String) : Except String Opts :=
  (parseLoop allowed args []).map Opts.mk

def get (opts : Opts) (k : String) : Option String :=
  (opts.entries.find? fun entry => entry.1 == k).map Prod.snd

def req (opts : Opts) (k : String) : Except String String :=
  match opts.get k with
  | some value => .ok value
  | none => .error ("missing " ++ k ++ "\n\n" ++ USAGE)

end Opts

/-- A flag's name: what is before the first `=` of a token that starts with two dashes. -/
@[ext] structure Flag where
  name : String
  dashes : startsWith name "--" = true
  plain : '=' ∉ name.toList

/-- What the arguments are made of: `--name=value` as one token, `--name value` as two. -/
inductive Item
  | joined (flag : Flag) (value : String)
  | apart (flag : Flag) (value : String)

namespace Item

def tokens : Item → List String
  | joined flag value => [flag.name ++ "=" ++ value]
  | apart flag value => [flag.name, value]

def entry : Item → String × String
  | joined flag value => (flag.name, value)
  | apart flag value => (flag.name, value)

end Item

theorem push_eq_ok {allowed : List String} {out next : List (String × String)} {k v : String} :
    Opts.push allowed out k v = .ok next ↔
      k ∈ allowed ∧ k ∉ out.map Prod.fst ∧ next = out ++ [(k, v)] := by
  unfold Opts.push
  by_cases known : k ∈ allowed
  · by_cases twice : k ∈ out.map Prod.fst
    · have any : (out.any fun existing => existing.1 == k) = true := by
        obtain ⟨existing, member, same⟩ := List.mem_map.mp twice
        exact List.any_eq_true.mpr ⟨existing, member, beq_iff_eq.mpr same⟩
      simp [known, twice, any]
    · have none : (out.any fun existing => existing.1 == k) = false := by
        apply List.any_eq_false.mpr
        intro existing member
        simp only [beq_iff_eq]
        exact fun same => twice (List.mem_map.mpr ⟨existing, member, same⟩)
      simp [known, twice, none, eq_comm]
  · simp [known]

theorem joined_toList (k v : String) : (k ++ "=" ++ v).toList = k.toList ++ '=' :: v.toList := by simp

theorem splitOnce_joined (flag : Flag) (value : String) :
    splitOnce (flag.name ++ "=" ++ value) '=' = some (flag.name, value) :=
  splitOnce_eq_some.mpr ⟨joined_toList _ _, flag.plain⟩

theorem splitOnce_name (flag : Flag) : splitOnce flag.name '=' = none :=
  splitOnce_eq_none.mpr flag.plain

/-- No dash is the `=`, so a joined token's dashes are its name's. -/
theorem dashes_of_joined {a k v : String} (dashed : startsWith a "--" = true)
    (split : splitOnce a '=' = some (k, v)) : startsWith k "--" = true := by
  obtain ⟨whole, -⟩ := splitOnce_eq_some.mp split
  rw [startsWith_iff] at dashed ⊢
  have two : "--".toList = ['-', '-'] := by decide
  rw [two, whole] at dashed
  rw [two]
  match names : k.toList with
  | [] => simp [names] at dashed
  | [first] => simp [names] at dashed
  | first :: second :: more => simpa [names] using dashed

theorem tokens_cons {a : String} {rest : List String} {items : List Item}
    (split : a :: rest = items.flatMap Item.tokens) :
    ∃ flag value more,
      (items = .joined flag value :: more ∧ a = flag.name ++ "=" ++ value ∧
        rest = more.flatMap Item.tokens) ∨
      (items = .apart flag value :: more ∧ a = flag.name ∧
        rest = value :: more.flatMap Item.tokens) := by
  cases items with
  | nil => simp at split
  | cons item more =>
    rw [List.flatMap_cons] at split
    cases item with
    | joined flag value =>
      obtain ⟨head, tail⟩ := List.cons.inj split
      exact ⟨flag, value, more, .inl ⟨rfl, head, tail⟩⟩
    | apart flag value =>
      obtain ⟨head, tail⟩ := List.cons.inj split
      exact ⟨flag, value, more, .inr ⟨rfl, head, tail⟩⟩

/-- The arguments determine the item at their front. -/
theorem head_of_tokens {item : Item} {rest : List String} {items : List Item}
    (split : item.tokens ++ rest = items.flatMap Item.tokens) : ∃ more, items = item :: more := by
  cases item with
  | joined flag value =>
    obtain ⟨other, last, more, (⟨rfl, same, -⟩ | ⟨-, same, -⟩)⟩ := tokens_cons split
    · have read := splitOnce_joined flag value
      rw [same, splitOnce_joined] at read
      obtain ⟨names, values⟩ := Prod.mk.inj (Option.some.inj read)
      exact ⟨more, by rw [Flag.ext names, values]⟩
    · have read := splitOnce_joined flag value
      rw [same, splitOnce_name] at read
      cases read
  | apart flag value =>
    obtain ⟨other, last, more, (⟨-, same, -⟩ | ⟨rfl, same, behind⟩)⟩ := tokens_cons split
    · have read := splitOnce_name flag
      rw [same, splitOnce_joined] at read
      cases read
    · exact ⟨more, by rw [Flag.ext same, (List.cons.inj behind).1]⟩

/-- What the loop may add to `out`: items that make up the arguments, all allowed and none repeated. -/
structure Adds (allowed args : List String) (out : List (String × String)) (items : List Item) :
    Prop where
  split : args = items.flatMap Item.tokens
  known : ∀ item ∈ items, item.entry.1 ∈ allowed
  once : ((out ++ items.map Item.entry).map Prod.fst).Nodup

theorem adds_cons {allowed args : List String} {out : List (String × String)} {item : Item}
    {items : List Item} : Adds allowed (item.tokens ++ args) out (item :: items) ↔
      item.entry.1 ∈ allowed ∧ item.entry.1 ∉ out.map Prod.fst ∧
        Adds allowed args (out ++ [item.entry]) items := by
  have lists : out ++ [item.entry] ++ items.map Item.entry =
      out ++ (item :: items).map Item.entry := by simp
  constructor
  · rintro ⟨split, known, once⟩
    obtain ⟨own, others⟩ := List.forall_mem_cons.mp known
    refine ⟨own, ?_, ⟨List.append_cancel_left split, others, lists ▸ once⟩⟩
    rw [List.map_append, List.nodup_append] at once
    intro member
    exact once.2.2 _ member _ (by simp) rfl
  · rintro ⟨own, -, ⟨split, known, once⟩⟩
    exact ⟨by rw [split, List.flatMap_cons], List.forall_mem_cons.mpr ⟨own, known⟩, lists ▸ once⟩

/-- One item at the front of the arguments is one turn of the loop. -/
theorem turn_eq_ok {allowed rest : List String} {out final : List (String × String)} (item : Item)
    (ih : ∀ next, ((next.map Prod.fst).Nodup) →
      (Opts.parseLoop allowed rest next = .ok final ↔
        ∃ items, Adds allowed rest next items ∧ final = next ++ items.map Item.entry))
    (distinct : (out.map Prod.fst).Nodup) :
    (Opts.push allowed out item.entry.1 item.entry.2 >>= Opts.parseLoop allowed rest) = .ok final ↔
      ∃ items, Adds allowed (item.tokens ++ rest) out (item :: items) ∧
        final = out ++ (item :: items).map Item.entry := by
  simp only [adds_cons]
  cases pushed : Opts.push allowed out item.entry.1 item.entry.2 with
  | error e =>
    have refused : ¬ (item.entry.1 ∈ allowed ∧ item.entry.1 ∉ out.map Prod.fst) := by
      rintro ⟨known, fresh⟩
      rw [push_eq_ok.mpr ⟨known, fresh, rfl⟩] at pushed
      cases pushed
    simp only [Bind.bind, Except.bind, reduceCtorEq, false_iff, not_exists, not_and]
    exact fun _ adds => absurd ⟨adds.1, adds.2.1⟩ refused
  | ok next =>
    obtain ⟨known, fresh, rfl⟩ := push_eq_ok.mp pushed
    have apart : ((out ++ [(item.entry.1, item.entry.2)]).map Prod.fst).Nodup := by
      rw [List.map_append, List.nodup_append]
      refine ⟨distinct, by simp, ?_⟩
      intro name member other last same
      rw [List.map_singleton, List.mem_singleton] at last
      exact fresh (last ▸ same ▸ member)
    simp only [Bind.bind, Except.bind, ih _ apart, known, fresh, not_false_eq_true, true_and,
      List.map_cons, List.append_assoc, List.singleton_append]

theorem exists_adds_cons {allowed args rest : List String} {out final : List (String × String)}
    {item : Item} (front : args = item.tokens ++ rest) :
    (∃ items, Adds allowed args out items ∧ final = out ++ items.map Item.entry) ↔
      ∃ items, Adds allowed (item.tokens ++ rest) out (item :: items) ∧
        final = out ++ (item :: items).map Item.entry := by
  subst front
  constructor
  · rintro ⟨items, adds, same⟩
    obtain ⟨more, rfl⟩ := head_of_tokens adds.split
    exact ⟨more, adds, same⟩
  · rintro ⟨more, adds, same⟩
    exact ⟨item :: more, adds, same⟩

theorem parseLoop_eq_ok {allowed args : List String} {out final : List (String × String)}
    (distinct : (out.map Prod.fst).Nodup) :
    Opts.parseLoop allowed args out = .ok final ↔
      ∃ items, Adds allowed args out items ∧ final = out ++ items.map Item.entry := by
  induction args, out using Opts.parseLoop.induct with
  | case1 out =>
    simp only [Opts.parseLoop, Except.ok.injEq]
    constructor
    · rintro rfl
      exact ⟨[], ⟨rfl, by simp, by simpa using distinct⟩, by simp⟩
    · rintro ⟨items, adds, rfl⟩
      cases items with
      | nil => simp
      | cons item more =>
        have split := adds.split
        cases item with
        | joined => simp [Item.tokens] at split
        | apart => simp [Item.tokens] at split
  | case2 a rest out bare =>
    rw [Opts.parseLoop.eq_def]
    simp only [bare, if_true, reduceCtorEq, false_iff, not_exists, not_and]
    intro items adds
    obtain ⟨flag, value, more, (⟨-, rfl, -⟩ | ⟨-, rfl, -⟩)⟩ := tokens_cons adds.split
    · have dashed := startsWith_append_left value (startsWith_append_left "=" flag.dashes)
      simp [dashed] at bare
    · simp [flag.dashes] at bare
  | case3 a rest out dashed k v joined ih =>
    have starts : startsWith a "--" = true := by simpa using dashed
    obtain ⟨whole, plain⟩ := splitOnce_eq_some.mp joined
    let item : Item := .joined ⟨k, dashes_of_joined starts joined, plain⟩ v
    have front : a :: rest = item.tokens ++ rest := by
      have same : a = k ++ "=" ++ v := String.toList_injective (by rw [whole, joined_toList])
      rw [same]
      rfl
    rw [Opts.parseLoop.eq_def, exists_adds_cons front]
    simp only [dashed, Bool.false_eq_true, if_false, joined]
    exact turn_eq_ok item ih distinct
  | case4 a out dashed apart =>
    rw [Opts.parseLoop.eq_def]
    simp only [dashed, Bool.false_eq_true, if_false, apart, reduceCtorEq, false_iff, not_exists,
      not_and]
    intro items adds
    obtain ⟨flag, value, more, (⟨-, rfl, -⟩ | ⟨-, -, none⟩)⟩ := tokens_cons adds.split
    · rw [splitOnce_joined] at apart
      cases apart
    · cases none
  | case5 a out dashed apart v rest ih =>
    have starts : startsWith a "--" = true := by simpa using dashed
    let item : Item := .apart ⟨a, starts, splitOnce_eq_none.mp apart⟩ v
    have front : a :: v :: rest = item.tokens ++ rest := rfl
    rw [Opts.parseLoop.eq_def, exists_adds_cons front]
    simp only [dashed, Bool.false_eq_true, if_false, apart]
    exact turn_eq_ok item ih distinct

theorem tokens_injective {items others : List Item}
    (same : items.flatMap Item.tokens = others.flatMap Item.tokens) : items = others := by
  induction items generalizing others with
  | nil =>
    cases others with
    | nil => rfl
    | cons item more => cases item <;> simp [Item.tokens] at same
  | cons item rest ih =>
    rw [List.flatMap_cons] at same
    obtain ⟨more, rfl⟩ := head_of_tokens same
    rw [List.flatMap_cons] at same
    rw [ih (List.append_cancel_left same)]

/-- Where no name is repeated, the value that is found is the one value given. -/
theorem get_eq_some {opts : Opts} (distinct : (opts.entries.map Prod.fst).Nodup) {k v : String} :
    opts.get k = some v ↔ (k, v) ∈ opts.entries := by
  obtain ⟨entries⟩ := opts
  unfold Opts.get
  dsimp only at distinct ⊢
  induction entries with
  | nil => simp
  | cons first rest ih =>
    rw [List.map_cons, List.nodup_cons] at distinct
    by_cases same : first.1 = k
    · have only : ∀ other, (first.1, other) ∉ rest :=
        fun other member => distinct.1 (List.mem_map.mpr ⟨_, member, rfl⟩)
      subst same
      simp [only, Prod.ext_iff, eq_comm]
    · have other : (k, v) ≠ first := fun whole => same (congrArg Prod.fst whole).symm
      rw [List.find?_cons_of_neg (by simpa using same), ih distinct.2]
      simp [other]

/-- The parser accepts its grammar and nothing else: arguments that split into items, in one way
    only, with allowed names and no name twice. What is parsed is these items, in order. -/
theorem parse_exact (args allowed : List String) :
    (∀ opts, Opts.parse args allowed = .ok opts ↔ ∃ items : List Item,
      args = items.flatMap Item.tokens ∧ (∀ item ∈ items, item.entry.1 ∈ allowed) ∧
      (items.map fun item => item.entry.1).Nodup ∧ opts.entries = items.map Item.entry) ∧
    (∀ items others : List Item, args = items.flatMap Item.tokens →
      args = others.flatMap Item.tokens → items = others) ∧
    ∀ opts, Opts.parse args allowed = .ok opts → ∀ name value,
      opts.get name = some value ↔ (name, value) ∈ opts.entries := by
  have accepts (opts : Opts) : Opts.parse args allowed = .ok opts ↔ ∃ items : List Item,
      args = items.flatMap Item.tokens ∧ (∀ item ∈ items, item.entry.1 ∈ allowed) ∧
      (items.map fun item => item.entry.1).Nodup ∧ opts.entries = items.map Item.entry := by
    have loop := @parseLoop_eq_ok allowed args [] opts.entries List.nodup_nil
    have parsed : Opts.parse args allowed = .ok opts ↔
        Opts.parseLoop allowed args [] = .ok opts.entries := by
      unfold Opts.parse
      cases Opts.parseLoop allowed args [] with
      | error e => simp [Except.map]
      | ok final => simp [Except.map, Opts.ext_iff]
    rw [parsed, loop]
    constructor
    · rintro ⟨items, ⟨split, known, once⟩, same⟩
      exact ⟨items, split, known, by simpa [Function.comp_def] using once, by simpa using same⟩
    · rintro ⟨items, split, known, once, same⟩
      exact ⟨items, ⟨split, known, by simpa [Function.comp_def] using once⟩, by simpa using same⟩
  refine ⟨accepts, ?_, ?_⟩
  · intro items others split otherSplit
    exact tokens_injective (split.symm.trans otherSplit)
  · intro opts parsed name value
    obtain ⟨items, -, -, once, same⟩ := (accepts opts).mp parsed
    apply get_eq_some
    rw [same, List.map_map]
    exact once

/-- Both spellings in one call, with a value that starts with dashes and one that holds an `=`. -/
theorem parse_exact_verify :
    ∃ opts, Opts.parse ["--app-id", "--x", "--state=a=b"] FLAGS_VERIFY = .ok opts ∧
      opts.get "--app-id" = some "--x" ∧ opts.get "--state" = some "a=b" := by
  obtain ⟨accepts, -, found⟩ := parse_exact ["--app-id", "--x", "--state=a=b"] FLAGS_VERIFY
  let appId : Flag := ⟨"--app-id", by decide, by decide⟩
  let state : Flag := ⟨"--state", by decide, by decide⟩
  have parsed := (accepts ⟨[("--app-id", "--x"), ("--state", "a=b")]⟩).mpr
    ⟨[.apart appId "--x", .joined state "a=b"], by decide, by decide, by decide, rfl⟩
  exact ⟨_, parsed, (found _ parsed _ _).mpr (by decide), (found _ parsed _ _).mpr (by decide)⟩

end FreenetMigrate.Publisher
