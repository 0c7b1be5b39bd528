import Mathlib.Data.List.Infix

namespace FreenetMigrate.Rust

/-! Readers of token lists, and what they read back whatever follows. -/

abbrev Reader (τ α : Type) : Type := StateT (List τ) Option α

namespace Reader

variable {τ α β : Type}

def accept (value : τ → Option α) : Reader τ α
  | [] => none
  | token :: rest => (value token).map fun a => (a, rest)

def ahead (choose : Option τ → Reader τ α) : Reader τ α := fun input =>
  (choose input.head?).run input

section Tokens

variable [DecidableEq τ]

def expect (tokens : List τ) : Reader τ PUnit := fun input =>
  if tokens <+: input then some ((), input.drop tokens.length) else none

def upTo (close : τ) : Reader τ (List τ)
  | [] => none
  | token :: rest =>
    if token = close then some ([], rest)
    else (upTo close rest).map fun (front, behind) => (token :: front, behind)

def elements (comma close : τ) (element : Reader τ α) : Nat → Reader τ (List α)
  | 0, _ => none
  | fuel + 1, input =>
    if input.head? = some close then some ([], input.tail)
    else do
      let (a, behind) ← element.run input
      match behind with
      | [] => none
      | token :: rest =>
        if token = close then some ([a], rest)
        else if token = comma then
          (elements comma close element fuel rest).map fun (others, last) => (a :: others, last)
        else none

def separated (comma close : τ) (element : Reader τ α) : Reader τ (List α) := fun input =>
  elements comma close element input.length input

end Tokens

def upToEnd (element : Reader τ α) : Nat → List τ → Option (List α)
  | _, [] => some []
  | 0, _ => none
  | fuel + 1, input => do
    let (a, rest) ← element.run input
    let others ← upToEnd element fuel rest
    return a :: others

def whole (element : Reader τ α) (input : List τ) : Option (List α) :=
  upToEnd element input.length input

end Reader

open Reader

variable {τ α β : Type}

def ReadsBack (reader : Reader τ α) (input : List τ) (value : α) : Prop :=
  ∀ rest, reader.run (input ++ rest) = some (value, rest)

namespace ReadsBack

theorem pure (value : α) : ReadsBack (Pure.pure value : Reader τ α) [] value := fun _ => rfl

theorem bind {reader : Reader τ α} {next : α → Reader τ β} {front back : List τ} {a : α} {b : β}
    (first : ReadsBack reader front a) (second : ReadsBack (next a) back b) :
    ReadsBack (reader >>= next) (front ++ back) b := by
  intro rest
  rw [StateT.run_bind, List.append_assoc, first (back ++ rest)]
  exact second rest

theorem map {reader : Reader τ α} {input : List τ} {a : α} (reads : ReadsBack reader input a) (f : α → β) :
    ReadsBack (f <$> reader) input (f a) := by
  intro rest
  rw [StateT.run_map, reads rest]
  rfl

theorem accept {value : τ → Option α} {token : τ} {a : α} (found : value token = some a) :
    ReadsBack (accept value) [token] a := by
  intro rest
  change (value token).map _ = _
  rw [found]
  rfl

theorem ahead {choose : Option τ → Reader τ α} {token : τ} {front : List τ} {a : α}
    (chosen : ReadsBack (choose (some token)) (token :: front) a) :
    ReadsBack (ahead choose) (token :: front) a := chosen

variable [DecidableEq τ]

theorem expect (tokens : List τ) : ReadsBack (expect tokens) tokens () := by
  intro rest
  change (if tokens <+: tokens ++ rest then _ else _) = _
  rw [if_pos (List.prefix_append tokens rest), List.drop_left]

theorem upTo {close : τ} {front : List τ} (open' : close ∉ front) :
    ReadsBack (upTo close) (front ++ [close]) front := by
  intro rest
  induction front with
  | nil => exact if_pos rfl
  | cons token front ih =>
    obtain ⟨apart, others⟩ := not_or.mp (mt List.mem_cons.mpr open')
    have later := ih others
    change (if token = close then _ else _) = _
    rw [if_neg (Ne.symm apart)]
    change Option.map _ ((Reader.upTo close).run (front ++ [close] ++ rest)) = _
    rw [later]
    rfl

end ReadsBack

inductive Listed (element : Reader τ α) (comma close : τ) : List α → List τ → Prop
  | nil : Listed element comma close [] [close]
  | last {a : α} {token : τ} {front : List τ} (reads : ReadsBack element (token :: front) a)
      (goesOn : token ≠ close) : Listed element comma close [a] (token :: front ++ [close])
  | cons {a : α} {token : τ} {front : List τ} {others : List α} {back : List τ}
      (reads : ReadsBack element (token :: front) a) (goesOn : token ≠ close)
      (behind : Listed element comma close others back) :
      Listed element comma close (a :: others) (token :: front ++ comma :: back)

namespace Listed

variable {element : Reader τ α} {comma close : τ} {items : List α} {tokens : List τ}

theorem length_lt (listed : Listed element comma close items tokens) :
    items.length < tokens.length := by
  induction listed with
  | nil => simp
  | last => simp
  | cons _ _ _ ih =>
    simp only [List.length_append, List.length_cons]
    omega

theorem trailing {text : α → List τ}
    (each : ∀ item ∈ items, ∃ token front, text item = token :: front ∧ token ≠ close ∧
      ReadsBack element (text item) item) :
    Listed element comma close items (items.flatMap (fun item => text item ++ [comma]) ++ [close]) := by
  induction items with
  | nil => exact .nil
  | cons item rest ih =>
    obtain ⟨⟨token, front, starts, goesOn, reads⟩, others⟩ := List.forall_mem_cons.mp each
    rw [starts] at reads
    have listed := Listed.cons reads goesOn (ih others)
    rw [List.flatMap_cons, starts]
    simpa using listed

variable [DecidableEq τ]

theorem elements_close (element : Reader τ α) (fuel : Nat) (rest : List τ) :
    elements comma close element (fuel + 1) (close :: rest) = some ([], rest) := by
  rw [elements, List.head?_cons, if_pos rfl, List.tail_cons]

theorem elements_cons {fuel : Nat} {token behind : τ} {input rest : List τ} {a : α}
    (goesOn : token ≠ close) (read : element.run (token :: input) = some (a, behind :: rest)) :
    elements comma close element (fuel + 1) (token :: input) =
      if behind = close then some ([a], rest)
      else if behind = comma then
        (elements comma close element fuel rest).map fun (others, final) => (a :: others, final)
      else none := by
  rw [elements, List.head?_cons, if_neg (fun same => goesOn (Option.some.inj same)), read]
  rfl

theorem reads_elements (apart : comma ≠ close) (listed : Listed element comma close items tokens)
    {fuel : Nat} (enough : items.length < fuel) :
    ReadsBack (elements comma close element fuel) tokens items := by
  induction listed generalizing fuel with
  | nil =>
    intro rest
    obtain ⟨fuel, rfl⟩ := Nat.exists_eq_succ_of_ne_zero (Nat.ne_zero_of_lt enough)
    exact elements_close element fuel rest
  | @last a token front reads goesOn =>
    intro rest
    obtain ⟨fuel, rfl⟩ := Nat.exists_eq_succ_of_ne_zero (Nat.ne_zero_of_lt enough)
    have first := reads (close :: rest)
    rw [List.append_assoc]
    exact (elements_cons goesOn first).trans (if_pos rfl)
  | @cons a token front others back reads goesOn behind ih =>
    intro rest
    obtain ⟨fuel, rfl⟩ := Nat.exists_eq_succ_of_ne_zero (Nat.ne_zero_of_lt enough)
    have first := reads (comma :: (back ++ rest))
    have later := ih (Nat.lt_of_succ_lt_succ enough) rest
    rw [List.append_assoc]
    apply (elements_cons goesOn first).trans
    rw [if_neg apart, if_pos rfl]
    change Option.map _ ((elements comma close element fuel).run (back ++ rest)) = _
    rw [later]
    rfl

theorem reads (apart : comma ≠ close) (listed : Listed element comma close items tokens) :
    ReadsBack (separated comma close element) tokens items := by
  intro rest
  have short := listed.length_lt
  have enough : items.length < (tokens ++ rest).length := by
    rw [List.length_append]
    omega
  exact listed.reads_elements apart enough rest

end Listed
theorem whole_eq {element : Reader τ α} {text : α → List τ} {items : List α}
    (each : ∀ item ∈ items, text item ≠ [] ∧ ReadsBack element (text item) item) :
    whole element (items.flatMap text) = some items := by
  have enough {fuel : Nat} (bound : (items.flatMap text).length ≤ fuel) :
      upToEnd element fuel (items.flatMap text) = some items := by
    induction items generalizing fuel with
    | nil => cases fuel <;> rfl
    | cons item rest ih =>
      obtain ⟨⟨some, reads⟩, others⟩ := List.forall_mem_cons.mp each
      rw [List.flatMap_cons, List.length_append] at bound
      have positive := List.length_pos_iff.mpr some
      obtain ⟨fuel, rfl⟩ : ∃ less, fuel = less + 1 := ⟨fuel - 1, by omega⟩
      obtain ⟨token, front, starts⟩ := List.exists_cons_of_ne_nil some
      have first := reads (rest.flatMap text)
      rw [List.flatMap_cons]
      rw [starts] at first ⊢
      rw [List.cons_append] at first ⊢
      rw [upToEnd, first, Option.bind_eq_bind, Option.bind_some]
      · dsimp only
        rw [ih others (by omega)]
        rfl
      · simp
  exact enough (Nat.le_refl _)

end FreenetMigrate.Rust
