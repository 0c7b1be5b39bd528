import FreenetMigrate.Text.Str

namespace FreenetMigrate.Text

/-! Slices of a string by byte offsets. A slice that cuts a character or ends behind the string has no
    value: the code panics there. -/

def len : List Char → Nat
  | [] => 0
  | c :: rest => c.utf8Size + len rest

def isAscii (text : List Char) : Bool := text.all fun c => c.toNat < 128

def dropBytes : Nat → List Char → Option (List Char)
  | 0, text => some text
  | _ + 1, [] => none
  | n + 1, c :: rest => if c.utf8Size ≤ n + 1 then dropBytes (n + 1 - c.utf8Size) rest else none
  termination_by _ text => text

def takeBytes : Nat → List Char → Option (List Char)
  | 0, _ => some []
  | _ + 1, [] => none
  | n + 1, c :: rest =>
    if c.utf8Size ≤ n + 1 then (takeBytes (n + 1 - c.utf8Size) rest).map (c :: ·) else none
  termination_by _ text => text

def slice (text : List Char) (start stop : Nat) : Option (List Char) :=
  if start ≤ stop then (dropBytes start text).bind (takeBytes (stop - start)) else none

theorem isAscii_append {front back : List Char} :
    isAscii (front ++ back) = true ↔ isAscii front = true ∧ isAscii back = true := by
  simp only [isAscii, List.all_append, Bool.and_eq_true]

theorem utf8Size_of_ascii {c : Char} (ascii : c.toNat < 128) : c.utf8Size = 1 := by
  apply Char.utf8Size_eq_one_iff.mpr
  rw [UInt32.le_iff_toNat_le]
  exact Nat.le_of_lt_succ ascii

theorem isAscii_cons {c : Char} {rest : List Char} :
    isAscii (c :: rest) = true ↔ c.toNat < 128 ∧ isAscii rest = true := by
  simp [isAscii]

theorem len_of_ascii {text : List Char} (ascii : isAscii text = true) : len text = text.length := by
  induction text with
  | nil => rfl
  | cons c rest ih =>
    obtain ⟨small, others⟩ := isAscii_cons.mp ascii
    rw [len, ih others, utf8Size_of_ascii small, List.length_cons]
    omega

theorem length_le_len (text : List Char) : text.length ≤ len text := by
  induction text with
  | nil => exact le_rfl
  | cons c rest ih =>
    have positive := c.utf8Size_pos
    simp only [List.length_cons, len]
    omega

theorem dropBytes_of_ascii {front : List Char} (back : List Char) (ascii : isAscii front = true) :
    dropBytes front.length (front ++ back) = some back := by
  induction front with
  | nil => simp [dropBytes]
  | cons c rest ih =>
    obtain ⟨small, others⟩ := isAscii_cons.mp ascii
    rw [List.length_cons, List.cons_append, dropBytes, utf8Size_of_ascii small, if_pos (by omega)]
    exact ih others

theorem takeBytes_of_ascii {front : List Char} (back : List Char) (ascii : isAscii front = true) :
    takeBytes front.length (front ++ back) = some front := by
  induction front with
  | nil => simp [takeBytes]
  | cons c rest ih =>
    obtain ⟨small, others⟩ := isAscii_cons.mp ascii
    rw [List.length_cons, List.cons_append, takeBytes, utf8Size_of_ascii small, if_pos (by omega)]
    exact congrArg (Option.map (c :: ·)) (ih others)

/-- In an ASCII string bytes are characters. -/
theorem slice_of_ascii {front middle : List Char} (back : List Char)
    (ascii : isAscii (front ++ middle) = true) :
    slice (front ++ (middle ++ back)) front.length (front.length + middle.length) = some middle := by
  obtain ⟨first, second⟩ := isAscii_append.mp ascii
  have width : front.length + middle.length - front.length = middle.length := by omega
  unfold slice
  rw [if_pos (by omega), dropBytes_of_ascii _ first, width]
  exact takeBytes_of_ascii back second

end FreenetMigrate.Text
