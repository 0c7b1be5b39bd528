import FreenetMigrate.Journal.Codec

namespace FreenetMigrate.Journal.Cbor

/-! The journal's wire form in CBOR, as the encoder orders its fields. -/

/-- An unsigned integer in its shortest form, under the first byte of its kind. -/
def writeUint (kind : UInt8) (n : UInt32) : Bytes :=
  if n < 24 then [kind + n.toUInt8]
  else if n < 256 then [kind + 24, n.toUInt8]
  else if n < 65536 then [kind + 25, (n / 256).toUInt8, n.toUInt8]
  else (kind + 26) :: (toBeBytes n).toList

def readUint (kind : UInt8) : Bytes → Option (UInt32 × Bytes)
  | [] => none
  | first :: rest =>
    let form := first - kind
    if form < 24 then some (form.toUInt32, rest)
    else if form = 24 then
      match rest with
      | low :: rest => some (low.toUInt32, rest)
      | _ => none
    else if form = 25 then
      match rest with
      | high :: low :: rest => some (high.toUInt32 * 256 + low.toUInt32, rest)
      | _ => none
    else if form = 26 then
      if enough : (rest.take 4).length = 4 then some (fromBeBytes ⟨rest.take 4, enough⟩, rest.drop 4)
      else none
    else none

def writeText (text : String) : Bytes := writeUint 0x60 (UInt32.ofNat text.length) ++ ascii text

def expect (start bytes : Bytes) : Option Bytes :=
  if bytes.take start.length = start then some (bytes.drop start.length) else none

def writeField (name : String) (n : UInt32) : Bytes := writeText name ++ writeUint 0 n

def readField (name : String) (bytes : Bytes) : Option (UInt32 × Bytes) := do
  readUint 0 (← expect (writeText name) bytes)

section Sequences

variable {α : Type}

/-- An array: of stated length where the length fits, else up to the byte that ends it. -/
def writeSeq (write : α → Bytes) (items : List α) : Bytes :=
  if items.length < UInt32.size then
    writeUint 0x80 (UInt32.ofNat items.length) ++ (items.map write).flatten
  else 0x9f :: ((items.map write).flatten ++ [0xff])

def readMany (read : Bytes → Option (α × Bytes)) : Nat → Bytes → Option (List α × Bytes)
  | 0, bytes => some ([], bytes)
  | n + 1, bytes => do
    let (item, bytes) ← read bytes
    let (rest, bytes) ← readMany read n bytes
    some (item :: rest, bytes)

def readEnded (read : Bytes → Option (α × Bytes)) : Nat → Bytes → Option (List α × Bytes)
  | 0, _ => none
  | fuel + 1, bytes =>
    if bytes.head? = some 0xff then some ([], bytes.tail)
    else do
      let (item, bytes) ← read bytes
      let (rest, bytes) ← readEnded read fuel bytes
      some (item :: rest, bytes)

def readSeq (read : Bytes → Option (α × Bytes)) (bytes : Bytes) : Option (List α × Bytes) :=
  if bytes.head? = some 0x9f then readEnded read bytes.length bytes.tail
  else do
    let (count, bytes) ← readUint 0x80 bytes
    readMany read count.toNat bytes

/-- A writer of items and their reader. No item starts with the byte that ends an array. -/
structure Items (write : α → Bytes) (read : Bytes → Option (α × Bytes)) : Prop where
  reads (item : α) (rest : Bytes) : read (write item ++ rest) = some (item, rest)
  starts (item : α) : ∃ first more, write item = first :: more ∧ first ≠ 0xff

end Sequences

def entryStart : Bytes := 0xa9 :: writeText "key" ++ [0x58, 32]

def writeEntry (e : WireEntry) : Bytes :=
  entryStart ++ (e.key.toList ++
    (writeField "generation" e.generation ++ (writeField "state" e.state.toUInt32 ++
    (writeField "attempts" e.attempts ++ (writeField "import" e.importFlag.toUInt32 ++
    (writeField "absent_streak" e.absentStreak ++ (writeField "rejected" e.rejected ++
    (writeField "revision" e.revision ++ writeField "items_seen" e.itemsSeen))))))))

def readEntry (bytes : Bytes) : Option (WireEntry × Bytes) := do
  let bytes ← expect entryStart bytes
  if enough : (bytes.take 32).length = 32 then
    let key : Fixed 32 := ⟨bytes.take 32, enough⟩
    let (generation, bytes) ← readField "generation" (bytes.drop 32)
    let (state, bytes) ← readField "state" bytes
    let (attempts, bytes) ← readField "attempts" bytes
    let (importFlag, bytes) ← readField "import" bytes
    let (absentStreak, bytes) ← readField "absent_streak" bytes
    let (rejected, bytes) ← readField "rejected" bytes
    let (revision, bytes) ← readField "revision" bytes
    let (itemsSeen, bytes) ← readField "items_seen" bytes
    some (⟨key, generation, state.toUInt8, attempts, importFlag.toUInt8, absentStreak, rejected,
      revision, itemsSeen⟩, bytes)
  else none

def journalStart : Bytes := 0xa2 :: writeText "v"

def writeJournal (wire : WireJournal) : Bytes :=
  journalStart ++ (writeUint 0 wire.v.toUInt32 ++ (writeText "entries" ++ writeSeq writeEntry wire.entries))

def readVersion (bytes : Bytes) : Option (UInt32 × Bytes) := do
  readUint 0 (← expect journalStart bytes)

def readJournal (bytes : Bytes) : Option (WireJournal × Bytes) := do
  let (v, bytes) ← readVersion bytes
  let (entries, bytes) ← readSeq readEntry (← expect (writeText "entries") bytes)
  some (⟨v.toUInt8, entries⟩, bytes)

scoped instance : Ciborium where
  intoWriter := writeJournal
  readVersion bytes := ((readVersion bytes).map fun read => read.1.toUInt64).elim (.error "invalid") .ok
  fromReader bytes := (readJournal bytes).elim (.error "invalid") .ok

theorem expect_append (start rest : Bytes) : expect start (start ++ rest) = some rest := by
  simp [expect]

theorem kind_add_sub (kind form : UInt8) : kind + form - kind = form := by
  rw [UInt8.add_comm, UInt8.add_sub_cancel]

theorem readUint_writeUint (kind : UInt8) (n : UInt32) (rest : Bytes) :
    readUint kind (writeUint kind n ++ rest) = some (n, rest) := by
  unfold writeUint
  split
  · rename_i small
    have bound : n.toNat < 24 := UInt32.lt_iff_toNat_lt.mp small
    have form : n.toUInt8 < 24 := by
      rw [UInt8.lt_iff_toNat_lt, UInt32.toNat_toUInt8]
      exact lt_of_le_of_lt (Nat.mod_le _ _) bound
    have same : n.toUInt8.toUInt32 = n := by
      apply UInt32.toNat.inj
      rw [UInt8.toNat_toUInt32, UInt32.toNat_toUInt8]
      omega
    simp only [List.singleton_append, readUint, kind_add_sub, if_pos form, same]
  · split
    · rename_i small
      have bound : n.toNat < 256 := UInt32.lt_iff_toNat_lt.mp small
      have same : n.toUInt8.toUInt32 = n := by
        apply UInt32.toNat.inj
        rw [UInt8.toNat_toUInt32, UInt32.toNat_toUInt8]
        omega
      simp only [List.cons_append, List.nil_append, readUint, kind_add_sub, UInt8.reduceLT, if_false,
        if_true, same]
    · split
      · rename_i small
        have bound : n.toNat < 65536 := UInt32.lt_iff_toNat_lt.mp small
        have same : n / 256 % 256 * 256 + n % 256 = n := by
          apply UInt32.toNat.inj
          simp only [UInt32.toNat_add, UInt32.toNat_mul, UInt32.toNat_mod, UInt32.toNat_div,
            UInt32.reduceToNat]
          omega
        simp only [List.cons_append, List.nil_append, readUint, kind_add_sub, UInt8.reduceLT, if_false,
          show ¬ ((25 : UInt8) = 24) by decide, if_true, UInt32.toUInt32_toUInt8]
        exact congrArg (fun n => some (n, rest)) same
      · have four : (toBeBytes n).toList.length = 4 := (toBeBytes n).length_toList
        have taken : ((toBeBytes n).toList ++ rest).take 4 = (toBeBytes n).toList :=
          List.take_left' four
        have dropped : ((toBeBytes n).toList ++ rest).drop 4 = rest := List.drop_left' four
        have read : fromBeBytes ⟨((toBeBytes n).toList ++ rest).take 4, by rw [taken, four]⟩ = n := by
          rw [show (⟨((toBeBytes n).toList ++ rest).take 4, by rw [taken, four]⟩ : Fixed 4) =
            toBeBytes n from Fixed.ext taken]
          exact fromBeBytes_toBeBytes n
        have enough : (((toBeBytes n).toList ++ rest).take 4).length = 4 := by rw [taken, four]
        simp only [List.cons_append, readUint, kind_add_sub, UInt8.reduceLT, if_false,
          show ¬ ((26 : UInt8) = 24) by decide, show ¬ ((26 : UInt8) = 25) by decide, if_true,
          dif_pos enough, read, dropped]

theorem readField_writeField (name : String) (n : UInt32) (rest : Bytes) :
    readField name (writeField name n ++ rest) = some (n, rest) := by
  unfold readField writeField
  rw [List.append_assoc, expect_append]
  exact readUint_writeUint 0 n rest

theorem readEntry_writeEntry (e : WireEntry) (rest : Bytes) :
    readEntry (writeEntry e ++ rest) = some (e, rest) := by
  have length : e.key.toList.length = 32 := e.key.length_toList
  have taken : ∀ more, (e.key.toList ++ more).take 32 = e.key.toList :=
    fun _ => List.take_left' length
  have dropped : ∀ more, (e.key.toList ++ more).drop 32 = more := fun _ => List.drop_left' length
  unfold readEntry writeEntry
  simp only [List.append_assoc, expect_append, Option.bind_eq_bind, Option.bind_some, taken,
    length, dropped, readField_writeField, UInt8.toUInt8_toUInt32, dite_true]

section Sequences

variable {α : Type} {write : α → Bytes} {read : Bytes → Option (α × Bytes)}

theorem writeUint_start (kind : UInt8) (n : UInt32) :
    ∃ form more, writeUint kind n = (kind + form) :: more ∧ form < 27 := by
  unfold writeUint
  split
  · rename_i small
    refine ⟨_, _, rfl, ?_⟩
    have bound : n.toNat < 24 := UInt32.lt_iff_toNat_lt.mp small
    rw [UInt8.lt_iff_toNat_lt, UInt32.toNat_toUInt8]
    exact lt_of_le_of_lt (Nat.mod_le _ _) (bound.trans (by decide))
  · split
    · exact ⟨_, _, rfl, by decide⟩
    · split <;> exact ⟨_, _, rfl, by decide⟩

theorem writeUint_head {kind other : UInt8} (apart : ∀ form < 27, kind + form ≠ other) (n : UInt32) :
    ∃ first more, writeUint kind n = first :: more ∧ first ≠ other := by
  obtain ⟨form, more, same, small⟩ := writeUint_start kind n
  exact ⟨_, more, same, apart form small⟩

theorem array_apart (other : UInt8) (ends : other = 0x9f ∨ other = 0xff) :
    ∀ form < 27, (0x80 : UInt8) + form ≠ other := by
  intro form small same
  have back := congrArg (· - (0x80 : UInt8)) same
  simp only [kind_add_sub] at back
  subst back
  rcases ends with rfl | rfl
  · revert small
    decide
  · revert small
    decide

theorem Items.readMany (items : Items write read) (xs : List α) (rest : Bytes) :
    readMany read xs.length ((xs.map write).flatten ++ rest) = some (xs, rest) := by
  induction xs with
  | nil => rfl
  | cons x xs ih =>
    rw [List.map_cons, List.flatten_cons, List.length_cons, List.append_assoc, Cbor.readMany,
      items.reads]
    simp only [Option.bind_eq_bind, Option.bind_some, ih]

theorem Items.readEnded (items : Items write read) (xs : List α) (rest : Bytes) {fuel : Nat}
    (enough : xs.length < fuel) :
    readEnded read fuel ((xs.map write).flatten ++ ([0xff] ++ rest)) = some (xs, rest) := by
  induction xs generalizing fuel with
  | nil =>
    cases fuel with
    | zero => cases enough
    | succ fuel => rfl
  | cons x xs ih =>
    cases fuel with
    | zero => cases enough
    | succ fuel =>
      have more : xs.length < fuel := Nat.lt_of_succ_lt_succ enough
      obtain ⟨first, tail, same, differs⟩ := items.starts x
      have going : (write x ++ ((xs.map write).flatten ++ ([0xff] ++ rest))).head? ≠ some 0xff := by
        rw [same, List.cons_append, List.head?_cons]
        exact fun ends => differs (Option.some.inj ends)
      rw [List.map_cons, List.flatten_cons, List.append_assoc, Cbor.readEnded, if_neg going,
        items.reads]
      simp only [Option.bind_eq_bind, Option.bind_some, ih more]

theorem Items.length_le (items : Items write read) (xs : List α) :
    xs.length ≤ (xs.map write).flatten.length := by
  induction xs with
  | nil => exact le_rfl
  | cons x xs ih =>
    obtain ⟨first, tail, same, -⟩ := items.starts x
    have one : 0 < (write x).length := by
      rw [same, List.length_cons]
      exact Nat.succ_pos _
    rw [List.map_cons, List.flatten_cons, List.length_append, List.length_cons]
    omega

theorem Items.readSeq (items : Items write read) (xs : List α) (rest : Bytes) :
    readSeq read (writeSeq write xs ++ rest) = some (xs, rest) := by
  unfold writeSeq
  split
  · rename_i bound
    have count : (UInt32.ofNat xs.length).toNat = xs.length := UInt32.toNat_ofNat_of_lt bound
    have definite : (writeUint 0x80 (UInt32.ofNat xs.length) ++
        ((xs.map write).flatten ++ rest)).head? ≠ some 0x9f := by
      obtain ⟨first, more, same, differs⟩ := writeUint_head (array_apart 0x9f (.inl rfl)) _
      rw [same, List.cons_append, List.head?_cons]
      exact fun ends => differs (Option.some.inj ends)
    rw [List.append_assoc, Cbor.readSeq, if_neg definite, readUint_writeUint]
    simp only [Option.bind_eq_bind, Option.bind_some, count]
    exact items.readMany xs rest
  · have indefinite : (0x9f :: ((xs.map write).flatten ++ [0xff]) ++ rest).head? = some 0x9f := rfl
    rw [Cbor.readSeq, if_pos indefinite, List.cons_append, List.tail_cons, List.append_assoc]
    apply items.readEnded
    have bound := items.length_le xs
    simp only [List.length_cons, List.length_append]
    omega

end Sequences

theorem items_entry : Items writeEntry readEntry where
  reads := readEntry_writeEntry
  starts e := ⟨0xa9, _, rfl, by decide⟩

theorem readVersion_writeJournal (wire : WireJournal) :
    readVersion (writeJournal wire) =
      some (wire.v.toUInt32, writeText "entries" ++ writeSeq writeEntry wire.entries) := by
  unfold readVersion writeJournal
  rw [expect_append]
  exact readUint_writeUint 0 wire.v.toUInt32 _

theorem readJournal_writeJournal (wire : WireJournal) :
    readJournal (writeJournal wire) = some (wire, []) := by
  unfold readJournal
  have entries := items_entry.readSeq wire.entries []
  rw [List.append_nil] at entries
  simp only [readVersion_writeJournal, Option.bind_eq_bind, Option.bind_some, expect_append, entries,
    UInt8.toUInt8_toUInt32]

scoped instance : LawfulCiborium where
  readVersion_intoWriter wire := by
    change ((readVersion (writeJournal wire)).map _).elim _ _ = _
    rw [readVersion_writeJournal]
    exact congrArg Except.ok (UInt8.toUInt64_toUInt32 wire.v)
  fromReader_intoWriter wire := by
    change (readJournal (writeJournal wire)).elim _ _ = _
    rw [readJournal_writeJournal]
    rfl

end FreenetMigrate.Journal.Cbor
