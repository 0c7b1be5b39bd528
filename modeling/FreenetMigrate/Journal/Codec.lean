import FreenetMigrate.Journal.Operations

namespace FreenetMigrate.Journal

def MIGRATION_JOURNAL_VERSION : UInt8 := 1

structure WireEntry where
  key : Fixed 32
  generation : UInt32
  state : UInt8
  attempts : UInt32
  importFlag : UInt8
  absentStreak : UInt32
  rejected : UInt32
  revision : UInt32
  itemsSeen : UInt32
  deriving DecidableEq

structure WireJournal where
  v : UInt8
  entries : List WireEntry
  deriving DecidableEq

/-- What the CBOR crate offers. A reader returns what it left unread. -/
class Ciborium where
  intoWriter : WireJournal → Bytes
  readVersion : Bytes → Except String UInt64
  fromReader : Bytes → Except String (WireJournal × Bytes)

class LawfulCiborium [Ciborium] : Prop where
  readVersion_intoWriter (wire : WireJournal) :
    Ciborium.readVersion (Ciborium.intoWriter wire) = .ok wire.v.toUInt64
  fromReader_intoWriter (wire : WireJournal) :
    Ciborium.fromReader (Ciborium.intoWriter wire) = .ok (wire, [])

def toWire (key : Fixed 32) (e : JournalEntry) : WireEntry :=
  let w : WireEntry := ⟨key, e.generation, 0, 0, 0, 0, 0, 0, 0⟩
  match e.state with
  | .pending attempts importFlag rejected absentStreak itemsSeen =>
    { w with itemsSeen, attempts, importFlag := if importFlag = .started then 1 else 0,
             absentStreak, rejected }
  | .resolved .imported => { w with state := 1 }
  | .resolved .noData => { w with state := 2 }
  | .resolved (.importedWithRejections rejected revision itemsSeen) =>
    { w with state := 4, rejected, revision, itemsSeen }
  | .resolved .supersededByAuthoritative => { w with state := 5 }

def wireState (w : WireEntry) : Except JournalDecodeError JournalState :=
  if w.state = 0 then
    if w.importFlag = 0 then
      .ok (.pending w.attempts .none w.rejected w.absentStreak w.itemsSeen)
    else if w.importFlag = 1 then
      .ok (.pending w.attempts .started w.rejected w.absentStreak w.itemsSeen)
    else .error (.corrupt s!"unknown import flag {w.importFlag}")
  else if w.state = 1 then .ok (.resolved .imported)
  else if w.state = 2 then .ok (.resolved .noData)
  else if w.state = 4 then .ok (.resolved (.importedWithRejections w.rejected w.revision w.itemsSeen))
  else if w.state = 5 then .ok (.resolved .supersededByAuthoritative)
  else .error (.corrupt s!"unknown journal entry state {w.state}")

def insertWire (journal : MigrationJournal) (w : WireEntry) :
    Except JournalDecodeError MigrationJournal := do
  let state ← wireState w
  if journal.entries[w.key]?.isSome then throw (.corrupt "a predecessor is listed twice")
  return journal.insert w.key ⟨w.generation, state⟩

variable [Ciborium]

namespace MigrationJournal

def encode (journal : MigrationJournal) : Bytes :=
  Ciborium.intoWriter
    ⟨MIGRATION_JOURNAL_VERSION, journal.entries.toList.map fun e => toWire e.1 e.2⟩

/-- The version first, so that another encoding version is told apart from corruption. -/
def decode (bytes : Bytes) : Except JournalDecodeError MigrationJournal := do
  let version ← (Ciborium.readVersion bytes).mapError .corrupt
  if version ≠ MIGRATION_JOURNAL_VERSION.toUInt64 then throw (.unknownVersion version)
  let (wire, rest) ← (Ciborium.fromReader bytes).mapError .corrupt
  if !rest.isEmpty then throw (.corrupt s!"{rest.length} trailing byte(s) after the journal")
  wire.entries.foldlM insertWire empty

end MigrationJournal

omit [Ciborium] in
@[simp] theorem toWire_key (key : Fixed 32) (e : JournalEntry) : (toWire key e).key = key := by
  obtain ⟨generation, state⟩ := e
  cases state with
  | pending => rfl
  | resolved r => cases r <;> rfl

omit [Ciborium] in
@[simp] theorem toWire_generation (key : Fixed 32) (e : JournalEntry) :
    (toWire key e).generation = e.generation := by
  obtain ⟨generation, state⟩ := e
  cases state with
  | pending => rfl
  | resolved r => cases r <;> rfl

omit [Ciborium] in
theorem wireState_toWire (key : Fixed 32) (e : JournalEntry) :
    wireState (toWire key e) = .ok e.state := by
  obtain ⟨generation, state⟩ := e
  cases state with
  | pending attempts flag => cases flag <;> rfl
  | resolved r => cases r <;> rfl

namespace MigrationJournal

omit [Ciborium] in
theorem foldlM_insertWire (entries : List (Fixed 32 × JournalEntry)) (journal : MigrationJournal)
    (distinct : entries.Pairwise fun a b => ¬ compare a.1 b.1 = .eq)
    (fresh : ∀ new ∈ entries, journal.entries[new.1]? = none) :
    (entries.map fun e => toWire e.1 e.2).foldlM insertWire journal =
      .ok (entries.foldl (fun journal new => journal.insert new.1 new.2) journal) := by
  induction entries generalizing journal with
  | nil => rfl
  | cons new rest ih =>
    obtain ⟨apart, remaining⟩ := List.pairwise_cons.mp distinct
    have absent := fresh new (List.mem_cons_self ..)
    have step : insertWire journal (toWire new.1 new.2) = .ok (journal.insert new.1 new.2) := by
      simp [insertWire, wireState_toWire, absent, Bind.bind, Except.bind, Pure.pure, Except.pure]
    rw [List.map_cons, List.foldlM_cons, step]
    refine ih _ remaining ?_
    intro other member
    have differs := apart other member
    rw [compare_eq_iff_eq] at differs
    rw [getElem?_insert, if_neg differs]
    exact fresh other (List.mem_cons_of_mem _ member)

theorem decode_encode [LawfulCiborium] (journal : MigrationJournal) :
    decode journal.encode = .ok journal := by
  have version := LawfulCiborium.readVersion_intoWriter
    ⟨MIGRATION_JOURNAL_VERSION, journal.entries.toList.map fun e => toWire e.1 e.2⟩
  have wire := LawfulCiborium.fromReader_intoWriter
    ⟨MIGRATION_JOURNAL_VERSION, journal.entries.toList.map fun e => toWire e.1 e.2⟩
  have distinct : journal.entries.toList.Pairwise (fun a b => ¬ compare a.1 b.1 = .eq) :=
    Std.ExtTreeMap.distinct_keys_toList
  have whole : journal.entries.toList.foldl (fun journal new => journal.insert new.1 new.2) empty =
      journal := by
    apply MigrationJournal.ext
    apply Std.ExtTreeMap.ext_getElem?
    intro key
    have looked := getElem?_foldl_insert (fun _ new => new) _ empty key distinct
    rw [looked, ← find?_toList journal key]
    cases journal.entries.toList.find? fun new => new.1 == key with
    | none => simp [empty]
    | some new => rfl
  unfold decode encode
  rw [version, wire]
  simp only [Except.mapError, Bind.bind, Except.bind, ne_eq, not_true_eq_false, if_false,
    List.isEmpty_nil, Bool.not_true, Bool.false_eq_true]
  rw [foldlM_insertWire _ empty distinct (by simp [empty]), whole]

end MigrationJournal
end FreenetMigrate.Journal
