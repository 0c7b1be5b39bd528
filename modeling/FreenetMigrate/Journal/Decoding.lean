import FreenetMigrate.Journal.Cbor

namespace FreenetMigrate.Journal

/-- The state tags in use. Tag 3 is retired. -/
def WireEntry.KnownState (w : WireEntry) : Prop :=
  w.state = 0 ∨ w.state = 1 ∨ w.state = 2 ∨ w.state = 4 ∨ w.state = 5

def WireEntry.KnownFlag (w : WireEntry) : Prop := w.importFlag = 0 ∨ w.importFlag = 1

/-- A wire entry that stands for a state. Only a pending entry has an import flag to read. -/
structure WireEntry.Readable (w : WireEntry) : Prop where
  state : w.KnownState
  flag : w.state = 0 → w.KnownFlag

theorem wireState_isOk (w : WireEntry) : (∃ state, wireState w = .ok state) ↔ w.Readable := by
  constructor
  · rintro ⟨state, read⟩
    unfold wireState at read
    by_cases pending : w.state = 0
    · rw [if_pos pending] at read
      refine ⟨.inl pending, fun _ => ?_⟩
      by_cases none : w.importFlag = 0
      · exact .inl none
      · rw [if_neg none] at read
        by_cases started : w.importFlag = 1
        · exact .inr started
        · rw [if_neg started] at read
          cases read
    · refine ⟨?_, fun zero => absurd zero pending⟩
      rw [if_neg pending] at read
      unfold WireEntry.KnownState
      by_contra unknown
      simp only [not_or] at unknown
      obtain ⟨-, one, two, four, five⟩ := unknown
      rw [if_neg one, if_neg two, if_neg four, if_neg five] at read
      cases read
  · rintro ⟨known, flag⟩
    unfold wireState
    rcases known with pending | tag | tag | tag | tag
    · rw [if_pos pending]
      rcases flag pending with none | started
      · exact ⟨_, if_pos none⟩
      · exact ⟨.pending w.attempts .started w.rejected w.absentStreak w.itemsSeen, by simp [started]⟩
    all_goals exact ⟨_, by simp only [tag]; rfl⟩

theorem insertWire_eq_ok {journal next : MigrationJournal} {w : WireEntry} :
    insertWire journal w = .ok next ↔ ∃ state, wireState w = .ok state ∧
      journal.entries[w.key]? = none ∧ next = journal.insert w.key ⟨w.generation, state⟩ := by
  unfold insertWire
  cases read : wireState w with
  | error e => simp [Bind.bind, Except.bind]
  | ok state =>
    cases held : journal.entries[w.key]? with
    | some entry => simp [Bind.bind, Except.bind, throw, throwThe, MonadExceptOf.throw]
    | none => simp [Bind.bind, Except.bind, Pure.pure, Except.pure, eq_comm]

theorem foldlM_insertWire_isOk (entries : List WireEntry) (journal : MigrationJournal) :
    (∃ next, entries.foldlM insertWire journal = .ok next) ↔
      (entries.map WireEntry.key).Nodup ∧
        ∀ w ∈ entries, w.Readable ∧ journal.entries[w.key]? = none := by
  induction entries generalizing journal with
  | nil => simp [Pure.pure, Except.pure]
  | cons w rest ih =>
    rw [List.foldlM_cons, List.map_cons, List.nodup_cons, List.forall_mem_cons]
    cases step : insertWire journal w with
    | error e =>
      have unread : ¬ (w.Readable ∧ journal.entries[w.key]? = none) := by
        rintro ⟨readable, fresh⟩
        obtain ⟨state, read⟩ := (wireState_isOk w).mpr readable
        rw [insertWire_eq_ok.mpr ⟨state, read, fresh, rfl⟩] at step
        cases step
      simp only [Bind.bind, Except.bind, reduceCtorEq, exists_false, false_iff]
      exact fun both => unread both.2.1
    | ok next =>
      obtain ⟨state, read, fresh, rfl⟩ := insertWire_eq_ok.mp step
      have readable := (wireState_isOk w).mp ⟨state, read⟩
      -- behind this entry its key is taken, so no later entry may have it
      have later (other : WireEntry) :
          (journal.insert w.key ⟨w.generation, state⟩).entries[other.key]? = none ↔
            w.key ≠ other.key ∧ journal.entries[other.key]? = none := by
        rw [MigrationJournal.getElem?_insert]
        by_cases same : w.key = other.key <;> simp [same]
      change (∃ final, rest.foldlM insertWire _ = .ok final) ↔ _
      rw [ih]
      simp only [later, readable, fresh, List.mem_map, not_exists, not_and, true_and]
      constructor
      · rintro ⟨distinct, others⟩
        exact ⟨⟨fun other member same => (others other member).2.1 same.symm, distinct⟩,
          fun other member => ⟨(others other member).1, (others other member).2.2⟩⟩
      · rintro ⟨⟨apart, distinct⟩, others⟩
        exact ⟨distinct, fun other member =>
          ⟨(others other member).1, fun same => apart other member same.symm, (others other member).2⟩⟩

namespace MigrationJournal

section Decode

variable [Ciborium]

theorem decode_version {bytes : Bytes} {version : UInt64}
    (read : Ciborium.readVersion bytes = .ok version)
    (other : version ≠ MIGRATION_JOURNAL_VERSION.toUInt64) :
    decode bytes = .error (.unknownVersion version) := by
  simp [decode, read, other, Except.mapError, Bind.bind, Except.bind, throw, throwThe,
    MonadExceptOf.throw]

/-- What is read as a journal: this version, nothing behind it, readable entries, no key twice. -/
theorem decode_isOk (bytes : Bytes) :
    (∃ journal, decode bytes = .ok journal) ↔
      Ciborium.readVersion bytes = .ok MIGRATION_JOURNAL_VERSION.toUInt64 ∧
      ∃ wire, Ciborium.fromReader bytes = .ok (wire, []) ∧
        (wire.entries.map WireEntry.key).Nodup ∧ ∀ w ∈ wire.entries, w.Readable := by
  cases read : Ciborium.readVersion bytes with
  | error e => simp [decode, read, Except.mapError, Bind.bind, Except.bind]
  | ok version =>
    by_cases current : version = MIGRATION_JOURNAL_VERSION.toUInt64
    · cases parsed : Ciborium.fromReader bytes with
      | error e => simp [decode, read, current, parsed, Except.mapError, Bind.bind, Except.bind]
      | ok both =>
        obtain ⟨wire, rest⟩ := both
        cases rest with
        | cons byte rest =>
          simp [decode, read, current, parsed, Except.mapError, Bind.bind, Except.bind, throw,
            throwThe, MonadExceptOf.throw]
        | nil =>
          have entries := foldlM_insertWire_isOk wire.entries empty
          simp only [decode, read, current, parsed, Except.mapError, Bind.bind, Except.bind, ne_eq,
            not_true_eq_false, if_false, List.isEmpty_nil, Bool.not_true, Bool.false_eq_true,
            Except.ok.injEq, Prod.mk.injEq, and_true, true_and, exists_eq_left']
          exact entries.trans (by simp [empty])
    · rw [decode_version read current]
      simp [current]

theorem encode_injective [LawfulCiborium] : Function.Injective encode := by
  intro left right same
  have read := decode_encode left
  rw [same, decode_encode right] at read
  exact (Except.ok.inj read).symm

/-- The journal's codec. A stored journal reads back as it was, and equal encodings are equal
    journals; what is read has distinct keys, known states, known flags on the pending entries and
    nothing behind it; a different version is reported as that version. -/
theorem decode_exact [LawfulCiborium] :
    (∀ journal : MigrationJournal, decode journal.encode = .ok journal) ∧
    (∀ (bytes rest : Bytes) (wire : WireJournal), Ciborium.fromReader bytes = .ok (wire, rest) →
      (¬ (wire.entries.map WireEntry.key).Nodup ∨ (∃ w ∈ wire.entries, ¬ w.KnownState) ∨
        (∃ w ∈ wire.entries, w.state = 0 ∧ ¬ w.KnownFlag) ∨ rest ≠ []) →
      ∀ journal, decode bytes ≠ .ok journal) ∧
    (∀ (bytes : Bytes) (version : UInt64), Ciborium.readVersion bytes = .ok version →
      version ≠ MIGRATION_JOURNAL_VERSION.toUInt64 →
      decode bytes = .error (.unknownVersion version)) ∧
    ∀ left right : MigrationJournal, left.encode = right.encode → left = right := by
  refine ⟨decode_encode, ?_, fun _ _ => decode_version, fun _ _ same => encode_injective same⟩
  intro bytes rest wire parsed flawed journal accepted
  obtain ⟨-, other, read, distinct, readable⟩ := (decode_isOk bytes).mp ⟨journal, accepted⟩
  rw [parsed] at read
  cases read
  rcases flawed with twice | ⟨w, member, unknown⟩ | ⟨w, member, pending, unknown⟩ | trailing
  · exact twice distinct
  · exact unknown (readable w member).state
  · exact unknown ((readable w member).flag pending)
  · exact trailing rfl

end Decode

open scoped Cbor

def mixedJournal : MigrationJournal :=
  let states : List (UInt8 × JournalState) :=
    [(5, .pending 3 .started 1 2 7), (4, .resolved .imported), (3, .resolved .noData),
      (2, .resolved (.importedWithRejections 2 6 9)), (1, .resolved .supersededByAuthoritative)]
  states.foldl (fun journal row =>
    journal.insert ⟨List.replicate 32 row.1, List.length_replicate⟩ ⟨row.1.toUInt32, row.2⟩) empty

/-- An imported entry on the wire, with an import flag that nothing writes. -/
def flaggedImported : WireEntry := ⟨.zero 32, 1, 1, 0, 7, 0, 0, 0, 0⟩

/-- One journal in every kind of state, one of another version and one that lists a key twice. -/
theorem decode_exact_mixed :
    decode mixedJournal.encode = .ok mixedJournal ∧
    decode (Ciborium.intoWriter ⟨9, [flaggedImported, flaggedImported]⟩) =
      .error (.unknownVersion 9) ∧
    ∀ journal, decode (Ciborium.intoWriter
      ⟨MIGRATION_JOURNAL_VERSION, [flaggedImported, flaggedImported]⟩) ≠ .ok journal := by
  obtain ⟨whole, flawed, foreign, -⟩ := decode_exact
  refine ⟨whole mixedJournal, ?_, ?_⟩
  · exact foreign _ _ (LawfulCiborium.readVersion_intoWriter _) (by decide)
  · refine flawed _ _ _ (LawfulCiborium.fromReader_intoWriter _) (.inl ?_)
    decide

/-- A flag that no pending entry could have is passed over on an imported one. -/
theorem decode_imported_unknownFlag :
    ∃ (bytes : Bytes) (wire : WireJournal), Ciborium.fromReader bytes = .ok (wire, []) ∧
      (∃ w ∈ wire.entries, ¬ w.KnownFlag) ∧ ∃ journal, decode bytes = .ok journal := by
  have parsed := LawfulCiborium.fromReader_intoWriter ⟨MIGRATION_JOURNAL_VERSION, [flaggedImported]⟩
  have version := LawfulCiborium.readVersion_intoWriter ⟨MIGRATION_JOURNAL_VERSION, [flaggedImported]⟩
  refine ⟨_, _, parsed, ⟨flaggedImported, List.mem_singleton.mpr rfl, ?_⟩, ?_⟩
  · unfold WireEntry.KnownFlag
    decide
  · apply (decode_isOk _).mpr
    refine ⟨version, _, parsed, by simp, ?_⟩
    intro w member
    obtain rfl := List.mem_singleton.mp member
    exact ⟨.inr (.inl rfl), fun pending => absurd pending (by decide)⟩

end MigrationJournal
end FreenetMigrate.Journal
