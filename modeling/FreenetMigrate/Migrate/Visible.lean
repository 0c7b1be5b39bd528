import FreenetMigrate.Journal.Cbor
import FreenetMigrate.Migrate.JournaledRun
import FreenetMigrate.Migrate.Observer

namespace FreenetMigrate.Migrate

open Calls Journal MigrationJournal

def QuietCall : Request → Prop
  | .writeSecret _ => False
  | .storeJournal _ => False
  | _ => True

theorem ReadCall.quiet {request : Request} (call : ReadCall request) : QuietCall request := by
  cases request <;> trivial

theorem QuietCall.notStore {request : Request} (call : QuietCall request) :
    ∀ bytes, request ≠ .storeJournal bytes := by
  rintro bytes rfl
  exact call

section Journaled

variable [Ciborium] {State : Type} {world : World Request Answer State} {stored : State → Option Bytes}
  {s s' : State} {events : History} {binding : JournalBinding} {journalKey : Bytes}
  {predecessors : List DelegateLineageEntry} {policy : SecretSelectionPolicy}

/-- The stored journal shows that items of a predecessor may be in the successor. -/
def Flagged (binding : JournalBinding) (stored : Option Bytes) (key : Fixed 32) : Prop :=
  (importing : WithBot (ℕ ×ₗ ℕ)) ≤ storedRank binding stored key

/-- A working copy that says of no import more than the stored journal does. -/
structure Backed (binding : JournalBinding) (stored : Option Bytes) (journal : MigrationJournal) :
    Prop where
  holds : journal.HoldsUnder binding
  shown : ∀ key, (importing : WithBot (ℕ ×ₗ ℕ)) ≤ journal.effectiveRank binding key →
    Flagged binding stored key

section Hook

variable [LawfulCiborium] {watch after : JournalWatch} {key : DelegateKey} {generation : UInt32}
  {items : Option UInt32} {answer : Except String Unit}

theorem backed_of_stored {journal : MigrationJournal} {bytes : Option Bytes}
    (holds : journal.HoldsUnder binding) (written : bytes = some journal.encode) :
    Backed binding bytes journal := by
  refine ⟨holds, ?_⟩
  intro key enough
  rw [Flagged, written, storedRank_encode]
  exact enough

theorem told_backed (kept : JournalKept world stored)
    (told : Executes world s ((journalObserver journalKey binding predecessors policy).beforeImport
      watch key generation items) events s' (.ok (), after))
    (backed : Backed binding (stored s) watch.journal) :
    Backed binding (stored s') after.journal ∧ Flagged binding (stored s') key.bytes := by
  have flagged := importing_le_flag backed.holds key generation items
  have holds := holdsUnder_flag backed.holds key generation items
  rcases told_cases told with ⟨-, -, rfl, rfl, unchanged, -⟩ | ⟨result, stores, outcome⟩
  · have same : ∀ other, (watch.flag key generation items).1.effectiveRank binding other =
        watch.journal.effectiveRank binding other := by
      intro other
      unfold effectiveRank
      rw [JournalWatch.state_flag_of_unchanged unchanged]
    refine ⟨⟨holds, ?_⟩, ?_⟩
    · intro other enough
      rw [same] at enough
      exact backed.shown other enough
    · rw [same] at flagged
      exact backed.shown key.bytes flagged
  · rcases outcome with ⟨rfl, -⟩ | ⟨-, e, failed⟩
    · have written := stores.stored_of_ok kept
      rcases stores.stored_cases kept with ⟨-, failed⟩ | ⟨-, merges⟩
      · exact absurd rfl failed
      · have bound := (merges.rank_le kept key.bytes).1
        refine ⟨backed_of_stored (merges.holdsUnder holds) written, ?_⟩
        rw [Flagged, written, storedRank_encode]
        exact flagged.trans bound
    · cases failed

end Hook

/-- No item of a predecessor was written but with its marker recorded before, and the stored
    journal shows the import. -/
def Visible (binding : JournalBinding) (stored : State → Option Bytes) (past : History)
    (state : State) : Prop :=
  ∀ before item answer after, past = before ++ ⟨.writeSecret item, answer⟩ :: after →
    ⟨.recordMarker item.predecessor (.inProgress true), .ok ()⟩ ∈ before ∧
      Flagged binding (stored state) item.predecessor.bytes

section Points

variable {past : History} {state state' : State}

theorem visible_nil : Visible binding stored [] state := by
  intro before item answer after same
  have short := congrArg List.length same
  simp at short

theorem Visible.mono (visible : Visible binding stored past state)
    (grows : ∀ key, Flagged binding (stored state) key → Flagged binding (stored state') key) :
    Visible binding stored past state' := by
  intro before item answer after same
  obtain ⟨marked, shown⟩ := visible before item answer after same
  exact ⟨marked, grows _ shown⟩

theorem Visible.snoc {event : Event Request Answer} (visible : Visible binding stored past state)
    (announced : ∀ item answer, event = ⟨.writeSecret item, answer⟩ →
      ⟨.recordMarker item.predecessor (.inProgress true), .ok ()⟩ ∈ past ∧
        Flagged binding (stored state) item.predecessor.bytes) :
    Visible binding stored (past ++ [event]) state := by
  intro before item answer after same
  rcases List.eq_nil_or_concat after with rfl | ⟨more, last, rfl⟩
  · obtain ⟨rfl, written⟩ := List.append_inj' same rfl
    exact announced item answer (List.cons.inj written).1
  · have ordered : past ++ [event] = (before ++ ⟨.writeSecret item, answer⟩ :: more) ++ [last] := by
      simpa using same
    obtain ⟨earlier, -⟩ := List.append_inj' ordered rfl
    exact visible before item answer more earlier

end Points

section Throughout

variable {p p' : Recorded Request Answer State} {journal after : MigrationJournal}
  {result : Except JournalError Unit}

theorem always_quiet (kept : JournalKept world stored) (always : p.Always (Visible binding stored))
    (steps : Steps (recorded world) p events p') (quiet : Only QuietCall events) :
    p'.Always (Visible binding stored) := by
  refine always.frame steps quiet ?_
  intro past s call answer s' allowed made visible
  have same := kept.reads allowed.notStore made
  have moved : Visible binding stored past s' := visible.mono fun key shown => same ▸ shown
  refine moved.snoc ?_
  intro item answer written
  injection written with written
  rw [written] at allowed
  exact allowed.elim

omit [Ciborium] in
theorem stored_call (kept : JournalKept world stored) {call : Request} {answer : Answer call}
    (made : recorded world p call answer p') (quiet : QuietCall call) :
    stored p'.state = stored p.state := kept.recorded.reads quiet.notStore made

theorem always_call (kept : JournalKept world stored) (always : p.Always (Visible binding stored))
    {call : Request} {answer : Answer call} (made : recorded world p call answer p')
    (quiet : QuietCall call) : p'.Always (Visible binding stored) :=
  always_quiet kept always (.cons made (.nil p')) (only_cons.mpr ⟨quiet, only_nil⟩)

variable [LawfulCiborium]

theorem always_stores (kept : JournalKept world stored) (always : p.Always (Visible binding stored))
    {rebuild : Option (List DelegateLineageEntry × SecretSelectionPolicy)}
    (run : Stores (recorded world) p journal (some binding) rebuild events p' result after) :
    p'.Always (Visible binding stored) := by
  cases run with
  | refused steps reads => exact always_quiet kept always steps (reads.mono fun _ => ReadCall.quiet)
  | @wrote _ p₁ _ answer _ steps reads merges stores =>
    have before := always_quiet kept always steps (reads.mono fun _ => ReadCall.quiet)
    have same := kept.recorded.steps steps (reads.mono fun _ => ReadCall.notStore)
    have grows : ∀ key, Flagged binding (stored p₁.state) key → Flagged binding (stored p'.state) key := by
      intro key shown
      have written : stored p'.state = stored p₁.state ∨ stored p'.state = some after.encode := by
        cases answer with
        | ok => exact .inr (kept.recorded.stores stores)
        | error => exact kept.recorded.refuses stores
      rcases written with unchanged | landed
      · rw [unchanged]
        exact shown
      · rw [Flagged, landed, storedRank_encode]
        rw [same] at shown
        exact shown.trans (merges.rank_le kept.recorded key).2
    refine before.step stores ?_
    refine (before.now.mono grows).snoc ?_
    intro item answer written
    injection written with written
    cases written

theorem always_told (kept : JournalKept world stored) (always : p.Always (Visible binding stored))
    {watch seen : JournalWatch} {key : DelegateKey} {generation : UInt32} {items : Option UInt32}
    {answer : Except String Unit}
    (told : Executes (recorded world) p
      ((journalObserver journalKey binding predecessors policy).beforeImport watch key generation items)
      events p' (answer, seen)) : p'.Always (Visible binding stored) := by
  rcases told_cases told with ⟨-, -, rfl, -⟩ | ⟨result, stores, -⟩
  · exact always
  · exact always_stores kept always stores

end Throughout

/-- A walk that has not ended: nothing it wrote is hidden, and its working copy is stored. -/
structure Live (binding : JournalBinding) (stored : State → Option Bytes)
    (p : Recorded Request Answer State) (journal : MigrationJournal) : Prop where
  always : p.Always (Visible binding stored)
  backed : Backed binding (stored p.state) journal

section Stages

variable [LawfulCiborium] {p p' : Recorded Request Answer State} {state state' : WalkState JournalWatch}
  {row : DelegateKey × UInt32} {asked : Asked} {items : List SecretPair} {sawData : Bool}
  {observed : JournalWatch}

omit [LawfulCiborium] in
theorem Live.call (kept : JournalKept world stored) {journal : MigrationJournal}
    (live : Live binding stored p journal) {call : Request} {answer : Answer call}
    (made : recorded world p call answer p') (quiet : QuietCall call) :
    Live binding stored p' journal := by
  have same := stored_call kept made quiet
  refine ⟨always_call kept live.always made quiet, ?_⟩
  rw [same]
  exact live.backed

theorem Live.told (kept : JournalKept world stored) {watch : JournalWatch}
    (live : Live binding stored p watch.journal) {key : DelegateKey} {generation : UInt32}
    {items : Option UInt32}
    (told : Executes (recorded world) p
      ((journalObserver journalKey binding predecessors policy).beforeImport watch key generation items)
      events p' (.ok (), observed)) :
    Live binding stored p' observed.journal ∧ Flagged binding (stored p'.state) key.bytes := by
  obtain ⟨backed, flagged⟩ := told_backed kept.recorded told live.backed
  exact ⟨⟨always_told kept live.always told, backed⟩, flagged⟩

theorem Asks.journalLive (kept : JournalKept world stored)
    (live : Live binding stored p state.observed.journal)
    (asks : Asks (journalObserver journalKey binding predecessors policy) policy (recorded world) p
      state row asked events p' observed) : Live binding stored p' observed.journal := by
  cases asks with
  | fresh opens => exact live.call kept opens.read trivial
  | flagged opens unsealed prior told => exact ((live.call kept opens.read trivial).told kept told).1

theorem Exports.journalLive (kept : JournalKept world stored) {secrets : List SecretPair}
    (live : Live binding stored p state.observed.journal)
    (exports : Exports (journalObserver journalKey binding predecessors policy) policy
      (recorded world) p state row asked secrets events p' observed) :
    Live binding stored p' observed.journal := by
  cases exports with
  | mk asks probed fetched =>
    have probing := (asks.journalLive kept live).call kept probed trivial
    exact probing.call kept fetched trivial

theorem Engages.journalLive (kept : JournalKept world stored)
    (live : Live binding stored p state.observed.journal)
    (engages : Engages (journalObserver journalKey binding predecessors policy) policy
      (recorded world) p state row asked items sawData events p' observed) :
    Live binding stored p' observed.journal ∧
      (items ≠ [] → sawData = true ∧ Flagged binding (stored p'.state) asked.key.bytes) := by
  cases engages with
  | nothing exports => exact ⟨exports.journalLive kept live, fun some => absurd rfl some⟩
  | data exports nonempty told =>
    obtain ⟨live, flagged⟩ := (exports.journalLive kept live).told kept told
    exact ⟨live, fun _ => ⟨rfl, flagged⟩⟩

/-- An import that was begun is announced: its marker is recorded and its flag is stored. -/
theorem Begins.journalLive (kept : JournalKept world stored)
    (live : Live binding stored p state.observed.journal)
    (begins : Begins (journalObserver journalKey binding predecessors policy) policy
      (recorded world) p state row asked items sawData events p' observed) :
    Live binding stored p' observed.journal ∧
      (items ≠ [] → ⟨.recordMarker asked.key (.inProgress true), .ok ()⟩ ∈ p'.history ∧
        Flagged binding (stored p'.state) asked.key.bytes) := by
  have announced : ∀ {p₁ p₂ : Recorded Request Answer State} {events : History},
      Engages (journalObserver journalKey binding predecessors policy) policy (recorded world) p
        state row asked items sawData events p₁ observed →
      recorded world p₁ (.recordMarker asked.key (.inProgress sawData)) (.ok ()) p₂ →
      Live binding stored p₂ observed.journal ∧
        (items ≠ [] → ⟨.recordMarker asked.key (.inProgress true), .ok ()⟩ ∈ p₂.history ∧
          Flagged binding (stored p₂.state) asked.key.bytes) := by
    intro p₁ p₂ events engages begun
    obtain ⟨engaged, flagged⟩ := engages.journalLive kept live
    refine ⟨engaged.call kept begun trivial, ?_⟩
    intro some
    obtain ⟨rfl, shown⟩ := flagged some
    have same := stored_call kept begun trivial
    rw [Recorded.history_step begun, same]
    exact ⟨List.mem_append_right _ (List.mem_singleton_self _), shown⟩
  cases begins with
  | unsealed engages begun => exact announced engages begun
  | overSeal engages begun emptySeal readBack =>
    obtain ⟨begunLive, shown⟩ := announced engages begun
    refine ⟨begunLive.call kept readBack trivial, ?_⟩
    intro some
    obtain ⟨marked, flagged⟩ := shown some
    have same := stored_call kept readBack trivial
    rw [Recorded.history_step readBack, same]
    exact ⟨List.mem_append_left _ marked, flagged⟩

omit [LawfulCiborium] in
theorem offers_journalLive (kept : JournalKept world stored) {withheldKeys : List Bytes}
    {offering result : Offering} {rounds : List History} {journal : MigrationJournal}
    (offers : Iterates (recorded world) (offerItem asked withheldKeys) p offering items rounds p' result)
    (live : Live binding stored p journal)
    (announced : items ≠ [] → ⟨.recordMarker asked.key (.inProgress true), .ok ()⟩ ∈ p.history ∧
      Flagged binding (stored p.state) asked.key.bytes) : Live binding stored p' journal := by
  induction offers with
  | nil => exact live
  | @cons p p₁ _ _ _ _ pair _ _ _ round rest ih =>
    obtain ⟨marked, flagged⟩ := announced (List.cons_ne_nil _ _)
    rcases offerItem_cases round with ⟨-, -, rfl, -⟩ | ⟨-, answer, -, wrote, -⟩
    · exact ih live fun _ => ⟨marked, flagged⟩
    · have same := kept.recorded.reads (fun bytes other => by cases other) wrote
      have moved : Visible binding stored p.history p₁.state :=
        live.always.now.mono fun key shown => same ▸ shown
      have now : Visible binding stored (p.history ++ [⟨.writeSecret (itemOf asked pair), answer⟩])
          p₁.state := by
        refine moved.snoc ?_
        intro item answer written
        injection written with written
        injection written with written
        rw [← written, same]
        exact ⟨marked, flagged⟩
      refine ih ⟨live.always.step wrote now, same ▸ live.backed⟩ ?_
      intro _
      rw [Recorded.history_step wrote, same]
      exact ⟨List.mem_append_left _ marked, flagged⟩

omit [LawfulCiborium] in
theorem Completes.journalLive (kept : JournalKept world stored) {offering : Offering}
    (live : Live binding stored p state.observed.journal)
    (completes : Completes policy (recorded world) p state asked sawData offering events p' state') :
    Live binding stored p' state'.observed.journal := by
  cases completes with
  | flushFailed flushed | unclean flushed => exact live.call kept flushed trivial
  | sealRefused flushed clean recorded | completed flushed clean recorded =>
    exact (live.call kept flushed trivial).call kept recorded trivial

/-- One predecessor: all it writes is visible, and a walk that goes on has its working copy stored. -/
theorem RowRuns.journalLive (kept : JournalKept world stored)
    (runs : RowRuns (journalObserver journalKey binding predecessors policy) policy (recorded world) p
      state row events p' state')
    (always : p.Always (Visible binding stored))
    (backed : state.terminated = false → Backed binding (stored p.state) state.observed.journal) :
    p'.Always (Visible binding stored) ∧
      (state'.terminated = false → Backed binding (stored p'.state) state'.observed.journal) := by
  have opened : state.terminated = false → Live binding stored p state.observed.journal :=
    fun live => ⟨always, backed live⟩
  have goesOn : Live binding stored p' state'.observed.journal → p'.Always (Visible binding stored) ∧
      (state'.terminated = false → Backed binding (stored p'.state) state'.observed.journal) :=
    fun live => ⟨live.always, fun _ => live.backed⟩
  cases runs with
  | superseded => exact ⟨always, fun live => by cases live⟩
  | journalResolved live => exact goesOn (opened live)
  | unreadable live unresolved failed => exact goesOn ((opened live).call kept failed trivial)
  | emptySeal opens => exact goesOn ((opened opens.live).call kept opens.read trivial)
  | @dataSeal bridged _ _ _ opens checked =>
    have reading := (opened opens.live).call kept opens.read trivial
    have reads : Only ReadCall _ := checked.only (by
      split
      · exact uses_sealIsBridged ..
      · exact uses_pure _)
    have same := kept.recorded.steps checked.steps (reads.mono fun _ => ReadCall.notStore)
    have shown := always_quiet kept reading.always checked.steps (reads.mono fun _ => ReadCall.quiet)
    refine ⟨shown, fun _ => ?_⟩
    rw [same]
    cases bridged <;> exact reading.backed
  | flagRefused opens unsealed prior told =>
    have reading := (opened opens.live).call kept opens.read trivial
    exact ⟨always_told kept reading.always told, fun live => by cases live⟩
  | silent asks gaveNone =>
    have asking := asks.journalLive kept (opened asks.on.live)
    cases gaveNone with
    | notInstalled probed | noReply probed | probeFailed probed =>
      exact goesOn (asking.call kept probed trivial)
    | fetchFailed probed fetched =>
      exact goesOn ((asking.call kept probed trivial).call kept fetched trivial)
  | short exports => exact goesOn (exports.journalLive kept (opened exports.on.live))
  | importFlagRefused exports nonempty told =>
    have exporting := exports.journalLive kept (opened exports.on.live)
    exact ⟨always_told kept exporting.always told, fun live => by cases live⟩
  | shortAfterFlag exports nonempty told =>
    exact goesOn ((exports.journalLive kept (opened exports.on.live)).told kept told).1
  | beginRefused engages refused =>
    have engaged := (engages.journalLive kept (opened engages.on.live)).1
    exact goesOn (engaged.call kept refused trivial)
  | notReadBack engages begun emptySeal readBack =>
    have engaged := (engages.journalLive kept (opened engages.on.live)).1
    exact goesOn ((engaged.call kept begun trivial).call kept readBack trivial)
  | offered begins offers completes =>
    obtain ⟨begun, announced⟩ := begins.journalLive kept (opened begins.on.live)
    exact goesOn (completes.journalLive kept (offers_journalLive kept offers begun announced))

theorem visits_journalLive (kept : JournalKept world stored) {visits : List Visit}
    (walked : Visits (journalObserver journalKey binding predecessors policy) policy (recorded world) p
      state visits p' state')
    (always : p.Always (Visible binding stored))
    (backed : state.terminated = false → Backed binding (stored p.state) state.observed.journal) :
    p'.Always (Visible binding stored) := by
  refine (walked.invariant (fun p state => p.Always (Visible binding stored) ∧
    (state.terminated = false → Backed binding (stored p.state) state.observed.journal)) ?_
    ⟨always, backed⟩).1
  intro p₁ p₂ state₁ state₂ visit member round live
  exact (rowRuns_of_executes round).journalLive kept live.1 live.2

end Stages

section Run

variable {p p' : Recorded Request Answer State} {started : Started} {checks : MarkerChecks}
  {journal : MigrationJournal} {outcome : WalkState JournalWatch} {report : JournaledMigrationReport}

theorem storedJournal_of_existing (kept : JournalKept world stored)
    (starts : Starts world s predecessors policy binding events s' (.existing journal) checks) :
    storedJournal (stored s) = some journal := by
  generalize existing : Started.existing journal = started at starts
  cases starts with
  | fresh | extended => cases existing
  | known loaded decoded checked =>
    split at existing
    · cases existing
    · rename_i unchanged
      obtain ⟨rounds, -, loop⟩ := executes_foldlM.mp checked
      obtain ⟨same, -⟩ := journal_of_unchanged loop (Bool.not_eq_true _ ▸ unchanged)
      rw [Started.existing.inj existing, same, ← kept.loads loaded]
      simp only [storedJournal, Option.bind_some, decoded, Except.toOption]

theorem backed_rebind {bytes : Option Bytes} (found : storedJournal bytes = some journal) :
    Backed binding bytes (journal.rebind binding) := by
  refine ⟨holdsUnder_rebind journal binding, ?_⟩
  intro key enough
  rw [effectiveRank_rebind] at enough
  rw [Flagged, storedRank, found]
  exact enough

variable [LawfulCiborium]

theorem storedJournal_of_established (kept : JournalKept world stored) {storing : History} {s₁ : State}
    (starts : Starts world s predecessors policy binding events s₁ started checks)
    (reads : Only ReadCall events) (steps : Steps world s events s₁)
    (establishes : Establishes world s₁ predecessors policy binding started storing s' (.ok ())
      journal) : storedJournal (stored s') = some journal := by
  cases establishes with
  | existing =>
    have same := kept.steps steps (reads.mono fun _ => ReadCall.notStore)
    rw [same]
    exact storedJournal_of_existing kept starts
  | new stores =>
    rw [stores.stored_of_ok kept]
    exact storedJournal_encode journal

theorem always_establishes (kept : JournalKept world stored)
    {result : Except JournalError Unit} (always : p.Always (Visible binding stored))
    (establishes : Establishes (recorded world) p predecessors policy binding started events p' result
      journal) : p'.Always (Visible binding stored) := by
  cases establishes with
  | existing => exact always
  | new stores => exact always_stores kept always stores

theorem always_concludes (kept : JournalKept world stored) (always : p.Always (Visible binding stored))
    (concludes : Concludes (recorded world) p predecessors policy binding checks outcome events p'
      report) : p'.Always (Visible binding stored) := by
  have checking : ∀ {rounds start progress p₁},
      Iterates (recorded world) (checkRow outcome checks.read) p start outcome.results rounds p₁
        progress → p₁.Always (Visible binding stored) := by
    intro rounds start progress p₁ checked
    have loop := executes_foldlM.mpr ⟨rounds, rfl, checked⟩
    have reads := loop.only (uses_foldlM _ _ uses_checkRow)
    exact always_quiet kept always loop.steps (reads.mono fun _ => ReadCall.quiet)
  cases concludes with
  | stored checked stores | refused checked stores =>
    exact always_stores kept (checking checked) stores

theorem always_journaledRuns (kept : JournalKept world stored)
    (always : p.Always (Visible binding stored))
    (runs : JournaledRuns (recorded world) p journalKey predecessors policy binding events p' report) :
    p'.Always (Visible binding stored) := by
  cases runs with
  | notStarted steps reads => exact always_quiet kept always steps (reads.mono fun _ => ReadCall.quiet)
  | notEstablished steps reads starts establishes =>
    have started := always_quiet kept always steps (reads.mono fun _ => ReadCall.quiet)
    exact always_establishes kept started establishes
  | walked steps reads starts establishes walked concludes =>
    have started := always_quiet kept always steps (reads.mono fun _ => ReadCall.quiet)
    have established := always_establishes kept started establishes
    have found := storedJournal_of_established kept.recorded starts reads steps establishes
    obtain ⟨visits, -, -, -, visited⟩ := visits_of_walk walked
    exact always_concludes kept (visits_journalLive kept visited established fun _ => backed_rebind found)
      concludes

end Run

theorem shown_of_flagged {bytes : Option Bytes} {key : DelegateKey}
    (flagged : Flagged binding bytes key.bytes) :
    ∃ stored journal entry, bytes = some stored ∧ MigrationJournal.decode stored = .ok journal ∧
      journal.entry key = some entry ∧
      ((∃ attempts rejected absentStreak itemsSeen,
        entry.state = .pending attempts .started rejected absentStreak itemsSeen) ∨
        ∃ resolution, entry.state = .resolved resolution ∧ resolution.isDataBearing = true) := by
  cases bytes with
  | none => exact absurd (le_bot_iff.mp flagged) WithBot.coe_ne_bot
  | some stored =>
    cases decoded : MigrationJournal.decode stored with
    | error e =>
      rw [Flagged, storedRank, storedJournal, Option.bind_some, decoded] at flagged
      exact absurd (le_bot_iff.mp flagged) WithBot.coe_ne_bot
    | ok journal =>
      rw [Flagged, storedRank, storedJournal, Option.bind_some, decoded] at flagged
      obtain ⟨state, held, -, enough⟩ := importing_le_worth flagged
      rw [← entry_state] at held
      obtain ⟨entry, found, rfl⟩ := Option.map_eq_some_iff.mp held
      exact ⟨stored, journal, entry, rfl, decoded, found, importing_le_rank_iff.mp enough⟩

/-- Whatever a journaled run is stopped after, no item of a predecessor is in the successor but
    with its marker recorded before, and with the stored journal showing the import. -/
theorem partial_import_visible [LawfulCiborium] {importRevision : UInt32} {bytes bytes' : Option Bytes}
    {before after : History} {item : RecoveredSecret} {answer : ItemWrite}
    (run : Reaches journalWorld bytes
      (migrateDelegateSecretsJournaled journalKey importRevision predecessors policy) events bytes')
    (written : events = before ++ ⟨.writeSecret item, answer⟩ :: after) :
    ⟨.recordMarker item.predecessor (.inProgress true), .ok ()⟩ ∈ before ∧
      ∃ stored journal entry, bytes' = some stored ∧ MigrationJournal.decode stored = .ok journal ∧
        journal.entry item.predecessor = some entry ∧
        ((∃ attempts rejected absentStreak itemsSeen,
          entry.state = .pending attempts .started rejected absentStreak itemsSeen) ∨
          ∃ resolution, entry.state = .resolved resolution ∧ resolution.isDataBearing = true) := by
  have visible : Visible (.new policy importRevision) id events bytes' := by
    refine run.always journalWorld_total visible_nil ?_
    intro history final report finished
    exact always_journaledRuns journalKept_journalWorld (Recorded.always_start visible_nil)
      (journaledRuns_of_executes finished)
  obtain ⟨marked, flagged⟩ := visible before item answer after written
  exact ⟨marked, shown_of_flagged flagged⟩

end Journaled

def journalHandler : Option Bytes → (request : Request) → Answer request × Option Bytes
  | stored, .migrationMarker _ => (.ok none, stored)
  | stored, .recordMarker _ _ => (.ok (), stored)
  | stored, .writeSecret _ => (.written, stored)
  | stored, .flushPredecessor _ => (.ok (), stored)
  | stored, .loadJournal => (.ok stored, stored)
  | _, .storeJournal bytes => (.ok (), some bytes)
  | stored, .probeVerdict _ => (.ok .executable, stored)
  | stored, .fetchSecrets _ => (.ok [([1], [2])], stored)

theorem journalWorld_journalHandler (stored : Option Bytes) (request : Request) :
    journalWorld stored request (journalHandler stored request).1 (journalHandler stored request).2 := by
  cases request with
  | loadJournal => exact ⟨rfl, rfl⟩
  | _ => rfl

open scoped Cbor in
def sampleJournaled : Migration JournaledMigrationReport :=
  migrateDelegateSecretsJournaled MIGRATION_JOURNAL_KEY 0 [sampleEntry 1] .newestSnapshotWins

def isWrite (event : Event Request Answer) : Bool :=
  match event.request with
  | .writeSecret _ => true
  | _ => false

open scoped Cbor in
theorem partial_import_visible_one :
    let finish := sampleJournaled.run journalHandler none
    ∃ before item answer after, finish.1 = before ++ ⟨.writeSecret item, answer⟩ :: after ∧
      ⟨.recordMarker item.predecessor (.inProgress true), .ok ()⟩ ∈ before ∧
      ∃ stored journal entry, finish.2.1 = some stored ∧
        MigrationJournal.decode stored = .ok journal ∧
        journal.entry item.predecessor = some entry ∧
        ((∃ attempts rejected absentStreak itemsSeen,
          entry.state = .pending attempts .started rejected absentStreak itemsSeen) ∨
          ∃ resolution, entry.state = .resolved resolution ∧ resolution.isDataBearing = true) := by
  intro finish
  have writes : finish.1.any isWrite = true := by decide +kernel
  obtain ⟨⟨request, answer⟩, member, written⟩ := List.any_eq_true.mp writes
  cases request with
  | writeSecret item =>
    obtain ⟨before, after, split⟩ := List.append_of_mem member
    have run : Reaches journalWorld none sampleJournaled finish.1 finish.2.1 :=
      (executes_run journalWorld_journalHandler none).reaches
    exact ⟨before, item, answer, after, split, partial_import_visible run split⟩
  | _ => cases written

end FreenetMigrate.Migrate
