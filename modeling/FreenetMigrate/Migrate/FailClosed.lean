import FreenetMigrate.Migrate.AppFlag
import FreenetMigrate.Migrate.FixedPoint
import FreenetMigrate.Migrate.Visible

namespace FreenetMigrate.Migrate

open Calls Journal

section Operations

variable [Ciborium] {State : Type} {world : World Request Answer State} {s s' : State}
  {events : History} {predecessors : List DelegateLineageEntry} {policy : SecretSelectionPolicy}

/-- A journal call that failed: the successor could not store or load it, or loaded one of another
    encoding version. -/
def JournalFails : Event Request Answer → Prop
  | ⟨.storeJournal _, .error _⟩ => True
  | ⟨.loadJournal, .error _⟩ => True
  | ⟨.loadJournal, .ok (some bytes)⟩ =>
    ∃ v, MigrationJournal.decode bytes = .error (.unknownVersion v)
  | _ => False

section Refusal

structure Refuses {α : Type} (world : World Request Answer State) (s : State) (program : Migration α)
    (refusal : α → Prop) : Prop where
  reads : ∀ {events s'}, Reaches world s program events s' → Only ReadCall events
  refused : ∀ {events s' value}, Executes world s program events s' value → refusal value

theorem fails_load {answer : Answer .loadJournal} (fails : JournalFails ⟨.loadJournal, answer⟩) :
    (∃ e, answer = .error e) ∨
      ∃ bytes v, answer = .ok (some bytes) ∧ MigrationJournal.decode bytes = .error (.unknownVersion v) := by
  cases answer with
  | error e => exact .inl ⟨e, rfl⟩
  | ok found =>
    cases found with
    | none => exact fails.elim
    | some bytes =>
      obtain ⟨v, decoded⟩ := fails
      exact .inr ⟨bytes, v, rfl, decoded⟩

/-- A program that loads the journal first, and gives up where that fails. -/
theorem refuses_of_load {α : Type} {next : Answer .loadJournal → Migration α} {refusal : α → Prop}
    (unreadable : ∀ answer s', world s .loadJournal answer s' → JournalFails ⟨.loadJournal, answer⟩)
    (broken : ∀ e, ∃ value, next (.error e) = .done value ∧ refusal value)
    (foreign : ∀ bytes v, MigrationJournal.decode bytes = .error (.unknownVersion v) →
      ∃ value, next (.ok (some bytes)) = .done value ∧ refusal value) :
    Refuses world s (.call .loadJournal next) refusal := by
  have givesUp : ∀ answer s', world s .loadJournal answer s' →
      ∃ value, next answer = .done value ∧ refusal value := by
    intro answer s' step
    rcases fails_load (unreadable answer s' step) with ⟨e, rfl⟩ | ⟨bytes, v, rfl, decoded⟩
    · exact broken e
    · exact foreign bytes v decoded
  constructor
  · intro events s' run
    cases run with
    | here => exact only_nil
    | call step rest =>
      obtain ⟨value, done, -⟩ := givesUp _ _ step
      rw [done] at rest
      cases rest
      simp [ReadCall]
  · intro events s' value run
    cases run with
    | call step rest =>
      obtain ⟨value, done, refused⟩ := givesUp _ _ step
      rw [done] at rest
      cases rest
      exact refused

omit [Ciborium] in
theorem Refuses.of_done {α : Type} {value : α} {refusal : α → Prop} (refused : refusal value) :
    Refuses world s (.done value) refusal where
  reads := by
    intro events s' run
    cases run
    exact only_nil
  refused := by
    intro events s' value run
    cases run
    exact refused

variable (unreadable : ∀ answer s', world s .loadJournal answer s' →
  JournalFails ⟨.loadJournal, answer⟩)

include unreadable

theorem refuses_begin (importRevision : UInt32) :
    Refuses world s (beginMigrationJournal predecessors policy importRevision).run
      fun result => ∃ e, result = .error e := by
  apply refuses_of_load unreadable
  · exact fun e => ⟨_, rfl, _, rfl⟩
  · intro bytes v decoded
    refine ⟨.error (.foreignVersion v), ?_, _, rfl⟩
    simp only [Program.bind, Function.comp_apply, ExceptT.bindCont, decoded]
    rfl

theorem refuses_note (predecessor : DelegateKey) (importRevision : UInt32) (items : Option UInt32) :
    Refuses world s (noteAppImportStarted predecessors predecessor policy importRevision items).run
      fun result => ∃ e, result = .error e := by
  unfold noteAppImportStarted
  split
  · exact .of_done ⟨_, rfl⟩
  · apply refuses_of_load unreadable
    · exact fun e => ⟨_, rfl, _, rfl⟩
    · intro bytes v decoded
      refine ⟨.error (.foreignVersion v), ?_, _, rfl⟩
      simp only [Program.bind, Function.comp_apply, ExceptT.bindCont, decoded]
      rfl

structure RefusedReport (predecessors : List DelegateLineageEntry) (report : JournaledMigrationReport) :
    Prop where
  status : report.status = none
  rows : ∃ error, report.report.Perm (predecessors.map fun e =>
    .writerUnavailable (lineageKey e) e.generation ⟨.journalUnavailable, error⟩)
  incomplete : predecessors ≠ [] → isComplete report.report = false

omit [Ciborium] unreadable in
theorem refusedReport_refused (predecessors : List DelegateLineageEntry) (error : String) :
    RefusedReport predecessors (refused predecessors error) := by
  have rows : (refused predecessors error).report.Perm (predecessors.map fun e =>
      .writerUnavailable (lineageKey e) e.generation ⟨.journalUnavailable, error⟩) := by
    have ordered := (List.perm_insertionSort (fun a b : DelegateKey × UInt32 => b.2 ≤ a.2)
      (predecessors.map fun e => (lineageKey e, e.generation))).map fun row =>
        PredecessorMigration.writerUnavailable row.1 row.2 ⟨.journalUnavailable, error⟩
    rw [List.map_map] at ordered
    exact ordered
  refine ⟨rfl, ⟨error, rows⟩, ?_⟩
  intro nonempty
  obtain ⟨e, rest, rfl⟩ := List.exists_cons_of_ne_nil nonempty
  rw [← Bool.not_eq_true, isComplete_iff]
  intro finished
  exact Bool.noConfusion (finished _ (rows.mem_iff.mpr (List.mem_cons_self ..)))

theorem refuses_journaled (journalKey : Bytes) (importRevision : UInt32) :
    Refuses world s (migrateDelegateSecretsJournaled journalKey importRevision predecessors policy)
      (RefusedReport predecessors) := by
  apply refuses_of_load unreadable
  · exact fun e => ⟨_, rfl, refusedReport_refused ..⟩
  · intro bytes v decoded
    refine ⟨refused predecessors (JournalError.foreignVersion v).display, ?_,
      refusedReport_refused ..⟩
    simp only [Program.bind, Function.comp_apply, ExceptT.bindCont, decoded]
    rfl

end Refusal

section Flag

variable {journalKey : Bytes} {binding : JournalBinding} {state state' : WalkState JournalWatch}
  {row : DelegateKey × UInt32}

def Unfailing (events : History) : Prop := ∀ event ∈ events, ¬ JournalFails event

@[simp] theorem unfailing_nil : Unfailing [] := by simp [Unfailing]

@[simp] theorem unfailing_cons {event : Event Request Answer} :
    Unfailing (event :: events) ↔ ¬ JournalFails event ∧ Unfailing events := by simp [Unfailing]

@[simp] theorem unfailing_append {more : History} :
    Unfailing (events ++ more) ↔ Unfailing events ∧ Unfailing more := by
  simp only [Unfailing, List.mem_append, or_imp, forall_and]

def Journalless : Request → Prop
  | .loadJournal => False
  | .storeJournal _ => False
  | _ => True

theorem unfailing_of_journalless (only : Only Journalless events) : Unfailing events := by
  rintro ⟨request, answer⟩ member fails
  have journalless := only _ member
  cases request with
  | loadJournal | storeJournal => exact journalless
  | _ => exact fails

omit [Ciborium] in
theorem MarkerCall.journalless {request : Request} (call : MarkerCall request) :
    Journalless request := by
  cases request <;> trivial

theorem unfailing_of_storeMerged {journal after : MigrationJournal} {binding : Option JournalBinding}
    {rebuild : Option (List DelegateLineageEntry × SecretSelectionPolicy)}
    (run : Executes world s (storeMerged journal binding rebuild) events s' (.ok (), after)) :
    Unfailing events := by
  have written : ∀ {merged : MigrationJournal} {s events}, Executes world s (do
      let stored ← storeJournal merged.encode
      return (stored.mapError fun e => .successor s!"journal store failed: {e}", merged) :
        Migration (Except JournalError Unit × MigrationJournal)) events s' (.ok (), after) →
      Unfailing events := by
    intro merged s events run
    obtain ⟨answer, s₁, rest, rfl, -, done⟩ := executes_call.mp run
    obtain ⟨rfl, -, same⟩ := executes_pure.mp done
    cases answer with
    | error e => cases same
    | ok => simp [JournalFails]
  obtain ⟨answer, s₁, rest, rfl, -, next⟩ := executes_call.mp run
  rw [unfailing_cons]
  cases answer with
  | error e =>
    obtain ⟨-, -, same⟩ := executes_pure.mp next
    cases same
  | ok found =>
    cases found with
    | none => exact ⟨id, written next⟩
    | some bytes =>
      simp only at next
      split at next
      · rename_i stored decoded
        refine ⟨?_, written next⟩
        rintro ⟨v, foreign⟩
        rw [decoded] at foreign
        cases foreign
      · obtain ⟨-, -, same⟩ := executes_pure.mp next
        cases same
      · rename_i e corrupt
        refine ⟨?_, ?_⟩
        · rintro ⟨v, foreign⟩
          rw [corrupt] at foreign
          cases foreign
        · split at next
          · obtain ⟨-, -, same⟩ := executes_pure.mp next
            cases same
          · rename_i lineage policy
            obtain ⟨seeding, s₂, seed, rest, rfl, seeded, finish⟩ := executes_bind.mp next
            have marks := unfailing_of_journalless
              ((seeded.only (marks_freshJournal lineage policy)).mono fun _ => MarkerCall.journalless)
            cases seed with
            | error e =>
              obtain ⟨-, -, same⟩ := executes_pure.mp finish
              cases same
            | ok rebuilt => exact unfailing_append.mpr ⟨marks, written finish⟩

/-- The hook goes on only where no journal call failed. -/
theorem unfailing_of_told {watch after : JournalWatch} {key : DelegateKey} {generation : UInt32}
    {items : Option UInt32}
    (told : Executes world s ((journalObserver journalKey binding predecessors policy).beforeImport
      watch key generation items) events s' (.ok (), after)) : Unfailing events := by
  simp only [journalObserver] at told
  split at told
  · obtain ⟨rfl, -, -⟩ := executes_pure.mp told
    exact unfailing_nil
  · obtain ⟨first, s₁, ⟨result, stored⟩, rest, rfl, storing, done⟩ := executes_bind.mp told
    cases result with
    | ok answer =>
      obtain ⟨rfl, -, -⟩ := executes_pure.mp done
      rw [List.append_nil]
      exact unfailing_of_storeMerged storing
    | error e =>
      obtain ⟨-, -, same⟩ := executes_pure.mp done
      cases same

section Rows

variable {Observed : Type} {asked : Asked} {items secrets : List SecretPair} {sawData : Bool}
  {observed : JournalWatch}

theorem Asks.unfailing
    (asks : Asks (journalObserver journalKey binding predecessors policy) policy world s state row asked
      events s' observed) : Unfailing events := by
  cases asks with
  | fresh => simp [JournalFails]
  | flagged opens unsealed prior told => simp [JournalFails, unfailing_of_told told]

theorem Exports.unfailing
    (exports : Exports (journalObserver journalKey binding predecessors policy) policy world s state row
      asked secrets events s' observed) : Unfailing events := by
  cases exports with
  | mk asks => simp [JournalFails, asks.unfailing]

theorem Engages.unfailing
    (engages : Engages (journalObserver journalKey binding predecessors policy) policy world s state row
      asked items sawData events s' observed) : Unfailing events := by
  cases engages with
  | nothing exports => exact exports.unfailing
  | data exports nonempty told =>
    exact unfailing_append.mpr ⟨exports.unfailing, unfailing_of_told told⟩

theorem Begins.unfailing
    (begins : Begins (journalObserver journalKey binding predecessors policy) policy world s state row
      asked items sawData events s' observed) : Unfailing events := by
  cases begins with
  | unsealed engages | overSeal engages => simp [JournalFails, engages.unfailing]

omit [Ciborium] in
theorem Silent.unfailing {error : Option String} {absent : Bool}
    (silent : Silent world s asked error absent events s') : Only Journalless events := by
  cases silent <;> simp [Journalless]

omit [Ciborium] in
theorem Completes.journalless {state : WalkState Observed} {state' : WalkState Observed}
    {offering : Offering}
    (completes : Completes policy world s state asked sawData offering events s' state') :
    Only Journalless events := by
  cases completes <;> simp [Journalless]

theorem RowRuns.flag_refused
    (runs : RowRuns (journalObserver journalKey binding predecessors policy) policy world s state row
      events s' state') (failed : ¬ Unfailing events) :
    ∃ e, state'.results = state.results ++ [.writerUnavailable row.1 row.2 ⟨.journalFlag, e⟩] := by
  cases runs with
  | superseded | journalResolved => simp at failed
  | unreadable | emptySeal => simp [JournalFails] at failed
  | dataSeal opens checked =>
    have marks : Only MarkerCall _ := checked.only (by
      split
      · exact marks_sealIsBridged ..
      · exact uses_pure _)
    have quiet := unfailing_of_journalless (marks.mono fun _ => MarkerCall.journalless)
    simp [JournalFails, quiet] at failed
  | flagRefused opens unsealed prior told => exact ⟨_, rfl⟩
  | silent asks gaveNone =>
    simp [asks.unfailing, unfailing_of_journalless gaveNone.unfailing] at failed
  | short exports => exact absurd exports.unfailing failed
  | importFlagRefused exports nonempty told =>
    exact ⟨_, by rw [← exports.on.key, ← exports.on.generation]; rfl⟩
  | shortAfterFlag exports nonempty told =>
    simp [exports.unfailing, unfailing_of_told told] at failed
  | beginRefused engages | notReadBack engages =>
    simp [JournalFails, engages.unfailing] at failed
  | offered begins offers completes =>
    have offering : Only Journalless _ := fun event member => by
      obtain ⟨pair, -, answer, rfl⟩ := event_of_offers offers event member
      trivial
    simp [begins.unfailing, unfailing_of_journalless offering,
      unfailing_of_journalless completes.journalless] at failed

omit [Ciborium] in
/-- An iteration whose flag is refused offers nothing, and ends the walk. -/
theorem RowRuns.of_journalFlag {observer : WalkObserver Observed} {state state' : WalkState Observed}
    {key : DelegateKey} {generation : UInt32} {e : String} (quiet : observer.Quiet)
    (runs : RowRuns observer policy world s state row events s' state')
    (pushed : state'.results = state.results ++ [.writerUnavailable key generation ⟨.journalFlag, e⟩]) :
    Only (AskingCall row.1) events ∧ state'.terminated = true := by
  have reported : ∀ {other}, state'.results = state.results ++ [other] →
      other = .writerUnavailable key generation ⟨.journalFlag, e⟩ :=
    fun also => report_unique also pushed
  cases runs with
  | flagRefused opens unsealed prior told =>
    exact ⟨only_cons.mpr ⟨trivial, quiet.asking told⟩, rfl⟩
  | importFlagRefused exports nonempty told =>
    exact ⟨only_append.mpr ⟨exports.asking quiet, quiet.asking told⟩, rfl⟩
  | @dataSeal bridged =>
    cases bridged <;> cases reported rfl
  | @offered _ _ sawData _ _ _ _ _ _ _ _ _ begins offers completes =>
    cases completes with
    | flushFailed | unclean | sealRefused => cases reported rfl
    | completed => cases sawData <;> cases reported rfl
  | _ => cases reported rfl

end Rows

end Flag

section Walks

variable {journalKey : Bytes} {importRevision : UInt32} {report : JournaledMigrationReport}

omit [Ciborium] in
theorem no_offer {allowed : Request → Prop} (only : Only allowed events)
    (excluded : ∀ item, ¬ allowed (.writeSecret item)) :
    ∀ event ∈ events, ∀ item, event.request ≠ .writeSecret item := by
  intro event member item write
  have call := only event member
  rw [write] at call
  exact excluded item call

structure Walks (world : World Request Answer State) (journalKey : Bytes) (importRevision : UInt32)
    (predecessors : List DelegateLineageEntry) (policy : SecretSelectionPolicy) (events : History)
    (report : JournaledMigrationReport) (visits : List Visit) (outcome : WalkState JournalWatch) :
    Prop where
  visited : ∃ s s' journal, Visits (journalObserver journalKey (.new policy importRevision) predecessors
    policy) policy world s (.start ⟨journal, none⟩) visits s' outcome
  rows : visits.map Visit.row = newestFirst predecessors
  reports : report.report = visits.map Visit.report
  calls : ∃ before after, events = before ++ (visits.map Visit.calls).flatten ++ after ∧
    Only JournalCall before ∧ Only JournalCall after

theorem refused_or_walks
    (run : Executes world s
      (migrateDelegateSecretsJournaled journalKey importRevision predecessors policy) events s' report) :
    (Only JournalCall events ∧ ∃ error, report = refused predecessors error) ∨
      ∃ visits outcome,
        Walks world journalKey importRevision predecessors policy events report visits outcome := by
  obtain ⟨starting, s₁, found, rest, rfl, start, afterStart⟩ := executes_bind.mp run
  have reads := (start.only uses_startJournal).mono fun _ => ReadCall.journalCall
  cases found with
  | error e =>
    obtain ⟨rfl, rfl, rfl⟩ := executes_pure.mp afterStart
    rw [List.append_nil]
    exact .inl ⟨reads, _, rfl⟩
  | ok found =>
    obtain ⟨started, checks⟩ := found
    obtain ⟨storing, s₂, ⟨established, journal⟩, more, rfl, establishing, afterStore⟩ :=
      executes_bind.mp afterStart
    have stores := establishing.only (uses_establish started)
    cases established with
    | error e =>
      obtain ⟨rfl, rfl, rfl⟩ := executes_pure.mp afterStore
      rw [List.append_nil]
      exact .inl ⟨only_append.mpr ⟨reads, stores⟩, _, rfl⟩
    | ok answer =>
      obtain ⟨walking, s₃, outcome, ending, rfl, walked, concluded⟩ := executes_bind.mp afterStore
      obtain ⟨visits, rows, rfl, results, visited⟩ := visits_of_walk walked
      have reported : report.report = outcome.results := by
        cases concludes_of_executes concluded <;> rfl
      refine .inr ⟨visits, outcome, ⟨_, _, _, visited⟩, rows, reported.trans results,
        starting ++ storing, ending, ?_, only_append.mpr ⟨reads, stores⟩,
        concluded.only (uses_conclude ..)⟩
      simp only [List.append_assoc]

def Visit.FlagFails (visit : Visit) : Prop :=
  ¬ Unfailing visit.calls ∨
    ∃ key generation e, visit.report = .writerUnavailable key generation ⟨.journalFlag, e⟩

structure FailsClosed (events : History) (newer : List Visit) (visit : Visit) (older : List Visit) :
    Prop where
  reported : ∃ e, visit.report = .writerUnavailable visit.row.1 visit.row.2 ⟨.journalFlag, e⟩
  unoffered : ∀ event ∈ visit.calls, ∀ item, event.request ≠ .writeSecret item
  ended : ∀ later ∈ older, later.calls = []
  before : ∀ event ∈ events, ∀ item, event.request = .writeSecret item →
    ∃ earlier ∈ newer, earlier.row = (item.predecessor, item.generation)

omit [Ciborium] in
/-- A predecessor that is listed once has then had nothing offered in that run. -/
theorem FailsClosed.own {newer older : List Visit} {visit : Visit}
    (closed : FailsClosed events newer visit older) (once : visit.row ∉ newer.map Visit.row) :
    ∀ event ∈ events, ∀ item, event.request = .writeSecret item →
      (item.predecessor, item.generation) ≠ visit.row := by
  intro event member item write same
  obtain ⟨earlier, among, row⟩ := closed.before event member item write
  exact once (List.mem_map.mpr ⟨earlier, among, row.trans same⟩)

theorem Walks.fails_closed {visits newer older : List Visit} {visit : Visit}
    {outcome : WalkState JournalWatch}
    (walks : Walks world journalKey importRevision predecessors policy events report visits outcome)
    (split : visits = newer ++ visit :: older) (fails : visit.FlagFails) :
    FailsClosed events newer visit older := by
  subst split
  obtain ⟨s, s', journal, visited⟩ := walks.visited
  obtain ⟨s₁, state₁, s₂, state₂, -, round, pushed, rest⟩ := visited.split
  have runs := rowRuns_of_executes round
  have reported : ∃ e, visit.report =
      .writerUnavailable visit.row.1 visit.row.2 ⟨.journalFlag, e⟩ := by
    rcases fails with failed | ⟨key, generation, e, same⟩
    · obtain ⟨e, refused⟩ := runs.flag_refused failed
      exact ⟨e, report_unique pushed refused⟩
    · obtain ⟨alone, pushed', sameKey, sameGeneration⟩ := runs.reports
      obtain rfl := report_unique pushed' pushed
      rw [same] at sameKey sameGeneration
      exact ⟨e, by rw [same, ← sameKey, ← sameGeneration]; rfl⟩
  obtain ⟨e, same⟩ := reported
  rw [same] at pushed
  obtain ⟨asking, ended⟩ := runs.of_journalFlag quiet_journalObserver pushed
  have unoffered := no_offer asking fun _ => id
  have still := visits_after_end rest ended
  refine ⟨⟨e, same⟩, unoffered, still, ?_⟩
  obtain ⟨before, after, rfl, starting, ending⟩ := walks.calls
  intro event member item write
  rcases List.mem_append.mp member with member | member
  · rcases List.mem_append.mp member with member | member
    · exact absurd write (no_offer starting (fun _ => id) event member item)
    · obtain ⟨other, visited', among⟩ := mem_visitCalls.mp member
      rcases List.mem_append.mp visited' with earlier | later
      · obtain ⟨s₃, state₃, s₄, state₄, runs', -⟩ := visited.visited visited'
        obtain ⟨request, answer⟩ := event
        obtain rfl : request = .writeSecret item := write
        obtain ⟨asked, items, sawData, begun, s₅, observed, -, begins, pair, -, rfl⟩ :=
          runs'.written quiet_journalObserver among
        exact ⟨other, earlier, Prod.ext begins.on.key.symm begins.on.generation.symm⟩
      · rcases List.mem_cons.mp later with rfl | later
        · exact absurd write (unoffered event among item)
        · rw [still other later] at among
          cases among
  · exact absurd write (no_offer ending (fun _ => id) event member item)

end Walks

/-- Journal operations fail closed. Where the journal cannot be loaded, or is of another version,
    nothing but reads is called and the operation is refused. Where it fails while an import is
    flagged, nothing of that predecessor is offered, and nothing afterwards. -/
theorem journal_fails_closed :
    (∀ s, (∀ answer s', world s .loadJournal answer s' → JournalFails ⟨.loadJournal, answer⟩) →
      (∀ predecessors policy importRevision, Refuses world s
        (beginMigrationJournal predecessors policy importRevision).run fun result =>
          ∃ e, result = .error e) ∧
      (∀ predecessors predecessor policy importRevision items, Refuses world s
        (noteAppImportStarted predecessors predecessor policy importRevision items).run fun result =>
          ∃ e, result = .error e) ∧
      ∀ journalKey importRevision predecessors policy, Refuses world s
        (migrateDelegateSecretsJournaled journalKey importRevision predecessors policy)
        (RefusedReport predecessors)) ∧
    ∀ journalKey importRevision predecessors policy s events s' report,
      Executes world s (migrateDelegateSecretsJournaled journalKey importRevision predecessors policy)
        events s' report →
      (Only JournalCall events ∧ ∃ error, report = refused predecessors error) ∨
      ∃ visits outcome,
        Walks world journalKey importRevision predecessors policy events report visits outcome ∧
        ∀ newer visit older, visits = newer ++ visit :: older → visit.FlagFails →
          FailsClosed events newer visit older ∧
            (visit.row ∉ newer.map Visit.row → ∀ event ∈ events, ∀ item,
              event.request = .writeSecret item →
              (item.predecessor, item.generation) ≠ visit.row) := by
  refine ⟨?_, ?_⟩
  · intro s unreadable
    refine ⟨?_, ?_, ?_⟩
    · intro predecessors policy importRevision
      exact refuses_begin unreadable importRevision
    · intro predecessors predecessor policy importRevision items
      exact refuses_note unreadable predecessor importRevision items
    · intro journalKey importRevision predecessors policy
      exact refuses_journaled unreadable journalKey importRevision
  · intro journalKey importRevision predecessors policy s events s' report run
    rcases refused_or_walks run with refused | ⟨visits, outcome, walks⟩
    · exact .inl refused
    · refine .inr ⟨visits, outcome, walks, ?_⟩
      intro newer visit older split fails
      have closed := walks.fails_closed split fails
      exact ⟨closed, closed.own⟩

end Operations

section Samples

open scoped Cbor

/-- A successor that has no room for a journal it has not got yet. -/
def fullHandler : Option Bytes → (request : Request) → Answer request × Option Bytes
  | stored, .storeJournal _ => (.error "full", stored)
  | stored, request => journalHandler stored request

/-- A journal of a later version, and a journal that cannot be stored again. -/
theorem journal_fails_closed_foreign :
    let foreign := some (Ciborium.intoWriter ⟨2, []⟩)
    let begun := some (MigrationJournal.newPending [sampleEntry 1]).encode
    let walked := sampleJournaled.run fullHandler begun
    Refuses journalWorld foreign sampleJournaled (RefusedReport [sampleEntry 1]) ∧
      walked.2.2.report = [.writerUnavailable (lineageKey (sampleEntry 1)) 1
        ⟨.journalFlag, "journal import flag failed: journal store failed: full"⟩] ∧
      ∀ event ∈ walked.1, ∀ item, event.request ≠ .writeSecret item := by
  intro foreign begun walked
  have unreadable : ∀ answer s', journalWorld foreign .loadJournal answer s' →
      JournalFails ⟨.loadJournal, answer⟩ := by
    intro answer s' loaded
    cases answer with
    | error e => trivial
    | ok found =>
      obtain rfl : found = foreign := loaded.1
      exact ⟨2, by decide +kernel⟩
  have reported : walked.2.2.report = [.writerUnavailable (lineageKey (sampleEntry 1)) 1
      ⟨.journalFlag, "journal import flag failed: journal store failed: full"⟩] := by decide +kernel
  refine ⟨(journal_fails_closed.1 foreign unreadable).2.2 _ _ _ _, reported, ?_⟩
  intro event member item write
  rcases journal_fails_closed.2 _ _ _ _ _ _ _ _ (executes_anything sampleJournaled fullHandler begun)
    with ⟨quiet, -⟩ | ⟨visits, outcome, walks, closed⟩
  · exact no_offer quiet (fun _ => id) event member item write
  · have reports := walks.reports
    rw [reported] at reports
    obtain ⟨visit, rest, rfl, same, last⟩ := List.map_eq_cons_iff.mp reports.symm
    obtain rfl := List.map_eq_nil_iff.mp last
    obtain ⟨closes, -⟩ := closed [] visit [] rfl (.inr ⟨_, _, _, same⟩)
    obtain ⟨earlier, absent, -⟩ := closes.before event member item write
    cases absent

end Samples

end FreenetMigrate.Migrate
