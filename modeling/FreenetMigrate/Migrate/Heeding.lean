import FreenetMigrate.Journal.Growth
import FreenetMigrate.Migrate.JournaledRun
import FreenetMigrate.Migrate.Observer
import FreenetMigrate.Migrate.Successor

namespace FreenetMigrate.Migrate

open Calls Journal MigrationJournal

variable {binding : JournalBinding}

theorem grows_flag (watch : JournalWatch) (key : DelegateKey) (generation : UInt32)
    (items : Option UInt32) : Grows binding watch.journal (watch.flag key generation items).1 := by
  have marked : Grows binding watch.journal (watch.journal.markImportStarted key generation).1 :=
    grows_markImportStarted watch.journal key generation
  cases items with
  | none => exact marked
  | some n => exact marked.trans (grows_noteItemsSeen ..)

section Hook

variable [Ciborium] {State : Type} {world : World Request Answer State} {stored : State → Option Bytes}
  {s s' : State} {events : History} {journalKey : Bytes} {predecessors : List DelegateLineageEntry}
  {policy : SecretSelectionPolicy}

theorem Stores.grows (kept : JournalKept world stored) {journal after : MigrationJournal}
    {rebuild : Option (List DelegateLineageEntry × SecretSelectionPolicy)}
    {result : Except JournalError Unit}
    (run : Stores world s journal (some binding) rebuild events s' result after) :
    Grows binding journal after := by
  rcases run.after_cases with rfl | merges
  · exact .refl _
  · exact ⟨merges.holdsUnder, fun _ key => (merges.rank_le kept key).1⟩

/-- Whether or not its store succeeds, the hook leaves the import flagged in the working copy. -/
theorem told_grows (kept : JournalKept world stored) {watch after : JournalWatch} {key : DelegateKey}
    {generation : UInt32} {items : Option UInt32} {answer : Except String Unit}
    (told : Executes world s ((journalObserver journalKey binding predecessors policy).beforeImport
      watch key generation items) events s' (answer, after)) :
    Grows binding watch.journal after.journal ∧
      (watch.journal.HoldsUnder binding → Importing binding after.journal key.bytes) := by
  have flag : Grows binding watch.journal (watch.flag key generation items).1 :=
    grows_flag watch key generation items
  rcases told_cases told with ⟨-, -, -, rfl, -⟩ | ⟨result, stores, -⟩
  · exact ⟨flag, fun holds => importing_le_flag holds key generation items⟩
  · have grown := stores.grows kept
    refine ⟨flag.trans grown, ?_⟩
    intro holds
    have enough := importing_le_flag holds key generation items
    exact enough.trans (grown.ranks (flag.holds holds) key.bytes)

end Hook

/-- The calls read a predecessor's own marker: for its exact generation, or with an answer that no
    other generation's seal gives. -/
def OwnRead (events : History) (key : DelegateKey) (generation : UInt32)
    (marker : Option MigrationMarker) : Prop :=
  ∃ bridge, ⟨.migrationMarker ⟨key, generation, bridge⟩, .ok marker⟩ ∈ events ∧
    (bridge = .exactGenerationOnly ∨ marker ≠ some (.done true))

theorem OwnRead.mono {events more : History} {key : DelegateKey} {generation : UInt32}
    {marker : Option MigrationMarker} (read : OwnRead events key generation marker)
    (among : events ⊆ more) : OwnRead more key generation marker := by
  obtain ⟨bridge, member, own⟩ := read
  exact ⟨bridge, among member, own⟩

/-- Where a predecessor's own marker says an import is under way, the working copy shows it. -/
def Told (binding : JournalBinding) (s : Successor) (journal : MigrationJournal) (key : DelegateKey)
    (generation : UInt32) : Prop :=
  s.own key generation = some (.inProgress true) → Importing binding journal key.bytes

structure Learnt (binding : JournalBinding) (s : Successor) (journal : MigrationJournal)
    (events : History) (key : DelegateKey) (generation : UInt32) : Prop where
  read : ∃ marker, OwnRead events key generation marker
  told : Told binding s journal key generation

theorem Learnt.mono {binding : JournalBinding} {s : Successor} {journal after : MigrationJournal}
    {events more : History} {key : DelegateKey} {generation : UInt32}
    (learnt : Learnt binding s journal events key generation) (among : events ⊆ more)
    (grows : Importing binding journal key.bytes → Importing binding after key.bytes) :
    Learnt binding s after more key generation := by
  obtain ⟨⟨marker, read⟩, told⟩ := learnt
  exact ⟨⟨marker, read.mono among⟩, fun started => grows (told started)⟩

def unwalked : PredecessorMigration → Bool
  | .superseded _ _ => true
  | .writerUnavailable _ _ failure => failure.stage == .readMarker
  | _ => false

theorem walked_of_walkReadIt {outcome : WalkState JournalWatch} {row : PredecessorMigration}
    (walkRead : walkReadIt outcome row = true) :
    unwalked row = false ∧ row.key.bytes ∉ outcome.bridged ∧
      outcome.journalResolved.lookup row.key.bytes = none := by
  unfold walkReadIt at walkRead
  simp only [Bool.and_eq_true, decide_eq_true_eq, Option.isNone_iff_eq_none] at walkRead
  obtain ⟨⟨kind, unbridged⟩, unresolved⟩ := walkRead
  refine ⟨?_, unbridged, unresolved⟩
  cases row <;> simp_all [unwalked]

section Markers

variable {s s' : Successor} {events : History} {policy : SecretSelectionPolicy} {asked : Asked}
  {row : DelegateKey × UInt32} {items : List SecretPair} {sawData : Bool}

theorem Silent.same {error : Option String} {absent : Bool}
    (silent : Silent successorWorld s asked error absent events s') (key : Fixed 32) :
    SameMarker key s s' := by
  cases silent with
  | notInstalled probed | noReply probed | probeFailed probed => exact sameMarker_of_call probed trivial
  | fetchFailed probed fetched =>
    exact (sameMarker_of_call probed trivial).trans (sameMarker_of_call fetched trivial)

theorem Engages.prior {State Observed : Type} {observer : WalkObserver Observed}
    {world : World Request Answer State} {s s' : State} {state : WalkState Observed}
    {observed : Observed}
    (engages : Engages observer policy world s state row asked items sawData events s' observed)
    (noData : sawData = false) : asked.priorSawData = false := by
  cases engages with
  | nothing exports empty noPrior => exact noPrior
  | data => cases noData

theorem AskedOn.unstarted {Observed : Type} {observer : WalkObserver Observed}
    {state : WalkState Observed}
    (on : AskedOn observer policy successorWorld s state row events asked)
    (noPrior : asked.priorSawData = false) : s.wip row.1.bytes ≠ some true := by
  obtain ⟨s₁, opens⟩ := on.opened
  have read := opens.read.1
  have unsealed := on.unsealed
  rw [on.same] at noPrior
  obtain ⟨notStarted, unknown⟩ := Bool.or_eq_false_iff.mp noPrior
  rw [unknown] at unsealed
  rw [read] at notStarted unsealed
  apply Successor.wip_of_unsealed
  cases found : s.marker ⟨row.1, row.2, policy.legacyBridge⟩ with
  | none => exact .inl rfl
  | some marker =>
    rw [found] at notStarted unsealed
    cases marker with
    | inProgress sawData =>
      cases sawData with
      | false => exact .inr rfl
      | true => cases notStarted
    | done hadData => cases hadData <;> cases unsealed

theorem wip_of_recording {marker : MigrationMarker} {key : DelegateKey} {answer : Except String Unit}
    (made : successorWorld s (.recordMarker key marker) answer s')
    (other : marker ≠ .inProgress true) (quiet : s.wip key.bytes ≠ some true) :
    s'.wip key.bytes ≠ some true := by
  cases answer with
  | ok => exact made.wip_of_not_started other quiet
  | error e =>
    rcases made with rfl | records
    · exact quiet
    · exact records.wip_of_not_started other quiet

theorem wip_of_call {key : Fixed 32} {request : Request} {answer : Answer request}
    (made : successorWorld s request answer s') (quiet : s.wip key ≠ some true)
    (notMarking : NotMarking key request) : s'.wip key ≠ some true := by
  rw [(sameMarker_of_call made notMarking).wip]
  exact quiet

theorem wip_of_completes {Observed : Type} {state state' : WalkState Observed} {offering : Offering}
    (completes : Completes policy successorWorld s state asked false offering events s' state')
    (quiet : s.wip asked.key.bytes ≠ some true) : s'.wip asked.key.bytes ≠ some true := by
  cases completes with
  | flushFailed flushed | unclean flushed => exact wip_of_call flushed quiet trivial
  | sealRefused flushed clean recorded | completed flushed clean recorded =>
    exact wip_of_recording recorded nofun (wip_of_call flushed quiet trivial)

theorem Completes.same_observed {State Observed : Type} {world : World Request Answer State} {s s' : State}
    {state state' : WalkState Observed} {offering : Offering}
    (completes : Completes policy world s state asked sawData offering events s' state') :
    state'.observed = state.observed := by
  cases completes <;> rfl

theorem sameMarker_of_offers {withheldKeys : List Bytes} {offering result : Offering}
    {rounds : List History}
    (offers : Iterates successorWorld (offerItem asked withheldKeys) s offering items rounds s' result)
    (key : Fixed 32) : SameMarker key s s' := by
  have loop := executes_foldlM.mpr ⟨rounds, rfl, offers⟩
  refine sameMarker_of_steps loop.steps ?_
  intro event member
  obtain ⟨pair, -, answer, rfl⟩ := event_of_offers offers event member
  trivial

theorem AskedOn.ownRead {Observed State : Type} {observer : WalkObserver Observed}
    {world : World Request Answer State} {s : State} {state : WalkState Observed}
    (on : AskedOn observer policy world s state row events asked) :
    OwnRead events row.1 row.2 asked.marker := by
  refine ⟨policy.legacyBridge, on.read, .inr ?_⟩
  intro sealed
  have unsealed := on.unsealed
  rw [sealed] at unsealed
  cases unsealed

theorem AskedOn.prior_of_started {Observed : Type} {observer : WalkObserver Observed}
    {state : WalkState Observed}
    (on : AskedOn observer policy successorWorld s state row events asked)
    (started : s.own row.1 row.2 = some (.inProgress true)) : asked.priorSawData = true := by
  obtain ⟨s₁, opens⟩ := on.opened
  have read := opens.read.1
  have unsealed : asked.marker ≠ some (.done true) := by
    intro sealed
    have unsealed := on.unsealed
    rw [sealed] at unsealed
    cases unsealed
  rw [read] at unsealed
  rw [Successor.own_of_marker unsealed, ← read] at started
  rw [on.same]
  simp [askedOf, started]

theorem unbridged_of_executes {State : Type} {world : World Request Answer State} {s s' : State}
    {key : DelegateKey} {generation : UInt32}
    (run : Executes world s (sealIsBridged key generation policy) events s' false) :
    (policy.legacyBridge = .exactGenerationOnly ∧ events = [] ∧ s' = s) ∨
      (events = [⟨.migrationMarker ⟨key, generation, .exactGenerationOnly⟩, .ok (some (.done true))⟩] ∧
        world s (.migrationMarker ⟨key, generation, .exactGenerationOnly⟩) (.ok (some (.done true)))
          s') := by
  unfold sealIsBridged at run
  split at run
  · rename_i exactly
    obtain ⟨rfl, rfl, -⟩ := executes_pure.mp run
    refine .inl ⟨?_, rfl, rfl⟩
    cases found : policy.legacyBridge with
    | exactGenerationOnly => rfl
    | atOrAboveGeneration => exact absurd found exactly
  · obtain ⟨answer, s₁, rest, rfl, read, heeded⟩ := executes_call.mp run
    split at heeded
    · obtain ⟨rfl, rfl, -⟩ := executes_pure.mp heeded
      exact .inr ⟨rfl, read⟩
    · obtain ⟨-, -, other⟩ := executes_pure.mp heeded
      cases other

/-- A data-bearing seal that no newer generation's seal stands for is the predecessor's own. -/
theorem own_of_unbridged {s s₁ s' : Successor} {key : DelegateKey} {generation : UInt32}
    (read : successorWorld s (.migrationMarker ⟨key, generation, policy.legacyBridge⟩)
      (.ok (some (.done true))) s₁)
    (checked : Executes successorWorld s₁ (sealIsBridged key generation policy) events s' false) :
    s' = s ∧ s.own key generation = some (.done true) ∧ ∃ marker, OwnRead
      (⟨.migrationMarker ⟨key, generation, policy.legacyBridge⟩, .ok (some (.done true))⟩ :: events)
      key generation marker := by
  obtain ⟨sealed, rfl⟩ := read
  rcases unbridged_of_executes checked with ⟨exactly, -, rfl⟩ | ⟨rfl, own, rfl⟩
  · refine ⟨rfl, ?_, _, policy.legacyBridge, List.mem_cons_self .., .inl exactly⟩
    rw [exactly] at sealed
    exact sealed.symm
  · exact ⟨rfl, own.symm, _, .exactGenerationOnly,
      List.mem_cons_of_mem _ (List.mem_singleton_self _), .inl rfl⟩

/-- Only under a snapshot policy is a seal taken for a newer generation's. -/
theorem above_of_bridged {State : Type} {world : World Request Answer State} {s s' : State}
    {key : DelegateKey} {generation : UInt32}
    (run : Executes world s (sealIsBridged key generation policy) events s' true) :
    policy.legacyBridge = .atOrAboveGeneration := by
  unfold sealIsBridged at run
  split at run
  · obtain ⟨-, -, other⟩ := executes_pure.mp run
    cases other
  · rename_i notBelow
    exact not_not.mp notBelow

theorem RowRuns.bridged {State Observed : Type} {world : World Request Answer State} {s s' : State}
    {observer : WalkObserver Observed} {state state' : WalkState Observed}
    (runs : RowRuns observer policy world s state row events s' state')
    (before : ∀ key ∈ state.bridged, policy.legacyBridge = .atOrAboveGeneration) :
    ∀ key ∈ state'.bridged, policy.legacyBridge = .atOrAboveGeneration := by
  cases runs with
  | @dataSeal bridged _ _ _ opens checked =>
    cases bridged with
    | false => exact before
    | true =>
      intro key member
      split at checked
      · exact above_of_bridged checked
      · obtain ⟨-, -, other⟩ := executes_pure.mp checked
        cases other
  | offered begins offers completes => cases completes <;> exact before
  | _ => exact before

theorem visits_bridged {State Observed : Type} {world : World Request Answer State} {s s' : State}
    {observer : WalkObserver Observed} {state state' : WalkState Observed} {visits : List Visit}
    (walked : Visits observer policy world s state visits s' state')
    (before : ∀ key ∈ state.bridged, policy.legacyBridge = .atOrAboveGeneration) :
    ∀ key ∈ state'.bridged, policy.legacyBridge = .atOrAboveGeneration :=
  walked.invariant (fun _ state => ∀ key ∈ state.bridged, policy.legacyBridge = .atOrAboveGeneration)
    (fun _ _ round bridged => (rowRuns_of_executes round).bridged bridged) before

end Markers

/-- A stage that records no marker, and after which data known of a predecessor is flagged. -/
structure Heeds (binding : JournalBinding) (s : Successor) (watch : JournalWatch) (key : Fixed 32)
    (known : Bool) (s' : Successor) (observed : JournalWatch) : Prop where
  grows : Grows binding watch.journal observed.journal
  flagged : watch.journal.HoldsUnder binding → known = true → Importing binding observed.journal key
  same : ∀ other, SameMarker other s s'

section Heeds

variable {s s' : Successor} {events : History} {observed : JournalWatch}

theorem Heeds.call {watch : JournalWatch} {key : Fixed 32} {known : Bool} {s₁ : Successor}
    (heeds : Heeds binding s watch key known s₁ observed) {request : Request}
    {answer : Answer request} (made : successorWorld s₁ request answer s')
    (quiet : ∀ other, NotMarking other request) : Heeds binding s watch key known s' observed :=
  ⟨heeds.grows, heeds.flagged,
    fun other => (heeds.same other).trans (sameMarker_of_call made (quiet other))⟩

theorem heeds_call {watch : JournalWatch} {key : Fixed 32} {request : Request}
    {answer : Answer request} (made : successorWorld s request answer s')
    (quiet : ∀ other, NotMarking other request) : Heeds binding s watch key false s' watch := by
  refine ⟨.refl _, ?_, fun other => sameMarker_of_call made (quiet other)⟩
  intro _ known
  cases known

theorem Heeds.trans {watch before : JournalWatch} {key : Fixed 32} {known more : Bool}
    {s₁ : Successor} (first : Heeds binding s watch key known s₁ before)
    (second : Heeds binding s₁ before key more s' observed) :
    Heeds binding s watch key (known || more) s' observed := by
  refine ⟨first.grows.trans second.grows, ?_, fun other => (first.same other).trans (second.same other)⟩
  intro holds either
  rcases Bool.or_eq_true_iff.mp either with known | more
  · exact (first.flagged holds known).trans (second.grows.ranks (first.grows.holds holds) key)
  · exact second.flagged (first.grows.holds holds) more

end Heeds

section Stages

variable [Ciborium] {s s' : Successor} {events : History} {journalKey : Bytes}
  {predecessors : List DelegateLineageEntry} {policy : SecretSelectionPolicy}
  {state state' : WalkState JournalWatch} {row : DelegateKey × UInt32} {asked : Asked}
  {items : List SecretPair} {sawData : Bool} {observed : JournalWatch}

theorem told_heeds {watch : JournalWatch} {key : DelegateKey} {generation : UInt32}
    {items : Option UInt32} {answer : Except String Unit} (known : Bool)
    (told : Executes successorWorld s
      ((journalObserver journalKey binding predecessors policy).beforeImport watch key generation items)
      events s' (answer, observed)) : Heeds binding s watch key.bytes known s' observed := by
  obtain ⟨grows, flagged⟩ := told_grows journalKept_successorWorld told
  refine ⟨grows, fun holds _ => flagged holds, ?_⟩
  intro other
  have calls := told.only (quiet_journalObserver ..)
  exact sameMarker_of_steps told.steps (calls.mono fun _ => JournalCall.notMarking)

theorem Asks.heeds
    (asks : Asks (journalObserver journalKey binding predecessors policy) policy successorWorld s
      state row asked events s' observed) :
    Heeds binding s state.observed row.1.bytes asked.priorSawData s' observed := by
  cases asks with
  | fresh opens unsealed noPrior =>
    rw [noPrior]
    exact heeds_call opens.read fun _ => trivial
  | flagged opens unsealed prior told =>
    rw [prior]
    exact (heeds_call opens.read fun _ => trivial).trans (told_heeds true told)

theorem Exports.heeds {secrets : List SecretPair}
    (exports : Exports (journalObserver journalKey binding predecessors policy) policy
      successorWorld s state row asked secrets events s' observed) :
    Heeds binding s state.observed row.1.bytes asked.priorSawData s' observed := by
  cases exports with
  | mk asks probed fetched =>
    exact (asks.heeds.call probed fun _ => trivial).call fetched fun _ => trivial

theorem Engages.heeds
    (engages : Engages (journalObserver journalKey binding predecessors policy) policy
      successorWorld s state row asked items sawData events s' observed) :
    Heeds binding s state.observed row.1.bytes (asked.priorSawData || sawData) s' observed := by
  cases engages with
  | nothing exports empty noPrior =>
    rw [Bool.or_false]
    exact exports.heeds
  | data exports nonempty told =>
    have flagged := told_heeds true told
    rw [exports.on.key] at flagged
    exact exports.heeds.trans flagged

theorem RowRuns.grows
    (runs : RowRuns (journalObserver journalKey binding predecessors policy) policy successorWorld s
      state row events s' state') : Grows binding state.observed.journal state'.observed.journal := by
  cases runs with
  | superseded | journalResolved | unreadable | emptySeal => exact .refl _
  | @dataSeal bridged => cases bridged <;> exact .refl _
  | flagRefused opens unsealed prior told => exact (told_heeds true told).grows
  | silent asks => exact asks.heeds.grows
  | short exports => exact exports.heeds.grows
  | importFlagRefused exports nonempty told | shortAfterFlag exports nonempty told =>
    exact exports.heeds.grows.trans (told_heeds true told).grows
  | beginRefused engages | notReadBack engages => exact engages.heeds.grows
  | offered begins offers completes =>
    obtain ⟨first, s₁, -, engages⟩ := begins.engages
    rw [completes.same_observed]
    exact engages.heeds.grows

theorem Engages.quiet {asked : Asked} {items : List SecretPair} {observed : JournalWatch}
    (engages : Engages (journalObserver journalKey binding predecessors policy) policy successorWorld s
      state row asked items false events s' observed) : s'.wip row.1.bytes ≠ some true := by
  rw [(engages.heeds.same row.1.bytes).wip]
  exact engages.on.unstarted (engages.prior rfl)

theorem Begins.quiet {asked : Asked} {items : List SecretPair} {observed : JournalWatch}
    (begins : Begins (journalObserver journalKey binding predecessors policy) policy successorWorld s
      state row asked items false events s' observed) : s'.wip row.1.bytes ≠ some true := by
  have key := begins.on.key
  cases begins with
  | unsealed engages begun =>
    have quiet := engages.quiet
    rw [← key] at quiet ⊢
    exact wip_of_recording begun nofun quiet
  | overSeal engages begun emptySeal readBack =>
    have quiet := engages.quiet
    rw [← key] at quiet ⊢
    exact wip_of_call readBack (wip_of_recording begun nofun quiet) trivial

/-- An import that saw data is shown by the working copy. -/
theorem Engages.flagged_or_empty {asked : Asked} {items : List SecretPair} {sawData : Bool}
    {observed : JournalWatch}
    (engages : Engages (journalObserver journalKey binding predecessors policy) policy successorWorld s
      state row asked items sawData events s' observed)
    (holds : state.observed.journal.HoldsUnder binding) :
    Importing binding observed.journal row.1.bytes ∨ sawData = false := by
  cases sawData with
  | true => exact .inl (engages.heeds.flagged holds (Bool.or_true _))
  | false => exact .inr rfl

/-- An iteration records no marker at all, or only where the working copy shows the import, or where
    none is under way. -/
theorem RowRuns.same_or_flagged
    (runs : RowRuns (journalObserver journalKey binding predecessors policy) policy successorWorld s
      state row events s' state') (holds : state.observed.journal.HoldsUnder binding) :
    (∀ other, SameMarker other s s') ∨ Importing binding state'.observed.journal row.1.bytes ∨
      s'.wip row.1.bytes ≠ some true := by
  cases runs with
  | superseded | journalResolved => exact .inl fun other => .refl other s
  | unreadable live unresolved failed => exact .inl fun other => sameMarker_of_call failed trivial
  | emptySeal opens => exact .inl fun other => sameMarker_of_call opens.read trivial
  | dataSeal opens checked =>
    refine .inl fun other => (sameMarker_of_call opens.read trivial).trans ?_
    have reads : Only ReadCall _ := checked.only (by
      split
      · exact uses_sealIsBridged ..
      · exact uses_pure _)
    exact sameMarker_of_steps checked.steps (reads.mono fun _ => ReadCall.notMarking)
  | flagRefused opens unsealed prior told =>
    exact .inl ((heeds_call opens.read fun _ => trivial).trans (told_heeds true told)).same
  | silent asks gaveNone => exact .inl fun other => (asks.heeds.same other).trans (gaveNone.same other)
  | short exports => exact .inl exports.heeds.same
  | importFlagRefused exports nonempty told | shortAfterFlag exports nonempty told =>
    have flagging := told_heeds true told
    rw [exports.on.key] at flagging
    exact .inl (exports.heeds.trans flagging).same
  | beginRefused engages refused =>
    refine .inr ?_
    rcases engages.flagged_or_empty holds with flagged | rfl
    · exact .inl flagged
    · have quiet := engages.quiet
      rw [← engages.on.key] at quiet ⊢
      exact .inr (wip_of_recording refused nofun quiet)
  | notReadBack engages begun emptySeal readBack =>
    refine .inr ?_
    rcases engages.flagged_or_empty holds with flagged | rfl
    · exact .inl flagged
    · have quiet := engages.quiet
      rw [← engages.on.key] at quiet ⊢
      exact .inr (wip_of_call readBack (wip_of_recording begun nofun quiet) trivial)
  | offered begins offers completes =>
    refine .inr ?_
    rw [completes.same_observed]
    obtain ⟨first, s₁, -, engages⟩ := begins.engages
    rcases engages.flagged_or_empty holds with flagged | rfl
    · exact .inl flagged
    · have started := begins.quiet
      rw [← (sameMarker_of_offers offers _).wip] at started
      rw [← begins.on.key] at started ⊢
      exact .inr (wip_of_completes completes started)

/-- What the working copy shows of the markers, no iteration undoes. -/
theorem told_of_round
    (round : Executes successorWorld s
      (walkRow (journalObserver journalKey binding predecessors policy) policy state row) events s' state')
    (holds : state.observed.journal.HoldsUnder binding)
    {key : DelegateKey} {generation : UInt32}
    (told : Told binding s state.observed.journal key generation) :
    Told binding s' state'.observed.journal key generation := by
  intro started
  have runs := rowRuns_of_executes round
  have kept : SameMarker key.bytes s s' → Importing binding state'.observed.journal key.bytes := by
    intro same
    rw [same.own] at started
    exact (told started).trans (runs.grows.ranks holds key.bytes)
  by_cases here : row.1.bytes = key.bytes
  · rcases runs.same_or_flagged holds with same | flagged | quiet
    · exact kept (same key.bytes)
    · rw [here] at flagged
      exact flagged
    · rw [here] at quiet
      exact absurd (Successor.own_inProgress_iff.mp started).1 quiet
  · have calls := runs.calls quiet_journalObserver
    refine kept (sameMarker_of_steps round.steps (calls.mono ?_))
    intro request call
    cases request with
    | recordMarker predecessor marker =>
      rw [show predecessor = row.1 from call]
      exact here
    | _ => trivial

/-- After a predecessor's own iteration, its marker was not read, or not as its own, or the working
    copy shows what it says. -/
theorem round_told {report : PredecessorMigration}
    (round : Executes successorWorld s
      (walkRow (journalObserver journalKey binding predecessors policy) policy state row) events s' state')
    (holds : state.observed.journal.HoldsUnder binding)
    (pushed : state'.results = state.results ++ [report]) :
    unwalked report = true ∨ (state'.journalResolved.lookup row.1.bytes).isSome ∨
      row.1.bytes ∈ state'.bridged ∨
      Learnt binding s' state'.observed.journal events row.1 row.2 := by
  have runs := rowRuns_of_executes round
  have marked := runs.same_or_flagged holds
  have reported : ∀ {other : PredecessorMigration}, state'.results = state.results ++ [other] →
      other = report := fun same => report_unique same pushed
  have askedTold : ∀ {asked : Asked}, AskedOn (journalObserver journalKey binding predecessors policy)
      policy successorWorld s state row events asked →
      (asked.priorSawData = true → Importing binding state'.observed.journal row.1.bytes) →
      Learnt binding s' state'.observed.journal events row.1 row.2 := by
    intro asked on flagged
    refine ⟨⟨_, on.ownRead⟩, ?_⟩
    intro started
    rcases marked with same | shown | quiet
    · rw [(same row.1.bytes).own] at started
      exact flagged (on.prior_of_started started)
    · exact shown
    · exact absurd (Successor.own_inProgress_iff.mp started).1 quiet
  cases runs with
  | superseded =>
    have same : PredecessorMigration.superseded row.1 row.2 = report := reported rfl
    exact .inl (same ▸ rfl)
  | journalResolved => exact .inr (.inl (by simp [WalkState.push]))
  | @unreadable e =>
    have same : PredecessorMigration.writerUnavailable row.1 row.2 ⟨.readMarker, e⟩ = report :=
      reported rfl
    exact .inl (same ▸ rfl)
  | emptySeal opens =>
    refine .inr (.inr (.inr ⟨⟨_, policy.legacyBridge, List.mem_singleton_self _, .inr nofun⟩, ?_⟩))
    intro started
    have read := opens.read.1
    rw [opens.read.2, Successor.own_of_marker (by rw [← read]; nofun), ← read] at started
    cases started
  | @dataSeal bridged calls s₁ _ opens checked =>
    cases bridged with
    | true => exact .inr (.inr (.inl (List.mem_cons_self ..)))
    | false =>
      obtain ⟨-, own, seen⟩ := own_of_unbridged opens.read checked
      refine .inr (.inr (.inr ⟨seen, ?_⟩))
      intro started
      rcases marked with same | shown | quiet
      · rw [(same row.1.bytes).own, own] at started
        cases started
      · exact shown
      · exact absurd (Successor.own_inProgress_iff.mp started).1 quiet
  | @flagRefused marker _ calls _ _ _ opens unsealed prior told =>
    have on : AskedOn (journalObserver journalKey binding predecessors policy) policy successorWorld s
        state row (⟨.migrationMarker ⟨row.1, row.2, policy.legacyBridge⟩, .ok marker⟩ :: calls)
        (askedOf (knownData (journalObserver journalKey binding predecessors policy) state row.1) row
          marker) := ⟨⟨_, opens⟩, rfl, unsealed, List.mem_cons_self ..⟩
    exact .inr (.inr (.inr (askedTold on fun _ => (told_heeds true told).flagged holds rfl)))
  | silent asks =>
    exact .inr (.inr (.inr (askedTold (asks.on.mono (List.subset_append_left ..))
      (asks.heeds.flagged holds))))
  | short exports => exact .inr (.inr (.inr (askedTold exports.on (exports.heeds.flagged holds))))
  | importFlagRefused exports nonempty told | shortAfterFlag exports nonempty told =>
    have flagging := told_heeds true told
    rw [exports.on.key] at flagging
    have flagged := (exports.heeds.trans flagging).flagged holds (Bool.or_true _)
    exact .inr (.inr (.inr (askedTold (exports.on.mono (List.subset_append_left ..)) fun _ => flagged)))
  | beginRefused engages | notReadBack engages =>
    have flagged := engages.heeds.flagged holds
    exact .inr (.inr (.inr (askedTold (engages.on.mono (List.subset_append_left ..)) fun prior =>
      flagged (by rw [prior, Bool.true_or]))))
  | offered begins offers completes =>
    obtain ⟨first, s₁, -, engages⟩ := begins.engages
    have flagged := engages.heeds.flagged holds
    rw [List.append_assoc] at askedTold ⊢
    rw [completes.same_observed] at askedTold ⊢
    exact .inr (.inr (.inr (askedTold (begins.on.mono (List.subset_append_left ..)) fun prior =>
      flagged (by rw [prior, Bool.true_or]))))

/-- A predecessor that a newer generation's seal covers, or that the journal had resolved. -/
def WalkState.Sealed (state : WalkState JournalWatch) (key : Fixed 32) : Prop :=
  key ∈ state.bridged ∨ (state.journalResolved.lookup key).isSome

omit [Ciborium] in
theorem RowRuns.sealed {State : Type} {world : World Request Answer State} {s s' : State}
    {observer : WalkObserver JournalWatch}
    (runs : RowRuns observer policy world s state row events s' state') {key : Fixed 32}
    (before : state.Sealed key) : state'.Sealed key := by
  cases runs with
  | journalResolved =>
    rcases before with bridged | resolved
    · exact .inl bridged
    · refine .inr ?_
      simp only [WalkState.push, List.lookup_cons]
      split
      · rfl
      · exact resolved
  | @dataSeal bridged =>
    cases bridged with
    | true =>
      rcases before with bridged | resolved
      · exact .inl (List.mem_cons_of_mem _ bridged)
      · exact .inr resolved
    | false => exact before
  | offered begins offers completes => cases completes <;> exact before
  | _ => exact before

theorem visits_grows {visits : List Visit}
    (walked : Visits (journalObserver journalKey binding predecessors policy) policy successorWorld s
      state visits s' state') : Grows binding state.observed.journal state'.observed.journal :=
  walked.invariant (fun _ later => Grows binding state.observed.journal later.observed.journal)
    (fun _ _ round grown => grown.trans (rowRuns_of_executes round).grows) (.refl _)

theorem visits_told {visits : List Visit}
    (walked : Visits (journalObserver journalKey binding predecessors policy) policy successorWorld s
      state visits s' state') (holds : state.observed.journal.HoldsUnder binding)
    {key : DelegateKey} {generation : UInt32}
    (told : Told binding s state.observed.journal key generation) :
    Told binding s' state'.observed.journal key generation := by
  refine (walked.invariant (fun s state => state.observed.journal.HoldsUnder binding ∧
    Told binding s state.observed.journal key generation) ?_ ⟨holds, told⟩).2
  intro s₁ s₂ state₁ state₂ visit member round before
  exact ⟨(rowRuns_of_executes round).grows.holds before.1, told_of_round round before.1 before.2⟩

omit [Ciborium] in
theorem visits_sealed {State : Type} {world : World Request Answer State} {s s' : State}
    {observer : WalkObserver JournalWatch} {visits : List Visit}
    (walked : Visits observer policy world s state visits s' state') {key : Fixed 32}
    (before : state.Sealed key) : state'.Sealed key :=
  walked.invariant (fun _ state => state.Sealed key)
    (fun _ _ round before => (rowRuns_of_executes round).sealed before) before

theorem visits_row_told {visits : List Visit}
    (walked : Visits (journalObserver journalKey binding predecessors policy) policy successorWorld s
      state visits s' state') (holds : state.observed.journal.HoldsUnder binding) :
    ∀ visit ∈ visits, visit.report.key = visit.row.1 ∧ visit.report.generation = visit.row.2 ∧
      (unwalked visit.report = true ∨ state'.Sealed visit.row.1.bytes ∨
        Learnt binding s' state'.observed.journal visit.calls visit.row.1 visit.row.2) := by
  induction walked with
  | nil => exact fun _ member => nomatch member
  | @cons _ _ _ _ _ _ visit visits round pushed rest ih =>
    have runs := rowRuns_of_executes round
    have later := runs.grows.holds holds
    intro other member
    rcases List.mem_cons.mp member with rfl | member
    · obtain ⟨report, results, key, generation⟩ := runs.reports
      obtain rfl := report_unique results pushed
      refine ⟨key, generation, ?_⟩
      rcases round_told round holds pushed with unread | resolved | bridged | ⟨read, told⟩
      · exact .inl unread
      · exact .inr (.inl (visits_sealed rest (.inr resolved)))
      · exact .inr (.inl (visits_sealed rest (.inl bridged)))
      · exact .inr (.inr ⟨read, visits_told rest later told⟩)
    · exact ih later other member

end Stages

end FreenetMigrate.Migrate
