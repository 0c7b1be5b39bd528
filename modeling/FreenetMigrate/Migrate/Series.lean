import FreenetMigrate.Migrate.CountKept

namespace FreenetMigrate.Migrate

open Calls Journal MigrationJournal

/-- The items that the stored journal counts of a predecessor. Once all are imported, no number is
    more. -/
def itemCount [Ciborium] (stored : Option Bytes) (key : Fixed 32) : ℕ∞ :=
  (recalled ((storedJournal stored).bind (·.state key))).1

/-- One journaled walk, from the journal that is stored before it to the one it leaves. It comes to
    its report, or is stopped somewhere. -/
structure JournaledWalk [Ciborium] where
  journalKey : Bytes
  importRevision : UInt32
  predecessors : List DelegateLineageEntry
  policy : SecretSelectionPolicy
  before : Option Bytes
  events : History
  after : Option Bytes
  report : Option JournaledMigrationReport
  runs : report.elim
    (Reaches journalWorld before
      (migrateDelegateSecretsJournaled journalKey importRevision predecessors policy) events after)
    fun report => Executes journalWorld before
      (migrateDelegateSecretsJournaled journalKey importRevision predecessors policy) events after report

section Stored

variable [Ciborium] {stored : Option Bytes} {key : Fixed 32} {binding : JournalBinding}
  {rejected : UInt32}

theorem count_storedState (binding : JournalBinding) :
    (recalled (storedState binding stored key)).1 = itemCount stored key := by
  unfold storedState itemCount
  cases storedJournal stored with
  | none => rfl
  | some journal => exact count_effectiveState journal key

/-- The stored journal knows of at least so many rejections of a predecessor, or that its data was
    imported since. -/
def OwesRejections (rejected : UInt32) (stored : Option Bytes) (key : Fixed 32) : Prop :=
  ∀ binding, (rejected.toNat : ℕ∞) ≤ (recalled (storedState binding stored key)).2

theorem owesRejections_of_unresolved (unresolved : ¬ ResolvedWithData binding stored key)
    (least : (rejected.toNat : ℕ∞) ≤ (recalled (storedState binding stored key)).2) :
    OwesRejections rejected stored key := by
  intro other
  refine le_trans least ?_
  cases found : storedJournal stored with
  | none =>
    rw [storedState, found]
    exact bot_le
  | some journal =>
    rw [storedState_eq found, storedState_eq found]
    unfold effectiveState
    cases held : journal.state key with
    | none => exact le_rfl
    | some state =>
      apply rejections_effective
      intro resolution resolved
      by_contra data
      refine unresolved ⟨journal, resolution, found, ?_, eq_true_of_ne_false data⟩
      rw [effectiveState, held, Option.map_some, resolved]

theorem pending_of_unresolved {journal : MigrationJournal} (found : storedJournal stored = some journal)
    (counted : 0 < itemCount stored key) (unresolved : ¬ ResolvedWithData binding stored key) :
    ∃ attempts flag rejected absentStreak itemsSeen, journal.effectiveState key binding =
      some (.pending attempts flag rejected absentStreak itemsSeen) := by
  rw [← count_storedState binding, storedState_eq found] at counted
  cases held : journal.effectiveState key binding with
  | none =>
    rw [held] at counted
    exact absurd counted (lt_irrefl _)
  | some state =>
    cases state with
    | pending attempts flag rejected absentStreak itemsSeen =>
      exact ⟨attempts, flag, rejected, absentStreak, itemsSeen, rfl⟩
    | resolved resolution =>
      cases data : resolution.isDataBearing with
      | true => exact absurd ⟨journal, resolution, found, held, data⟩ unresolved
      | false =>
        rw [held] at counted
        change 0 < (memory (.resolved resolution)).1 at counted
        rw [memory_of_noData data] at counted
        exact absurd counted (lt_irrefl _)

end Stored

namespace JournaledWalk

section Walk

variable [Ciborium] (walk : JournaledWalk) {key : Fixed 32} {report : JournaledMigrationReport}

def binding : JournalBinding := .new walk.policy walk.importRevision

theorem executes (reported : walk.report = some report) :
    Executes journalWorld walk.before (migrateDelegateSecretsJournaled walk.journalKey
      walk.importRevision walk.predecessors walk.policy) walk.events walk.after report := by
  have runs := walk.runs
  rw [reported] at runs
  exact runs

theorem reaches : Reaches journalWorld walk.before (migrateDelegateSecretsJournaled walk.journalKey
    walk.importRevision walk.predecessors walk.policy) walk.events walk.after := by
  cases reported : walk.report with
  | none =>
    have runs := walk.runs
    rw [reported] at runs
    exact runs
  | some report => exact (walk.executes reported).reaches

theorem imported (reported : walk.report = some report) {predecessor : DelegateKey}
    {generation : UInt32} {tally : ImportTally}
    (member : .imported predecessor generation tally ∈ report.report) :
    ⟨.recordMarker predecessor (.done true), .ok ()⟩ ∈ walk.events := by
  have runs := journaledRuns_of_executes (walk.executes reported)
  have refusal : ∀ error, .imported predecessor generation tally ∉
      (refused walk.predecessors error).report := by
    intro error wrong
    obtain ⟨row, -, same⟩ := List.mem_map.mp wrong
    cases same
  generalize walk.events = events at runs ⊢
  cases runs with
  | notStarted => exact absurd member (refusal _)
  | notEstablished => exact absurd member (refusal _)
  | @walked _ _ _ _ walking _ _ _ _ _ _ outcome _ steps reads starts establishes walked concludes =>
    obtain ⟨visits, -, rfl, results, visited⟩ := visits_of_walk walked
    have listed : .imported predecessor generation tally ∈ outcome.results := by
      cases concludes <;> exact member
    rw [results] at listed
    obtain ⟨visit, among, same⟩ := List.mem_map.mp listed
    obtain ⟨s₁, state₁, s₂, state₂, runs, pushed⟩ := visited.visited among
    rw [same] at pushed
    have called := mem_visitCalls.mpr ⟨visit, among, runs.imported pushed⟩
    exact List.mem_append_left _ (List.mem_append_right _ called)

variable [LawfulCiborium]

theorem remembers (kept : ¬ Forgets walk.policy walk.events key) :
    Remembers walk.binding key walk.before walk.events walk.after := by
  let holds : History → Option Bytes → Prop := fun past now =>
    Forgets walk.policy past key ∨ Remembers walk.binding key walk.before past now
  have either : holds walk.events walk.after := by
    refine walk.reaches.always journalWorld_total (.inr (remembers_start _)) ?_
    intro history final value run
    exact (journaledRuns_of_executes run).remembers journalKept_journalWorld
      (Recorded.always_start (remembers_start _))
  exact either.resolve_left kept

theorem itemCount_le (kept : ¬ Forgets walk.policy walk.events key) :
    itemCount walk.before key ≤ itemCount walk.after key := by
  have remembers := (walk.remembers kept).start
  rw [count_storedState] at remembers
  rcases eq_zero_or_pos (itemCount walk.before key) with none | counted
  · rw [none]
    exact bot_le
  · rw [← count_storedState walk.binding, ← count_storedState walk.binding]
    exact (remembers counted).1

theorem sealsEnough (key : Fixed 32) : Follows (SealsEnough walk.journalKey key (itemCount walk.before key)) []
    walk.events := by
  obtain ⟨more, final, value, run⟩ := walk.reaches.completes journalWorld_total
  obtain ⟨log, -, kept⟩ := run.recorded []
  have runs := (journaledRuns_of_executes kept).sealsEnough key journalKept_journalWorld
    (Recorded.always_start (remembers_start _))
  rw [count_storedState] at runs
  exact (follows_append.mp runs).1

theorem owesRejections {rejected : UInt32} (kept : ¬ Forgets walk.policy walk.events key)
    (unresolved : ¬ ResolvedWithData walk.binding walk.after key)
    (counted : 0 < itemCount walk.before key) (owes : OwesRejections rejected walk.before key) :
    OwesRejections rejected walk.after key := by
  have remembers := (walk.remembers kept).start
  rw [count_storedState] at remembers
  exact owesRejections_of_unresolved unresolved ((owes walk.binding).trans (remembers counted).2)

/-- The status a walk ends with counts the rejections that the journal it leaves owes. -/
theorem status_owes {rejected : UInt32} {status : JournalStatus} {e : DelegateLineageEntry}
    (reported : walk.report = some report) (ended : report.status = some status)
    (member : e ∈ walk.predecessors) (counted : 0 < itemCount walk.after e.delegateKey)
    (unresolved : ¬ ResolvedWithData walk.binding walk.after e.delegateKey)
    (owes : OwesRejections rejected walk.after e.delegateKey) :
    ∃ pending total, status = .incomplete pending total ∧ rejected ≤ total := by
  have runs := journaledRuns_of_executes (walk.executes reported)
  have left : ∃ journal unverified, storedJournal walk.after = some journal ∧
      status = statusWithUnverified journal unverified walk.predecessors walk.binding := by
    generalize walk.events = events at runs
    cases runs with
    | notStarted | notEstablished => cases ended
    | walked steps reads starts establishes walked concludes =>
      cases concludes with
      | refused => cases ended
      | @stored _ _ _ _ _ journal checked stores =>
        refine ⟨journal, _, ?_, (Option.some.inj ended).symm⟩
        have written := stores.stored_of_ok journalKept_journalWorld
        rw [show walk.after = some journal.encode from written]
        exact storedJournal_encode journal
  obtain ⟨journal, unverified, found, rfl⟩ := left
  obtain ⟨attempts, flag, known, absentStreak, itemsSeen, held⟩ :=
    pending_of_unresolved found counted unresolved
  obtain ⟨flag', viewed⟩ := pending_viewOf unverified held
  obtain ⟨pending, total, status, -, most⟩ := status_of_pending member viewed
  have least := owes walk.binding
  rw [storedState_eq found, held] at least
  refine ⟨pending, total, statusWithUnverified_eq.trans status, ?_⟩
  exact UInt32.le_trans (UInt32.le_iff_toNat_le.mpr (ENat.natCast_le_natCast.mp least)) most

end Walk

end JournaledWalk

section Chain

variable [Ciborium] [LawfulCiborium] {key : Fixed 32} {walks : List JournaledWalk}

/-- No walk of a series loses the count that its first one found, if none forgets it. -/
theorem itemCount_of_chain {least : ℕ∞}
    (chained : walks.IsChain fun walk next => walk.after = next.before)
    (kept : ∀ walk ∈ walks, ¬ Forgets walk.policy walk.events key)
    (start : ∀ first ∈ walks.head?, least ≤ itemCount first.before key) :
    ∀ walk ∈ walks, least ≤ itemCount walk.before key ∧ least ≤ itemCount walk.after key := by
  refine invariant_of_chain (fun stored => least ≤ itemCount stored key) chained start ?_
  intro walk member counted
  exact counted.trans (walk.itemCount_le (kept walk member))

theorem owesRejections_of_chain {rejected : UInt32}
    (chained : walks.IsChain fun walk next => walk.after = next.before)
    (kept : ∀ walk ∈ walks, ¬ Forgets walk.policy walk.events key)
    (unresolved : ∀ walk ∈ walks, ¬ ResolvedWithData walk.binding walk.after key)
    (start : ∀ first ∈ walks.head?,
      0 < itemCount first.before key ∧ OwesRejections rejected first.before key) :
    ∀ walk ∈ walks, 0 < itemCount walk.after key ∧ OwesRejections rejected walk.after key := by
  intro walk member
  refine (invariant_of_chain (fun stored => 0 < itemCount stored key ∧ OwesRejections rejected stored key)
    chained start ?_ walk member).2
  intro walk member owed
  exact ⟨owed.1.trans_le (walk.itemCount_le (kept walk member)),
    walk.owesRejections (kept walk member) (unresolved walk member) owed.1 owed.2⟩

/-- The known item count protects every later retry: once a started import is stored with at least
    `n` items, every later walk leaves a count of at least `n`, and seals data only over an export of
    as many; and a rejected count stays in the status until the data is there. Only a walk under a
    snapshot policy that stores the predecessor as superseded forgets it. -/
theorem item_count_protects_retries {first : JournaledWalk} {later : List JournaledWalk}
    {written : Bytes} {journal : MigrationJournal} {n attempts rejected absentStreak itemsSeen : UInt32}
    (chained : (first :: later).IsChain fun walk next => walk.after = next.before)
    (stores : ⟨.storeJournal written, .ok ()⟩ ∈ first.events)
    (decoded : MigrationJournal.decode written = .ok journal)
    (started : journal.state key = some (.pending attempts .started rejected absentStreak itemsSeen))
    (enough : n ≤ itemsSeen)
    (kept : ∀ walk ∈ first :: later, ¬ Forgets walk.policy walk.events key) :
    (∀ walk ∈ first :: later, (n.toNat : ℕ∞) ≤ itemCount walk.after key) ∧
    (∀ walk ∈ later, Follows (SealsEnough walk.journalKey key n.toNat) [] walk.events ∧
      ∀ report, walk.report = some report → ∀ predecessor generation tally,
        .imported predecessor generation tally ∈ report.report →
        ⟨.recordMarker predecessor (.done true), .ok ()⟩ ∈ walk.events) ∧
    ∀ earlier walk rest, later = earlier ++ walk :: rest →
      ∀ attempts flag rejected absentStreak itemsSeen,
        storedState walk.binding walk.before key =
          some (.pending attempts flag rejected absentStreak itemsSeen) → 0 < itemsSeen →
        (∀ next ∈ walk :: rest, ¬ ResolvedWithData next.binding next.after key) →
        ∀ next ∈ walk :: rest, ∀ report status, next.report = some report →
          report.status = some status → ∀ e ∈ next.predecessors, e.delegateKey = key →
          ∃ pending total, status = .incomplete pending total ∧ rejected ≤ total := by
  obtain ⟨link, links⟩ := List.isChain_cons.mp chained
  have counted : (n.toNat : ℕ∞) ≤ itemCount first.after key := by
    have held : storedState first.binding (some written) key =
        some (.pending attempts .started rejected absentStreak itemsSeen) := by
      rw [storedState_eq (storedJournal_of_decode decoded), effectiveState, started]
      rfl
    have shown : Flagged first.binding (some written) key := by
      refine flagged_iff.mpr ⟨journal, storedJournal_of_decode decoded, ?_⟩
      unfold Importing effectiveRank
      rw [started, worth_of_holds (holds_pending ..)]
      exact le_rfl
    obtain ⟨-, most⟩ := (first.remembers (kept first (List.mem_cons_self ..))).since written stores shown
    rw [held] at most
    rw [← count_storedState first.binding]
    exact le_trans (ENat.natCast_le_natCast.mpr (UInt32.le_iff_toNat_le.mp enough)) most.1
  have keeps : ∀ walk ∈ later, ¬ Forgets walk.policy walk.events key :=
    fun walk member => kept walk (List.mem_cons_of_mem _ member)
  have counts := itemCount_of_chain links keeps fun next member => link next member ▸ counted
  refine ⟨?_, ?_, ?_⟩
  · exact List.forall_mem_cons.mpr ⟨counted, fun walk member => (counts walk member).2⟩
  · intro walk member
    have saw := walk.sealsEnough key
    refine ⟨saw.mono ?_, fun report reported _ _ _ => walk.imported reported⟩
    intro past event enough predecessor answer sealed own
    obtain ⟨secrets, last, most⟩ := enough predecessor answer sealed own
    exact ⟨secrets, last, (counts walk member).1.trans most⟩
  · rintro earlier walk rest rfl attempts flag rejected absentStreak itemsSeen held known unresolved
      next member report status reported ended e listed rfl
    have among : ∀ next ∈ walk :: rest, next ∈ earlier ++ walk :: rest :=
      fun next member => List.mem_append_right _ member
    have start : 0 < itemCount walk.before e.delegateKey ∧
        OwesRejections rejected walk.before e.delegateKey := by
      constructor
      · rw [← count_storedState walk.binding, held]
        exact ENat.natCast_lt_natCast.mpr (UInt32.lt_iff_toNat_lt.mp known)
      · apply owesRejections_of_unresolved (not_resolvedWithData held)
        rw [held]
        exact le_rfl
    obtain ⟨counted, owes⟩ := owesRejections_of_chain (List.IsChain.right_of_append links)
      (fun next member => keeps next (among next member)) unresolved
      (by rintro first ⟨⟩; exact start) next member
    exact next.status_owes reported ended listed counted (unresolved next member) owes

end Chain

section Samples

open scoped Cbor

structure SampleAnswers where
  marker : DelegateKey → Except String (Option MigrationMarker)
  write : RecoveredSecret → ItemWrite
  probe : DelegateKey → ProbeVerdict
  secrets : List SecretPair

def SampleAnswers.handler (answers : SampleAnswers) :
    Option Bytes → (request : Request) → Answer request × Option Bytes
  | stored, .migrationMarker query => (answers.marker query.predecessor, stored)
  | stored, .recordMarker _ _ => (.ok (), stored)
  | stored, .writeSecret item => (answers.write item, stored)
  | stored, .flushPredecessor _ => (.ok (), stored)
  | stored, .loadJournal => (.ok stored, stored)
  | _, .storeJournal bytes => (.ok (), some bytes)
  | stored, .probeVerdict key => (.ok (answers.probe key), stored)
  | stored, .fetchSecrets _ => (.ok answers.secrets, stored)

theorem journalWorld_handler (answers : SampleAnswers) (stored : Option Bytes) (request : Request) :
    journalWorld stored request (answers.handler stored request).1
      (answers.handler stored request).2 := by
  cases request with
  | loadJournal => exact ⟨rfl, rfl⟩
  | _ => rfl

def sampleWalk (answers : SampleAnswers) (policy : SecretSelectionPolicy) (importRevision : UInt32)
    (before : Option Bytes) : JournaledWalk :=
  let program := migrateDelegateSecretsJournaled MIGRATION_JOURNAL_KEY importRevision
    [sampleEntry 1, sampleEntry 2] policy
  { journalKey := MIGRATION_JOURNAL_KEY
    importRevision
    predecessors := [sampleEntry 1, sampleEntry 2]
    policy
    before
    events := (program.run answers.handler before).1
    after := (program.run answers.handler before).2.1
    report := some (program.run answers.handler before).2.2
    runs := executes_run (journalWorld_handler answers) before }

theorem sampleWalk_before (answers : SampleAnswers) (policy : SecretSelectionPolicy)
    (importRevision : UInt32) (before : Option Bytes) :
    (sampleWalk answers policy importRevision before).before = before := rfl

def storesStarted [Ciborium] (key : Fixed 32) (n : UInt32) (event : Event Request Answer) : Bool :=
  match event with
  | ⟨.storeJournal written, .ok ()⟩ =>
    match (storedJournal (some written)).bind (·.state key) with
    | some (.pending _ .started _ _ itemsSeen) => decide (n ≤ itemsSeen)
    | _ => false
  | _ => false

theorem started_of_stores [Ciborium] {key : Fixed 32} {n : UInt32} {event : Event Request Answer}
    (stores : storesStarted key n event = true) :
    ∃ written journal attempts rejected absentStreak itemsSeen,
      event = ⟨.storeJournal written, .ok ()⟩ ∧ MigrationJournal.decode written = .ok journal ∧
      journal.state key = some (.pending attempts .started rejected absentStreak itemsSeen) ∧
      n ≤ itemsSeen := by
  unfold storesStarted at stores
  split at stores
  · rename_i written
    split at stores
    · rename_i attempts rejected absentStreak itemsSeen found
      obtain ⟨journal, decodes, held⟩ := Option.bind_eq_some_iff.mp found
      refine ⟨written, journal, attempts, rejected, absentStreak, itemsSeen, rfl, ?_, held,
        of_decide_eq_true stores⟩
      rw [storedJournal, Option.bind_some] at decodes
      cases decoded : MigrationJournal.decode written with
      | error e =>
        rw [decoded] at decodes
        cases decodes
      | ok other =>
        rw [decoded] at decodes
        exact congrArg Except.ok (Option.some.inj decodes)
    · cases stores
  · cases stores

def fetchedExport (event : Event Request Answer) : Option (DelegateKey × List SecretPair) :=
  match event with
  | ⟨.fetchSecrets key, .ok secrets⟩ => some (key, secrets)
  | _ => none

/-- The older of two predecessors exports two items, and the successor refuses one for good. -/
def rejectingWalk : JournaledWalk :=
  sampleWalk
    { marker _ := .ok none
      write item := if item.key = [2] then .failed "refused" .permanent else .written
      probe key := if key = lineageKey (sampleEntry 1) then .executable else .noReply
      secrets := [([1], [1]), ([2], [2])] } .unionAllGenerations 0 none

def silentWalk : JournaledWalk :=
  sampleWalk
    { marker _ := .ok none
      write _ := .written
      probe _ := .noReply
      secrets := [] } .unionAllGenerations 1 rejectingWalk.after

def shortWalk : JournaledWalk :=
  sampleWalk
    { marker _ := .ok none
      write _ := .written
      probe _ := .executable
      secrets := [([1], [1])] } .unionAllGenerations 1 silentWalk.after

theorem item_count_protects_retries_short :
    let key := (sampleEntry 1).delegateKey
    ((2 : UInt32).toNat : ℕ∞) ≤ itemCount shortWalk.after key ∧
      Follows (SealsEnough shortWalk.journalKey key (2 : UInt32).toNat) [] shortWalk.events ∧
      ∃ report status, shortWalk.report = some report ∧ report.status = some status ∧
        ∃ pending total, status = .incomplete pending total ∧ 1 ≤ total := by
  intro key
  have chained : [rejectingWalk, silentWalk, shortWalk].IsChain fun walk next =>
      walk.after = next.before := .cons_cons (sampleWalk_before ..).symm
    (.cons_cons (sampleWalk_before ..).symm (.singleton _))
  have stored : rejectingWalk.events.any (storesStarted key 2) = true := by decide +kernel
  obtain ⟨event, stores, counts⟩ := List.any_eq_true.mp stored
  obtain ⟨written, journal, attempts, rejected, absentStreak, itemsSeen, rfl, decoded, started, enough⟩ :=
    started_of_stores counts
  have kept : ∀ walk ∈ [rejectingWalk, silentWalk, shortWalk],
      ¬ Forgets walk.policy walk.events key := by
    intro walk member forgets
    have union : walk.policy = .unionAllGenerations := by
      simp only [List.mem_cons, List.not_mem_nil, or_false] at member
      rcases member with rfl | rfl | rfl <;> rfl
    rw [union] at forgets
    cases forgets.snapshot
  -- One evaluation for all of these, since each walk starts from what the one before it left.
  have states : storedState silentWalk.binding silentWalk.before key = some (.pending 0 .none 1 0 2) ∧
      storedState silentWalk.binding silentWalk.after key = some (.pending 1 .started 1 0 2) ∧
      storedState shortWalk.binding shortWalk.after key = some (.pending 2 .started 1 0 2) ∧
      (shortWalk.report.bind fun report => report.status) =
        some (.incomplete [⟨lineageKey (sampleEntry 1), 1, 2, .started, 0, 2⟩] 1) := by decide +kernel
  obtain ⟨reopened, first, second, ended⟩ := states
  have unresolved : ∀ next ∈ [silentWalk, shortWalk],
      ¬ ResolvedWithData next.binding next.after key := by
    intro next member
    simp only [List.mem_cons, List.not_mem_nil, or_false] at member
    rcases member with rfl | rfl
    · exact not_resolvedWithData first
    · exact not_resolvedWithData second
  obtain ⟨report, reported, status⟩ := Option.bind_eq_some_iff.mp ended
  obtain ⟨counted, seals, owes⟩ :=
    item_count_protects_retries chained stores decoded started enough kept
  have last : shortWalk ∈ [silentWalk, shortWalk] := .tail _ (.head _)
  obtain ⟨enoughSeen, -⟩ := seals shortWalk last
  refine ⟨counted shortWalk (.tail _ last), ?_, report, _, reported, status, ?_⟩
  · -- Elaborating the hypothesis as a term would run the walk to see whether it is a function.
    assumption
  · exact owes [] silentWalk [shortWalk] rfl 0 .none 1 0 2 reopened (by decide) unresolved shortWalk last
      report _ reported status (sampleEntry 1) (List.mem_cons_self ..) rfl

/-- Instead the newer predecessor exports under a snapshot policy, while the marker of the older one
    cannot be read. -/
def snapshotWalk : JournaledWalk :=
  sampleWalk
    { marker key := if key = lineageKey (sampleEntry 1) then .error "unreadable" else .ok none
      write _ := .written
      probe _ := .executable
      secrets := [([3], [3])] } .newestSnapshotWins 1 rejectingWalk.after

/-- Then all generations are wanted again, and the older predecessor exports one item. -/
def forgetfulWalk : JournaledWalk :=
  sampleWalk
    { marker _ := .ok (some (.inProgress true))
      write _ := .written
      probe _ := .executable
      secrets := [([1], [1])] } .unionAllGenerations 1 snapshotWalk.after

/-- The reopened rejection is superseded. Its count and its rejection are lost, and an export of one
    item then passes for the two. -/
theorem superseded_forgets_items :
    let key := (sampleEntry 1).delegateKey
    ([rejectingWalk, snapshotWalk, forgetfulWalk].IsChain fun walk next => walk.after = next.before) ∧
      rejectingWalk.events.any (storesStarted key 2) = true ∧
      storedState snapshotWalk.binding snapshotWalk.before key = some (.pending 0 .none 1 0 2) ∧
      storedState snapshotWalk.binding snapshotWalk.after key =
        some (.resolved .supersededByAuthoritative) ∧
      (snapshotWalk.report.bind fun report => report.status) =
        some (.incomplete [⟨lineageKey (sampleEntry 1), 1, 0, .started, 0, 0⟩] 0) ∧
      itemCount snapshotWalk.after key < (2 : UInt32).toNat ∧
      forgetfulWalk.events.filterMap fetchedExport = [(lineageKey (sampleEntry 1), [([1], [1])])] ∧
      (forgetfulWalk.report.map fun report => report.report) =
        some [.alreadyMigrated (lineageKey (sampleEntry 2)) 2,
          .imported (lineageKey (sampleEntry 1)) 1 ⟨1, 0, 0, 0, 0⟩] := by
  intro key
  have chained : [rejectingWalk, snapshotWalk, forgetfulWalk].IsChain fun walk next =>
      walk.after = next.before := .cons_cons (sampleWalk_before ..).symm
    (.cons_cons (sampleWalk_before ..).symm (.singleton _))
  have counted : rejectingWalk.events.any (storesStarted key 2) = true := by decide +kernel
  have states : storedState snapshotWalk.binding snapshotWalk.before key =
        some (.pending 0 .none 1 0 2) ∧
      storedState snapshotWalk.binding snapshotWalk.after key =
        some (.resolved .supersededByAuthoritative) ∧
      (snapshotWalk.report.bind fun report => report.status) =
        some (.incomplete [⟨lineageKey (sampleEntry 1), 1, 0, .started, 0, 0⟩] 0) ∧
      forgetfulWalk.events.filterMap fetchedExport = [(lineageKey (sampleEntry 1), [([1], [1])])] ∧
      (forgetfulWalk.report.map fun report => report.report) =
        some [.alreadyMigrated (lineageKey (sampleEntry 2)) 2,
          .imported (lineageKey (sampleEntry 1)) 1 ⟨1, 0, 0, 0, 0⟩] := by decide +kernel
  obtain ⟨reopened, superseded, status, exported, imported⟩ := states
  have forgotten : itemCount snapshotWalk.after key < (2 : UInt32).toNat := by
    rw [← count_storedState snapshotWalk.binding, superseded]
    exact ENat.natCast_lt_natCast.mpr (by decide)
  exact ⟨chained, counted, reopened, superseded, status, forgotten, exported, imported⟩

end Samples

end FreenetMigrate.Migrate
