import FreenetMigrate.Migrate.Discipline
import FreenetMigrate.Migrate.FailClosed
import FreenetMigrate.Migrate.Status

namespace FreenetMigrate.Migrate

open Calls Journal

def PredecessorMigration.retryMayHelp : PredecessorMigration → Bool
  | .unresponsive _ _ _ => true
  | .writerUnavailable _ _ _ => true
  | .incomplete _ _ tally failure =>
    tally.retryMayHelp || failure.any fun f => f.stage != .item
  | _ => false

def retryMayHelp (predecessors : List PredecessorMigration) : Bool :=
  predecessors.any fun row => row.retryMayHelp

structure OnlyRejections (tally : ImportTally) (failure : Option WriterFailure) : Prop where
  rejected : 0 < tally.rejected
  failed : tally.failed = 0
  withheld : tally.withheld = 0
  stage : ∀ f, failure = some f → f.stage = .item

section Rows

variable {tally : ImportTally} {failure : Option WriterFailure} {key : DelegateKey}
  {generation : UInt32}

theorem itemFailureAtMost_iff :
    itemFailureAtMost failure = true ↔ ∀ f, failure = some f → f.stage = .item := by
  cases failure <;> simp [itemFailureAtMost]

theorem rowResolution_incomplete {Observed : Type} {outcome : WalkState Observed}
    {policy : SecretSelectionPolicy} {importRevision : UInt32}
    {resolved : List (Option JournalResolution)} :
    rowResolution outcome policy importRevision resolved (.incomplete key generation tally failure) =
        some (.importedWithRejections (toU32 tally.rejected) importRevision 0) ↔
      OnlyRejections tally failure := by
  simp only [rowResolution]
  constructor
  · intro resolves
    split at resolves
    · rename_i rejections
      simp only [Bool.and_eq_true, decide_eq_true_eq, beq_iff_eq, itemFailureAtMost_iff] at rejections
      exact ⟨rejections.1.1.1, rejections.1.1.2, rejections.1.2, rejections.2⟩
    · cases resolves
  · intro only
    rw [if_pos]
    simp only [Bool.and_eq_true, decide_eq_true_eq, beq_iff_eq, itemFailureAtMost_iff]
    exact ⟨⟨⟨only.rejected, only.failed⟩, only.withheld⟩, only.stage⟩

theorem retryMayHelp_incomplete :
    (PredecessorMigration.incomplete key generation tally failure).retryMayHelp = false ↔
      tally.failed = 0 ∧ tally.withheld = 0 ∧ ∀ f, failure = some f → f.stage = .item := by
  simp only [PredecessorMigration.retryMayHelp, ImportTally.retryMayHelp, Bool.or_eq_false_iff,
    decide_eq_false_iff_not, Nat.not_lt, Nat.le_zero, and_assoc]
  refine and_congr_right fun _ => and_congr_right fun _ => ?_
  cases failure <;> simp

end Rows

section Offers

variable {State : Type} {world : World Request Answer State} {s s' : State} {asked : Asked}
  {withheldKeys : List Bytes} {offering result : Offering} {items : List SecretPair}
  {rounds : List History}

structure ItemFailures (offering : Offering) : Prop where
  stage : ∀ f, offering.failure = some f → f.stage = .item
  counted : offering.failure.isSome = true → 0 < offering.tally.failed + offering.tally.rejected

theorem itemFailures_start : ItemFailures .start := ⟨nofun, nofun⟩

theorem ItemFailures.answered (failures : ItemFailures offering) (key : Bytes) (answer : ItemWrite) :
    ItemFailures (offering.answered key answer) := by
  have stage : ∀ error f, offering.failure.or (some ⟨.item, error⟩) = some f → f.stage = .item := by
    intro error f found
    cases before : offering.failure with
    | none =>
      rw [before] at found
      obtain rfl := Option.some.inj found
      rfl
    | some first =>
      rw [before] at found
      exact failures.stage f (before.trans found)
  cases answer with
  | written | alreadyAuthoritative => exact ⟨failures.stage, failures.counted⟩
  | failed error retry =>
    cases retry with
    | retryable => exact ⟨stage error, fun _ => by simp only [Offering.answered]; omega⟩
    | permanent => exact ⟨stage error, fun _ => by simp only [Offering.answered]; omega⟩

theorem offered_answered (key : Bytes) (answer : ItemWrite) :
    (offering.answered key answer).tally.offered = offering.tally.offered + 1 := by
  cases answer with
  | written | alreadyAuthoritative =>
    simp only [Offering.answered, ImportTally.offered]
    omega
  | failed error retry =>
    cases retry <;> simp only [Offering.answered, ImportTally.offered] <;> omega

theorem written_answered (key : Bytes) (answer : ItemWrite) :
    (offering.answered key answer).tally.written =
      offering.tally.written + if answer = .written then 1 else 0 := by
  cases answer with
  | written | alreadyAuthoritative => simp [Offering.answered]
  | failed error retry => cases retry <;> simp [Offering.answered]

theorem offered_offers
    (offers : Iterates world (offerItem asked withheldKeys) s offering items rounds s' result) :
    result.tally.offered = offering.tally.offered + items.length := by
  induction offers with
  | nil => rfl
  | cons round _ ih =>
    rw [ih, List.length_cons]
    rcases offerItem_cases round with ⟨-, -, -, rfl⟩ | ⟨-, answer, -, -, rfl⟩
    · simp only [ImportTally.offered]
      omega
    · rw [offered_answered]
      omega

def writtenOf (calls : History) : Nat := (offersOf calls).countP fun offer => offer.2 = .written

theorem written_offers
    (offers : Iterates world (offerItem asked withheldKeys) s offering items rounds s' result) :
    result.tally.written = offering.tally.written + writtenOf rounds.flatten := by
  induction offers with
  | nil => rfl
  | cons round _ ih =>
    rw [ih, List.flatten_cons, writtenOf, writtenOf, offersOf_append, List.countP_append]
    rcases offerItem_cases round with ⟨-, rfl, -, rfl⟩ | ⟨-, answer, rfl, -, rfl⟩
    · simp [offersOf]
    · rw [written_answered, offersOf, offersOf, List.countP_singleton]
      simp only [decide_eq_true_eq]
      omega

theorem itemFailures_offers
    (offers : Iterates world (offerItem asked withheldKeys) s offering items rounds s' result)
    (failures : ItemFailures offering) : ItemFailures result := by
  induction offers with
  | nil => exact failures
  | cons round _ ih =>
    rcases offerItem_cases round with ⟨-, -, -, rfl⟩ | ⟨-, answer, -, -, rfl⟩
    · exact ih ⟨failures.stage, failures.counted⟩
    · exact ih (failures.answered _ answer)

end Offers

section Calls

variable {first rest : History}

theorem exportOf_append (journal : Only JournalCall first) : exportOf (first ++ rest) = exportOf rest := by
  induction first with
  | nil => rfl
  | cons event events ih =>
    obtain ⟨call, calls⟩ := only_cons.mp journal
    obtain ⟨request, answer⟩ := event
    rw [List.cons_append]
    cases request with
    | migrationMarker | loadJournal | storeJournal => exact ih calls
    | _ => exact call.elim

theorem offersOf_of_unoffered (unoffered : Only (fun request => ∀ item, request ≠ .writeSecret item) first) :
    offersOf first = [] := by
  induction first with
  | nil => rfl
  | cons event events ih =>
    obtain ⟨call, calls⟩ := only_cons.mp unoffered
    obtain ⟨request, answer⟩ := event
    cases request with
    | writeSecret item => exact absurd rfl (call item)
    | _ => exact ih calls

theorem PreparingCall.unoffered {key : DelegateKey} {request : Request}
    (call : PreparingCall key request) : ∀ item, request ≠ .writeSecret item := by
  rintro item rfl
  exact call

end Calls

section Conserved

variable {State Observed : Type} {world : World Request Answer State} {s s' : State}
  {observer : WalkObserver Observed} {policy : SecretSelectionPolicy}
  {state state' : WalkState Observed} {row : DelegateKey × UInt32} {events : History}
  {observed : Observed} {asked : Asked} {items secrets : List SecretPair} {sawData : Bool}

def exportedPairs (observer : WalkObserver Observed) (calls : History) : List SecretPair :=
  (exportOf calls).filter fun pair => !observer.withholds pair.1

theorem offerable_filter (observer : WalkObserver Observed) (secrets : List SecretPair) :
    offerable observer secrets = (secrets.filter fun pair => !isMarker pair.1).filter
      fun pair => !observer.withholds pair.1 := by
  rw [List.filter_filter]
  unfold offerable
  congr 1
  funext pair
  exact Bool.and_comm ..

theorem Asks.journal (quiet : observer.Quiet)
    (asks : Asks observer policy world s state row asked events s' observed) :
    Only JournalCall events := by
  cases asks with
  | fresh => simp [JournalCall]
  | flagged opens unsealed prior told => exact only_cons.mpr ⟨trivial, told.only (quiet ..)⟩

theorem Exports.exported {more : History} (quiet : observer.Quiet)
    (exports : Exports observer policy world s state row asked secrets events s' observed) :
    exportedPairs observer (events ++ more) = offerable observer secrets := by
  cases exports with
  | mk asks =>
    rw [offerable_filter, exportedPairs, List.append_assoc, exportOf_append (asks.journal quiet)]
    rfl

theorem Engages.exported {more : History} (quiet : observer.Quiet)
    (engages : Engages observer policy world s state row asked items sawData events s' observed) :
    exportedPairs observer (events ++ more) = items := by
  cases engages with
  | nothing exports empty => exact (exports.exported quiet).trans empty
  | data exports =>
    rw [List.append_assoc]
    exact exports.exported quiet

theorem Begins.exported {more : History} (quiet : observer.Quiet)
    (begins : Begins observer policy world s state row asked items sawData events s' observed) :
    exportedPairs observer (events ++ more) = items := by
  cases begins with
  | unsealed engages | overSeal engages =>
    rw [List.append_assoc]
    exact engages.exported quiet

/-- A tally counts every pair that was exported once, and as written what was flushed. -/
structure Tallied (observer : WalkObserver Observed) (row : DelegateKey × UInt32) (calls : History)
    (tally : ImportTally) : Prop where
  conserved : tally.offered = (exportedPairs observer calls).length
  flushed : ⟨.flushPredecessor row.1, .ok ()⟩ ∈ calls → tally.written = writtenOf calls
  unflushed : ⟨.flushPredecessor row.1, .ok ()⟩ ∉ calls → tally.written = 0

inductive RowTallies (observer : WalkObserver Observed) (row : DelegateKey × UInt32) (calls : History) :
    PredecessorMigration → Prop
  | imported {key : DelegateKey} {generation : UInt32} {tally : ImportTally}
      (tallied : Tallied observer row calls tally) (clean : tally.isClean = true) :
      RowTallies observer row calls (.imported key generation tally)
  | incomplete {key : DelegateKey} {generation : UInt32} {tally : ImportTally}
      {failure : Option WriterFailure} (tallied : Tallied observer row calls tally)
      (advice : (PredecessorMigration.incomplete key generation tally failure).retryMayHelp = false →
        0 < tally.rejected) :
      RowTallies observer row calls (.incomplete key generation tally failure)
  | untallied {report : PredecessorMigration}
      (notImported : ∀ key generation tally, report ≠ .imported key generation tally)
      (notIncomplete : ∀ key generation tally failure,
        report ≠ .incomplete key generation tally failure) :
      RowTallies observer row calls report

structure Settles (observer : WalkObserver Observed) (row : DelegateKey × UInt32) (before : History)
    (offering : Offering) : Prop where
  offered : ∀ ending, offering.tally.offered = (exportedPairs observer (before ++ ending)).length
  written : ∀ ending, Only (fun request => ∀ item, request ≠ .writeSecret item) ending →
    offering.tally.written = writtenOf (before ++ ending)
  unflushed : ∀ answer, ⟨.flushPredecessor row.1, answer⟩ ∉ before
  failures : ItemFailures offering

theorem Begins.settles {withheldKeys : List Bytes} {offering : Offering} {rounds : List History}
    {s₁ : State} (quiet : observer.Quiet)
    (begins : Begins observer policy world s state row asked items sawData events s₁ observed)
    (offers : Iterates world (offerItem asked withheldKeys) s₁ .start items rounds s' offering) :
    Settles observer row (events ++ rounds.flatten) offering where
  offered ending := by
    rw [List.append_assoc, begins.exported quiet, offered_offers offers]
    exact Nat.zero_add _
  written ending only := by
    have prepared := offersOf_of_unoffered
      ((begins.prepares quiet).mono fun _ => PreparingCall.unoffered)
    rw [written_offers offers, writtenOf, writtenOf, offersOf_append, offersOf_append, prepared,
      offersOf_of_unoffered only, List.nil_append, List.append_nil]
    exact Nat.zero_add _
  unflushed answer member := by
    rcases List.mem_append.mp member with before | during
    · exact begins.prepares quiet _ before
    · obtain ⟨pair, -, other, same⟩ := event_of_offers offers _ during
      cases same
  failures := itemFailures_offers offers itemFailures_start

theorem Settles.tallied {before ending : History} {offering : Offering}
    (settles : Settles observer row before offering)
    (only : Only (fun request => ∀ item, request ≠ .writeSecret item) ending)
    (flushed : ⟨.flushPredecessor row.1, .ok ()⟩ ∈ ending) :
    Tallied observer row (before ++ ending) offering.tally where
  conserved := settles.offered ending
  flushed _ := settles.written ending only
  unflushed absent := absurd (List.mem_append_right _ flushed) absent

theorem Settles.unflush {before : History} {offering : Offering} {e : String}
    (settles : Settles observer row before offering) :
    Tallied observer row (before ++ [⟨.flushPredecessor row.1, .error e⟩]) (offering.unflush e).tally ∧
      (offering.unflush e).failure = some ⟨.flush, e⟩ := by
  refine ⟨⟨?_, ?_, fun _ => rfl⟩, ?_⟩
  · rw [← settles.offered]
    simp only [Offering.unflush, ImportTally.offered]
    omega
  · intro member
    rcases List.mem_append.mp member with earlier | last
    · exact absurd earlier (settles.unflushed _)
    · cases List.mem_singleton.mp last
  · exact if_pos (itemFailureAtMost_iff.mpr settles.failures.stage)

theorem Completes.tallies {offering : Offering} {before ending : History}
    (key : asked.key = row.1) (settles : Settles observer row before offering)
    (completes : Completes policy world s state asked sawData offering ending s' state') :
    ∃ report, state'.results = state.results ++ [report] ∧
      RowTallies observer row (before ++ ending) report := by
  have only := completes.calls.2
  cases completes with
  | @flushFailed e _ flushed =>
    obtain ⟨tallied, failed⟩ := settles.unflush (e := e)
    rw [key]
    refine ⟨_, rfl, .incomplete tallied ?_⟩
    rw [failed, retryMayHelp_incomplete]
    rintro ⟨-, -, stage⟩
    cases stage _ rfl
  | unclean flushed unclean =>
    rw [key] at only ⊢
    refine ⟨_, rfl, .incomplete (settles.tallied only (List.mem_singleton_self _)) ?_⟩
    rw [retryMayHelp_incomplete]
    rintro ⟨failed, withheld, -⟩
    -- Nothing failed and nothing is withheld, so a clean tally would have come with no failure.
    by_contra none
    have unrejected : offering.tally.rejected = 0 := by omega
    have clean : offering.tally.isClean = true := by
      simp [ImportTally.isClean, failed, withheld, unrejected]
    rw [clean, Bool.true_and, Option.isNone_eq_false_iff] at unclean
    have counted := settles.failures.counted unclean
    omega
  | sealRefused flushed clean refused =>
    rw [key] at only ⊢
    refine ⟨_, rfl, .incomplete (settles.tallied only (List.mem_cons_self ..)) ?_⟩
    rw [retryMayHelp_incomplete]
    rintro ⟨-, -, stage⟩
    cases stage _ rfl
  | completed flushed clean recorded =>
    rw [key] at only ⊢
    cases sawData with
    | true =>
      exact ⟨_, rfl, .imported (settles.tallied only (List.mem_cons_self ..))
        (Bool.and_eq_true_iff.mp clean).1⟩
    | false => exact ⟨_, rfl, .untallied (by simp) (by simp)⟩

theorem RowRuns.tallies (quiet : observer.Quiet)
    (runs : RowRuns observer policy world s state row events s' state') :
    ∃ report, state'.results = state.results ++ [report] ∧ RowTallies observer row events report := by
  cases runs with
  | @dataSeal bridged =>
    cases bridged <;> exact ⟨_, rfl, .untallied (by simp) (by simp)⟩
  | offered begins offers completes =>
    obtain ⟨report, pushed, tallies⟩ := completes.tallies begins.on.key (begins.settles quiet offers)
    exact ⟨report, pushed, tallies⟩
  | _ => exact ⟨_, rfl, .untallied (by simp [Asked.unresponsive, Asked.writerUnavailable])
      (by simp [Asked.unresponsive, Asked.writerUnavailable])⟩

end Conserved

section Shortcuts

variable {State Observed : Type} {world : World Request Answer State} {s s' : State}
  {observer : WalkObserver Observed} {policy : SecretSelectionPolicy}
  {state state' : WalkState Observed} {row : DelegateKey × UInt32} {events : History}

/-- Whether a row was cut short: the journal resolved it, or a newer generation's seal covers it. -/
def WalkState.CutShort (state : WalkState Observed) (key : Fixed 32) : Prop :=
  (state.journalResolved.lookup key).isSome ∨ key ∈ state.bridged

theorem RowRuns.cut_short (runs : RowRuns observer policy world s state row events s' state')
    {key : Fixed 32} (cut : state'.CutShort key) :
    state.CutShort key ∨ (key = row.1.bytes ∧
      state'.results = state.results ++ [.alreadyMigrated row.1 row.2]) := by
  cases runs with
  | @journalResolved resolution =>
    by_cases here : key = row.1.bytes
    · exact .inr ⟨here, rfl⟩
    · refine .inl (cut.imp ?_ id)
      intro found
      rw [WalkState.push, List.lookup_cons, beq_false_of_ne here] at found
      exact found
  | @dataSeal bridged =>
    cases bridged with
    | false => exact .inl cut
    | true =>
      rcases cut with resolved | covered
      · exact .inl (.inl resolved)
      · rcases List.mem_cons.mp covered with here | before
        · exact .inr ⟨here, rfl⟩
        · exact .inl (.inr before)
  | offered begins offers completes => cases completes <;> exact .inl cut
  | _ => exact .inl cut

theorem Visits.cut_short {visits : List Visit}
    (walked : Visits observer policy world s state visits s' state') {key : Fixed 32}
    (cut : state'.CutShort key) :
    state.CutShort key ∨ ∃ visit ∈ visits, visit.row.1.bytes = key ∧
      visit.report = .alreadyMigrated visit.row.1 visit.row.2 := by
  induction walked with
  | nil => exact .inl cut
  | cons round pushed _ ih =>
    rcases ih cut with before | ⟨visit, member, found⟩
    · rcases (rowRuns_of_executes round).cut_short before with earlier | ⟨here, migrated⟩
      · exact .inl earlier
      · exact .inr ⟨_, List.mem_cons_self .., here.symm, report_unique pushed migrated⟩
    · exact .inr ⟨visit, List.mem_cons_of_mem _ member, found⟩

end Shortcuts

section Reports

variable {State Observed : Type} {world : World Request Answer State} {s s' : State}
  {observer : WalkObserver Observed} {policy : SecretSelectionPolicy}
  {state state' : WalkState Observed}

structure Conserves (observer : WalkObserver Observed) (visit : Visit) : Prop where
  imported : ∀ key generation tally, visit.report = .imported key generation tally →
    Tallied observer visit.row visit.calls tally ∧
      tally.failed = 0 ∧ tally.rejected = 0 ∧ tally.withheld = 0
  incomplete : ∀ key generation tally failure, visit.report = .incomplete key generation tally failure →
    Tallied observer visit.row visit.calls tally ∧
      (visit.report.retryMayHelp = false ↔ OnlyRejections tally failure)

theorem conserves_of_tallies {visit : Visit}
    (tallies : RowTallies observer visit.row visit.calls visit.report) : Conserves observer visit where
  imported := by
    intro key generation tally same
    rw [same] at tallies
    cases tallies with
    | imported tallied clean =>
      simp only [ImportTally.isClean, Bool.and_eq_true, beq_iff_eq, and_assoc] at clean
      exact ⟨tallied, clean⟩
    | untallied notImported => exact absurd rfl (notImported key generation tally)
  incomplete := by
    intro key generation tally failure same
    rw [same] at tallies ⊢
    cases tallies with
    | incomplete tallied advice =>
      refine ⟨tallied, ?_, ?_⟩
      · intro refused
        obtain ⟨failed, withheld, stage⟩ := retryMayHelp_incomplete.mp refused
        exact ⟨advice refused, failed, withheld, stage⟩
      · intro only
        exact retryMayHelp_incomplete.mpr ⟨only.failed, only.withheld, only.stage⟩
    | untallied _ notIncomplete => exact absurd rfl (notIncomplete key generation tally failure)

theorem visits_conserve (quiet : observer.Quiet) {visits : List Visit}
    (walked : Visits observer policy world s state visits s' state') :
    ∀ visit ∈ visits, Conserves observer visit := by
  intro visit member
  obtain ⟨s₁, state₁, s₂, state₂, runs, pushed⟩ := walked.visited member
  obtain ⟨report, alone, tallies⟩ := runs.tallies quiet
  obtain rfl := report_unique alone pushed
  exact conserves_of_tallies tallies

/-- A row is finished, or nothing but rejections keeps it from being so. -/
def Resolvable (row : PredecessorMigration) : Prop :=
  row.pending = false ∨
    ∃ key generation tally failure, row = .incomplete key generation tally failure ∧
      OnlyRejections tally failure

theorem resolvable_of_advice {visits : List Visit} {report : List PredecessorMigration}
    (reports : report = visits.map Visit.report) (conserve : ∀ visit ∈ visits, Conserves observer visit)
    (advice : retryMayHelp report = false) : ∀ row ∈ report, Resolvable row := by
  intro row member
  have refused : row.retryMayHelp = false := by
    have all := List.any_eq_false.mp advice row member
    simpa using all
  rw [reports] at member
  obtain ⟨visit, among, rfl⟩ := List.mem_map.mp member
  cases same : visit.report with
  | imported | noData | alreadyMigrated | superseded => exact .inl rfl
  | unresponsive | writerUnavailable =>
    rw [same] at refused
    cases refused
  | incomplete key generation tally failure =>
    exact .inr ⟨_, _, _, _, rfl,
      ((conserve visit among).incomplete _ _ _ _ same).2.mp refused⟩

theorem resolveRow_incomplete {visits : List Visit} {outcome : WalkState Observed}
    {observed : Observed} {predecessors : List DelegateLineageEntry} {importRevision : UInt32}
    (walked : Visits observer policy world s (.start observed) visits s' outcome)
    (rows : visits.map Visit.row = newestFirst predecessors)
    (keys : (predecessors.map DelegateLineageEntry.delegateKey).Nodup) {visit : Visit}
    (member : visit ∈ visits) {key : DelegateKey} {generation : UInt32} {tally : ImportTally}
    {failure : Option WriterFailure} (same : visit.report = .incomplete key generation tally failure)
    (resolved : List (Option JournalResolution)) :
    (resolveRow outcome policy importRevision resolved visit.report).1 =
        .resolved (.importedWithRejections (toU32 tally.rejected) importRevision 0) ↔
      OnlyRejections tally failure := by
  have distinct : (visits.map fun visit => visit.row.1.bytes).Nodup := by
    have ordered := (newestFirst_ordered predecessors).perm.map fun row => row.1.bytes
    have nodup : ((newestFirst predecessors).map fun row => row.1.bytes).Nodup := by
      refine ordered.nodup_iff.mpr ?_
      rw [List.map_map]
      exact keys
    rw [← rows, List.map_map] at nodup
    exact nodup
  have own : visit.report.key = visit.row.1 := by
    obtain ⟨s₁, state₁, s₂, state₂, runs, pushed⟩ := walked.visited member
    obtain ⟨report, alone, sameKey, -⟩ := runs.reports
    rw [report_unique alone pushed] at sameKey
    exact sameKey
  have uncut : ¬ outcome.CutShort visit.report.key.bytes := by
    intro cut
    rcases walked.cut_short cut with (found | covered) | ⟨other, among, here, migrated⟩
    · cases found
    · cases covered
    · rw [own] at here
      obtain rfl := List.inj_on_of_nodup_map distinct among member here
      rw [same] at migrated
      cases migrated
  have lookup : outcome.journalResolved.lookup visit.report.key.bytes = none := by
    rw [← Option.not_isSome_iff_eq_none]
    exact fun found => uncut (.inl found)
  have uncovered : visit.report.key.bytes ∉ outcome.bridged := fun covered => uncut (.inr covered)
  rw [same] at lookup uncovered ⊢
  rw [← rowResolution_incomplete]
  unfold resolveRow
  simp only [lookup, if_neg uncovered]
  constructor
  · intro resolves
    split at resolves
    · rename_i found
      rw [found, RunOutcome.resolved.inj resolves]
    · cases resolves
  · intro found
    simp only [found]

end Reports

/-- Every pair of an export is counted once, what is counted as written was flushed, and a report
    advises against a retry exactly where the journal resolves the rejections that are left. -/
theorem tallies_conserve_items [Ciborium] {State : Type} {world : World Request Answer State} :
    (∀ predecessors policy s events s' report,
      Executes world s (migrateDelegateSecrets predecessors policy) events s' report →
      ∃ visits state', Visits noObserver policy world s (.start ()) visits s' state' ∧
        visits.map Visit.row = newestFirst predecessors ∧
        events = (visits.map Visit.calls).flatten ∧ report = visits.map Visit.report ∧
        (∀ visit ∈ visits, Conserves noObserver visit) ∧
        (retryMayHelp report = false → ∀ row ∈ report, Resolvable row)) ∧
    ∀ journalKey importRevision predecessors policy s events s' report,
      Executes world s (migrateDelegateSecretsJournaled journalKey importRevision predecessors policy)
        events s' report →
      (Only JournalCall events ∧ ∃ error, report = refused predecessors error) ∨
      ∃ visits outcome,
        Walks world journalKey importRevision predecessors policy events report visits outcome ∧
        (∀ visit ∈ visits, Conserves (journalObserver journalKey (.new policy importRevision)
          predecessors policy) visit) ∧
        (retryMayHelp report.report = false → ∀ row ∈ report.report, Resolvable row) ∧
        (∀ key generation tally failure, .incomplete key generation tally failure ∈ report.report →
          ∀ resolved, (PredecessorMigration.incomplete key generation tally failure).retryMayHelp =
              false ↔
            rowResolution outcome policy importRevision resolved (.incomplete key generation tally failure) =
              some (.importedWithRejections (toU32 tally.rejected) importRevision 0)) ∧
        ((predecessors.map DelegateLineageEntry.delegateKey).Nodup →
          ∀ item ∈ report.report.zip
            (resolveOutcomes outcome policy importRevision [] report.report),
          ∀ key generation tally failure, item.1 = .incomplete key generation tally failure →
            (item.1.retryMayHelp = false ↔
              item.2 = .resolved (.importedWithRejections (toU32 tally.rejected) importRevision 0))) := by
  refine ⟨?_, ?_⟩
  · intro predecessors policy s events s' report run
    obtain ⟨visits, state', rows, calls, reports, walked⟩ := visits_of_migrate run
    have conserve := visits_conserve quiet_noObserver walked
    exact ⟨visits, state', walked, rows, calls, reports, conserve, resolvable_of_advice reports conserve⟩
  · intro journalKey importRevision predecessors policy s events s' report run
    rcases refused_or_walks run with refused | ⟨visits, outcome, walks⟩
    · exact .inl refused
    · obtain ⟨s₁, s₂, journal, walked⟩ := walks.visited
      have reports := walks.reports
      have conserve := visits_conserve quiet_journalObserver walked
      refine .inr ⟨visits, outcome, walks, conserve, resolvable_of_advice reports conserve, ?_, ?_⟩
      · intro key generation tally failure member resolved
        rw [reports] at member
        obtain ⟨visit, among, same⟩ := List.mem_map.mp member
        have advice := ((conserve visit among).incomplete _ _ _ _ same).2
        rw [same] at advice
        exact advice.trans rowResolution_incomplete.symm
      · intro keys item paired key generation tally failure same
        obtain ⟨before, after, known, split, resolved, -⟩ := outcome_of_row paired
        have member : item.1 ∈ report.report := (List.of_mem_zip paired).1
        rw [reports] at member
        obtain ⟨visit, among, row⟩ := List.mem_map.mp member
        rw [← row] at same resolved ⊢
        rw [resolved, resolveRow_incomplete walked walks.rows keys among same]
        exact ((conserve visit among).incomplete _ _ _ _ same).2

section Samples

open scoped Cbor

/-- A successor that refuses every item for good, and whose journal others rewrite. -/
def rejectingHandler (elsewhere : Bytes → Bytes) :
    Option Bytes → (request : Request) → Answer request × Option Bytes
  | stored, .writeSecret _ => (.failed "refused" .permanent, stored)
  | stored, .loadJournal => (.ok (stored.map elsewhere), stored)
  | stored, request => journalHandler stored request

theorem tallies_conserve_items_rejected :
    let finish := sampleJournaled.run (rejectingHandler id) none
    finish.2.2.report =
        [.incomplete (lineageKey (sampleEntry 1)) 1 ⟨0, 0, 0, 1, 0⟩ (some ⟨.item, "refused"⟩)] ∧
      ∃ outcome : WalkState JournalWatch,
        resolveOutcomes outcome .newestSnapshotWins 0 [] finish.2.2.report =
          [.resolved (.importedWithRejections 1 0 0)] := by
  intro finish
  have reported : finish.2.2.report =
      [.incomplete (lineageKey (sampleEntry 1)) 1 ⟨0, 0, 0, 1, 0⟩ (some ⟨.item, "refused"⟩)] := by
    decide +kernel
  refine ⟨reported, ?_⟩
  rcases tallies_conserve_items.2 _ _ _ _ _ _ _ _
      (executes_anything sampleJournaled (rejectingHandler id) none) with
    ⟨-, error, same⟩ | ⟨visits, outcome, walks, -, -, -, resolves⟩
  · rw [show finish.2.2 = refused [sampleEntry 1] error from same] at reported
    cases reported
  · refine ⟨outcome, ?_⟩
    have listed := resolves (by decide)
    rw [show _ = _ from reported] at listed
    have resolved := (listed _ (List.mem_cons_self ..) _ _ _ _ rfl).mp rfl
    rw [reported]
    exact congrArg (· :: []) resolved

/-- Where another session resolves a predecessor that is listed twice, its incomplete row stands but is
    not recorded. -/
theorem elsewhere_resolved_unexamined :
    let again : DelegateLineageEntry := { sampleEntry 1 with generation := 2 }
    let elsewhere := (MigrationJournal.empty.record (lineageKey (sampleEntry 1)) 1
      (.resolved .imported)).encode
    let walking := walk (journalObserver MIGRATION_JOURNAL_KEY (.new .unionAllGenerations 0)
      [again, sampleEntry 1] .unionAllGenerations) .unionAllGenerations [again, sampleEntry 1]
        ⟨.newPending [again, sampleEntry 1], none⟩
    let walked := walking.run (rejectingHandler fun _ => elsewhere) (some [])
    let row := PredecessorMigration.incomplete (lineageKey (sampleEntry 1)) 2 ⟨0, 0, 0, 1, 0⟩
      (some ⟨.item, "refused"⟩)
    Executes anything (some []) walking walked.1 walked.2.1 walked.2.2 ∧
      row.retryMayHelp = false ∧
      walked.2.2.results = [row, .alreadyMigrated (lineageKey (sampleEntry 1)) 1] ∧
      resolveOutcomes walked.2.2 .unionAllGenerations 0 [] walked.2.2.results =
        [.unexamined, .unexamined] := by
  intro again elsewhere walking walked row
  refine ⟨executes_anything walking (rejectingHandler fun _ => elsewhere) (some []), by decide, ?_, ?_⟩
  · decide +kernel
  · decide +kernel

end Samples

end FreenetMigrate.Migrate
