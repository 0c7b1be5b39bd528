import FreenetMigrate.Migrate.AntiRollback
import FreenetMigrate.Migrate.Status
import FreenetMigrate.Migrate.Visible
import Mathlib.Order.MinMax

namespace FreenetMigrate.Migrate

open Calls Journal MigrationJournal

section Underway

variable [Ciborium] {binding : JournalBinding} {policy : SecretSelectionPolicy}
  {predecessors : List DelegateLineageEntry} {started : Started} {events : History}
  {journal : MigrationJournal}

section Establishing

variable {s s' : Successor} {result : Except JournalError Unit}

theorem Stores.same {after : MigrationJournal}
    {rebuild : Option (List DelegateLineageEntry × SecretSelectionPolicy)}
    (stores : Stores successorWorld s journal (some binding) rebuild events s' result after)
    (key : Fixed 32) : SameMarker key s s' := by
  cases stores with
  | refused steps reads =>
    exact sameMarker_of_steps steps (reads.mono fun _ => ReadCall.notMarking)
  | wrote steps reads _ stored =>
    have before : SameMarker key s _ :=
      sameMarker_of_steps steps (reads.mono fun _ => ReadCall.notMarking)
    exact before.trans (sameMarker_of_call stored trivial)

theorem Establishes.same
    (establishes : Establishes successorWorld s predecessors policy binding started events s' result
      journal) (key : Fixed 32) : SameMarker key s s' := by
  cases establishes with
  | existing => exact .refl key s
  | new stores => exact stores.same key

theorem Establishes.rank_le
    (establishes : Establishes successorWorld s predecessors policy binding started events s' result
      journal) (key : Fixed 32) :
    started.journal.effectiveRank binding key ≤ journal.effectiveRank binding key := by
  cases establishes with
  | existing => exact le_rfl
  | new stores =>
    rcases stores.after_cases with rfl | merges
    · exact le_rfl
    · exact (merges.rank_le journalKept_successorWorld key).1

theorem Establishes.told
    (establishes : Establishes successorWorld s predecessors policy binding started events s' result
      journal) {key : DelegateKey} {generation : UInt32}
    (told : Told binding s started.journal key generation) : Told binding s' journal key generation := by
  intro under
  rw [(establishes.same key.bytes).own] at under
  exact (told under).trans (establishes.rank_le key.bytes)

/-- A merge with the journal that the start read decides nothing that neither had decided. -/
theorem Establishes.undecided
    (establishes : Establishes successorWorld s predecessors policy binding started events s' result
      journal) {key : Fixed 32} {stored : MigrationJournal}
    (ours : Undecided binding started.journal key) (found : storedJournal s.journal = some stored)
    (theirs : Undecided binding stored key) : Undecided binding journal key := by
  cases establishes with
  | existing => exact ours
  | new stores =>
    rcases stores.after_cases with rfl | merges
    · exact ours
    · cases merges with
      | absent => exact ours
      | present loaded decoded =>
        obtain ⟨same, -⟩ := loaded
        rw [← same, storedJournal_of_decode decoded] at found
        obtain rfl := Option.some.inj found
        intro decided
        rw [effectiveRank_mergeStored] at decided
        rcases max_eq_iff.mp decided with ⟨left, -⟩ | ⟨right, -⟩
        · exact ours left
        · exact theirs right
      | rebuilt loaded corrupt =>
        obtain ⟨same, -⟩ := loaded
        rw [← same, storedJournal, Option.bind_some, corrupt] at found
        cases found

end Establishing

section Complete

variable {s s' : Successor} {importRevision : UInt32} {checks : MarkerChecks}

structure SeenClear (events : History) (s : Successor) (e : DelegateLineageEntry) : Prop where
  read : ∃ marker, OwnRead events (lineageKey e) e.generation marker
  clear : s.own (lineageKey e) e.generation ≠ some (.inProgress true)

inductive JournalBegun (world : World Request Answer Successor) (s : Successor)
    (predecessors : List DelegateLineageEntry) (policy : SecretSelectionPolicy)
    (binding : JournalBinding) : History → Successor → JournalStatus → Prop
  | mk {started : Started} {checks : MarkerChecks} {starting storing : History} {s₁ s' : Successor}
      {journal : MigrationJournal} (steps : Steps world s starting s₁) (reads : Only ReadCall starting)
      (starts : Starts world s predecessors policy binding starting s₁ started checks)
      (establishes : Establishes world s₁ predecessors policy binding started storing s' (.ok ())
        journal) :
      JournalBegun world s predecessors policy binding (starting ++ storing) s'
        (statusWithUnverified journal checks.unverified predecessors binding)

theorem journalBegun_of_executes {world : World Request Answer Successor} {status : JournalStatus}
    (run : Executes world s (beginMigrationJournal predecessors policy importRevision).run events s'
      (.ok status)) :
    JournalBegun world s predecessors policy (.new policy importRevision) events s' status := by
  unfold beginMigrationJournal at run
  obtain ⟨starting, s₁, ⟨started, checks⟩, rest, rfl, start, afterStart⟩ := executes_run_bind_ok run
  have reads := start.only uses_startJournal
  have starts := starts_of_executes start
  cases started with
  | existing journal =>
    obtain ⟨rfl, rfl, same⟩ := executes_run_pure.mp afterStart
    obtain rfl := Except.ok.inj same
    exact .mk start.steps reads starts (.existing journal)
  | new journal =>
    obtain ⟨storing, s₂, ⟨stored, after⟩, more, rfl, lifted, finish⟩ := executes_run_bind_ok afterStart
    obtain ⟨_, same, storing⟩ := executes_run_lift.mp lifted
    obtain rfl := Except.ok.inj same
    cases stored with
    | error e =>
      obtain ⟨-, -, failed⟩ := executes_run_throw.mp finish
      cases failed
    | ok answer =>
      obtain ⟨rfl, rfl, same⟩ := executes_run_pure.mp finish
      obtain rfl := Except.ok.inj same
      rw [List.append_nil]
      exact .mk start.steps reads starts (.new (stores_of_executes storing))

theorem JournalBegun.complete [LawfulCiborium] {rejected : UInt32}
    (begun : JournalBegun successorWorld s predecessors policy (.new policy importRevision) events s'
      (.complete rejected)) {e : DelegateLineageEntry} (member : e ∈ predecessors) :
    ResolvedWithData (.new policy importRevision) s'.journal e.delegateKey ∨ SeenClear events s' e := by
  generalize reported : JournalStatus.complete rejected = status at begun
  obtain ⟨steps, reads, starts, establishes⟩ := begun
  rename_i checks starting storing s₁ journal
  rw [statusWithUnverified_eq] at reported
  obtain ⟨resolution, resolved⟩ := resolved_of_complete reported.symm member
  obtain ⟨viewed, kept⟩ := effectiveState_resolved resolved
  have held := resolved_of_viewOf viewed
  have stored := storedJournal_of_established journalKept_successorWorld starts reads steps establishes
  cases data : resolution.isDataBearing with
  | true =>
    refine .inl ⟨journal, resolution, stored, ?_, data⟩
    rw [effectiveState, held, Option.map_some, kept]
  | false =>
    right
    obtain ⟨rfl, knows⟩ := starts.knows
    have absent := not_importing_of_noData held kept data
    rcases knows.covered e member with learnt | unverified | shown | ⟨ours, before, found, theirs⟩
    · obtain ⟨marker, read⟩ := learnt.read
      refine ⟨⟨marker, read.mono (List.subset_append_left ..)⟩, ?_⟩
      intro under
      exact absent (establishes.told learnt.told under)
    · have known := data_of_viewOf unverified viewed
      rw [data] at known
      cases known
    · exact absurd (shown.trans (establishes.rank_le e.delegateKey)) absent
    · exact absurd (effectiveRank_of_noData held kept data) (establishes.undecided ours found theirs)

end Complete

section Walked

variable {s s₁ s₂ s₃ s' : Successor} {importRevision : UInt32} {checks : MarkerChecks}
  {journalKey : Bytes} {outcome : WalkState JournalWatch} {visits : List Visit} {storing total : History}

def OneGenerationEach (predecessors : List DelegateLineageEntry) : Prop :=
  ∀ e ∈ predecessors, ∀ other ∈ predecessors, lineageKey e = lineageKey other →
    e.generation = other.generation

structure Walked (binding : JournalBinding) (journalKey : Bytes) (policy : SecretSelectionPolicy)
    (predecessors : List DelegateLineageEntry) (journal : MigrationJournal) (s : Successor)
    (visits : List Visit) (s' : Successor) (outcome : WalkState JournalWatch) : Prop where
  rows : visits.map Visit.row = newestFirst predecessors
  results : outcome.results = visits.map Visit.report
  visited : Visits (journalObserver journalKey binding predecessors policy) policy successorWorld s
    (.start ⟨journal.rebind binding, none⟩) visits s' outcome

namespace Walked

variable (walked : Walked binding journalKey policy predecessors journal s visits s' outcome)
include walked

theorem holds : outcome.observed.journal.HoldsUnder binding :=
  (visits_grows walked.visited).holds (holdsUnder_rebind journal binding)

theorem above : ∀ key ∈ outcome.bridged, policy.legacyBridge = .atOrAboveGeneration :=
  visits_bridged walked.visited fun _ member => nomatch member

theorem told {key : DelegateKey} {generation : UInt32} (told : Told binding s journal key generation) :
    Told binding s' outcome.observed.journal key generation := by
  refine visits_told walked.visited (holdsUnder_rebind journal binding) ?_
  intro under
  have shown := told under
  rwa [Importing, ← effectiveRank_rebind] at shown

theorem report {visit : Visit} (member : visit ∈ visits) :
    visit.report.key = visit.row.1 ∧ visit.report.generation = visit.row.2 := by
  obtain ⟨key, generation, -⟩ :=
    visits_row_told walked.visited (holdsUnder_rebind journal binding) visit member
  exact ⟨key, generation⟩

theorem entry_of_row {row : PredecessorMigration} (member : row ∈ outcome.results) :
    ∃ e ∈ predecessors, row.key = lineageKey e ∧ row.generation = e.generation := by
  rw [walked.results] at member
  obtain ⟨visit, among, rfl⟩ := List.mem_map.mp member
  have visited : visit.row ∈ newestFirst predecessors := walked.rows ▸ List.mem_map_of_mem among
  have listed := (newestFirst_ordered predecessors).perm.mem_iff.mp visited
  obtain ⟨e, listed, same⟩ := List.mem_map.mp listed
  obtain ⟨key, generation⟩ := walked.report among
  exact ⟨e, listed, key.trans (congrArg Prod.fst same).symm,
    generation.trans (congrArg Prod.snd same).symm⟩

theorem row_of_entry {e : DelegateLineageEntry} (member : e ∈ predecessors) :
    ∃ row ∈ outcome.results, row.key = lineageKey e ∧ row.generation = e.generation := by
  have listed : (lineageKey e, e.generation) ∈ visits.map Visit.row := by
    rw [walked.rows, (newestFirst_ordered predecessors).perm.mem_iff]
    exact List.mem_map_of_mem member
  obtain ⟨visit, among, same⟩ := List.mem_map.mp listed
  obtain ⟨key, generation⟩ := walked.report among
  refine ⟨visit.report, ?_, key.trans (congrArg Prod.fst same),
    generation.trans (congrArg Prod.snd same)⟩
  rw [walked.results]
  exact List.mem_map_of_mem among

theorem learnt (within : (visits.map Visit.calls).flatten ⊆ total) {row : PredecessorMigration}
    (member : row ∈ outcome.results) (walkRead : walkReadIt outcome row = true) :
    Learnt binding s' outcome.observed.journal total row.key row.generation := by
  rw [walked.results] at member
  obtain ⟨visit, among, rfl⟩ := List.mem_map.mp member
  obtain ⟨read, unbridged, unresolved⟩ := walked_of_walkReadIt walkRead
  obtain ⟨key, generation, unread | closed | learnt⟩ :=
    visits_row_told walked.visited (holdsUnder_rebind journal binding) visit among
  · rw [read] at unread
    cases unread
  · rw [← key] at closed
    rcases closed with bridged | resolved
    · exact absurd bridged unbridged
    · rw [unresolved] at resolved
      cases resolved
  · have calls : visit.calls ⊆ total := fun _ made =>
      within (mem_visitCalls.mpr ⟨visit, among, made⟩)
    rw [key, generation]
    exact learnt.mono calls id

end Walked

theorem Walked.checkable
    (walked : Walked (.new policy importRevision) journalKey policy predecessors journal s₂ visits s₃
      outcome)
    (knows : StartKnows (.new policy importRevision) s₁ predecessors events started checks)
    (establishes : Establishes successorWorld s₁ predecessors policy (.new policy importRevision)
      started storing s₂ (.ok ()) journal)
    (starting : events ⊆ total) (walking : (visits.map Visit.calls).flatten ⊆ total)
    (oneEach : OneGenerationEach predecessors) :
    Checkable (.new policy importRevision) s₃ outcome checks.read total
      (recordOutcomes outcome policy (.new policy importRevision)) := by
  have recorded : Grows (.new policy importRevision) outcome.observed.journal
      (recordOutcomes outcome policy (.new policy importRevision)) := grows_recordOutcomes walked.above
  refine ⟨recorded.holds walked.holds, fun row member => hasEntry_recordOutcomes member, ?_, ?_, ?_⟩
  · intro row member walkRead
    have learnt := walked.learnt walking member walkRead
    exact learnt.mono (List.Subset.refl _) fun shown => shown.grow recorded walked.holds
  · intro row member read
    obtain ⟨e, listed, same, marker, told⟩ := knows.read _ read
    obtain ⟨other, among, key, generation⟩ := walked.entry_of_row member
    have once := oneEach e listed other among (same.trans key)
    rw [key, generation, ← once, ← key, ← same]
    obtain ⟨found, own⟩ := marker
    refine ⟨⟨found, own.mono starting⟩, ?_⟩
    intro under
    exact (walked.told (establishes.told told) under).grow recorded walked.holds
  · intro row member other among same
    obtain ⟨e, listed, key, generation⟩ := walked.entry_of_row member
    obtain ⟨e', listed', key', generation'⟩ := walked.entry_of_row among
    rw [generation, generation']
    exact oneEach e listed e' listed' (key.symm.trans (same.trans key'))

/-- A status that is returned shows of every predecessor an import under way, or its data, or its
    marker was read and shows none. -/
theorem JournaledRuns.status [LawfulCiborium] {report : JournaledMigrationReport}
    (runs : JournaledRuns successorWorld s journalKey predecessors policy (.new policy importRevision)
      events s' report) {status : JournalStatus} (reported : report.status = some status)
    (oneEach : OneGenerationEach predecessors) {e : DelegateLineageEntry} (member : e ∈ predecessors) :
    ListedStarted status e ∨ ResolvedWithData (.new policy importRevision) s'.journal e.delegateKey ∨
      SeenClear events s' e := by
  cases runs with
  | notStarted | notEstablished => cases reported
  | @walked started checks starting storing walking ending s₁ s₂ s₃ _ journal outcome _ steps reads
      starts establishes walked concludes =>
    obtain ⟨rfl, knows⟩ := starts.knows
    obtain ⟨visits, rows, rfl, results, visited⟩ := visits_of_walk walked
    have walked : Walked (.new policy importRevision) journalKey policy predecessors journal s₂ visits
      s₃ outcome := ⟨rows, results, visited⟩
    generalize whole : starting ++ storing ++ (visits.map Visit.calls).flatten ++ ending = total
    have startPart : starting ⊆ total := by rw [← whole]; simp [List.subset_def]; tauto
    have walkPart : (visits.map Visit.calls).flatten ⊆ total := by
      rw [← whole]
      exact fun _ made => List.mem_append_left _ (List.mem_append_right _ made)
    have able := walked.checkable knows establishes startPart walkPart oneEach
    cases concludes with
    | refused => cases reported
    | @stored rounds storing s₄ _ progress after checked stores =>
      have checkPart : rounds.flatten ⊆ total := by
        rw [← whole]
        exact fun _ made => List.mem_append_right _ (List.mem_append_left _ made)
      obtain ⟨rfl, cleared⟩ := checkRows_cleared checked checkPart able (checksRows_start ..)
        (List.Subset.refl _)
      have grown := stores.grows journalKept_successorWorld
      have held := cleared.grows.trans grown |>.holds able.holds
      have kept : storedJournal s'.journal = some after := by
        rw [stores.stored_of_ok journalKept_successorWorld]
        exact storedJournal_encode after
      have viewed : Importing (.new policy importRevision) (viewOf after (progress.unverified.filter
          fun check => check.1 ∉ progress.reached)) e.delegateKey →
          ListedStarted status e ∨
            ResolvedWithData (.new policy importRevision) s'.journal e.delegateKey := by
        intro shown
        rw [statusWithUnverified_eq] at reported
        rw [← Option.some.inj reported]
        rcases status_of_importing member shown with listed | ⟨resolution, found, data⟩
        · exact .inl listed
        · have resolved := resolved_of_viewOf found
          refine .inr ⟨after, resolution, kept, ?_, data⟩
          rw [effectiveState, resolved, Option.map_some, held _ _ resolved]
      obtain ⟨row, among, key, generation⟩ := walked.row_of_entry member
      rcases cleared.viewed able grown among with learnt | shown
      · rw [key, generation] at learnt
        by_cases under : s'.own (lineageKey e) e.generation = some (.inProgress true)
        · have told : Told (.new policy importRevision) s' after (lineageKey e) e.generation := by
            intro under
            rw [(stores.same _).own] at under
            exact (learnt.told under).grow grown (cleared.grows.holds able.holds)
          exact or_assoc.mp (.inl (viewed ((told under).grow (grows_viewOf after _) held)))
        · exact .inr (.inr ⟨learnt.read, under⟩)
      · rw [key] at shown
        exact or_assoc.mp (.inl (viewed shown))

end Walked

/-- No status hides an import under way: a journal begun complete, and the status of a run over a
    lineage that lists each delegate once. -/
theorem status_hides_no_import [LawfulCiborium] {s : Successor} {importRevision : UInt32} :
    (∀ events s' rejected, Executes successorWorld s
        (beginMigrationJournal predecessors policy importRevision).run events s'
        (.ok (.complete rejected)) →
      ∀ e ∈ predecessors, ResolvedWithData (.new policy importRevision) s'.journal e.delegateKey ∨
        SeenClear events s' e) ∧
    (OneGenerationEach predecessors → ∀ journalKey events s' report status, Executes successorWorld s
        (migrateDelegateSecretsJournaled journalKey importRevision predecessors policy) events s'
        report → report.status = some status →
      ∀ e ∈ predecessors, ListedStarted status e ∨
        ResolvedWithData (.new policy importRevision) s'.journal e.delegateKey ∨
        SeenClear events s' e) := by
  refine ⟨?_, ?_⟩
  · intro events s' rejected run e member
    exact (journalBegun_of_executes run).complete member
  · intro oneEach journalKey events s' report status run reported e member
    exact (journaledRuns_of_executes run).status reported oneEach member

end Underway

open scoped Cbor in
/-- A successor with an import of one delegate under way, that its journal does not know of. -/
def startedUnseen (seals : List UInt32) : Successor where
  done _ := none
  wip _ := some true
  seals
  journal := some (newPending [sampleEntry 1]).encode

open scoped Cbor in
def sampleUnderway (predecessors : List DelegateLineageEntry) : Migration JournaledMigrationReport :=
  migrateDelegateSecretsJournaled MIGRATION_JOURNAL_KEY 0 predecessors .newestSnapshotWins

open scoped Cbor in
theorem status_hides_no_import_unreadable :
    let begun := (beginMigrationJournal [sampleEntry 1] .newestSnapshotWins 0).run.run
      (contractHandler fun _ => true) ⟨fun _ => some true, fun _ => none, [], none⟩
    let final := (sampleUnderway [sampleEntry 1]).run (contractHandler fun _ => false)
      (startedUnseen [])
    (ResolvedWithData (.new .newestSnapshotWins 0) begun.2.1.journal (sampleEntry 1).delegateKey ∨
        SeenClear begun.1 begun.2.1 (sampleEntry 1)) ∧
      (ListedStarted (.incomplete [⟨lineageKey (sampleEntry 1), 1, 0, .started, 0, 0⟩] 0)
          (sampleEntry 1) ∨
        ResolvedWithData (.new .newestSnapshotWins 0) final.2.1.journal (sampleEntry 1).delegateKey ∨
        SeenClear final.1 final.2.1 (sampleEntry 1)) := by
  intro begun final
  have complete : begun.2.2 = .ok (.complete 0) := by decide +kernel
  have began : Executes successorWorld _
      (beginMigrationJournal [sampleEntry 1] .newestSnapshotWins 0).run begun.1 begun.2.1 begun.2.2 :=
    executes_run (successorWorld_contractHandler fun _ => true) _
  rw [complete] at began
  have reported : final.2.2.status =
      some (.incomplete [⟨lineageKey (sampleEntry 1), 1, 0, .started, 0, 0⟩] 0) := by decide +kernel
  have once : OneGenerationEach [sampleEntry 1] := by
    intro e listed other among _
    rw [List.mem_singleton.mp listed, List.mem_singleton.mp among]
  refine ⟨status_hides_no_import.1 _ _ _ began _ (List.mem_singleton_self _), ?_⟩
  exact status_hides_no_import.2 once _ _ _ _ _
    (executes_run (successorWorld_contractHandler fun _ => false) _) reported _
    (List.mem_singleton_self _)

open scoped Cbor in
/-- The same delegate again under a newer generation, whose marker cannot be read: the read for the
    older generation releases both. -/
theorem second_generation_hides_import :
    let newer : DelegateLineageEntry := { sampleEntry 1 with generation := 2 }
    let final := (sampleUnderway [newer, sampleEntry 1]).run
      (contractHandler fun query => query.generation ≠ 2) (startedUnseen [1])
    ∃ status, Executes successorWorld (startedUnseen [1]) (sampleUnderway [newer, sampleEntry 1])
        final.1 final.2.1 final.2.2 ∧
      final.2.2.status = some status ∧
      final.2.1.own (lineageKey newer) newer.generation = some (.inProgress true) ∧
      ¬ ListedStarted status newer ∧
      ¬ ResolvedWithData (.new .newestSnapshotWins 0) final.2.1.journal newer.delegateKey := by
  intro newer final
  have unlisted : ∀ row ∈ [(⟨lineageKey newer, 2, 0, .none, 0, 0⟩ : PendingPredecessor),
      ⟨lineageKey newer, 1, 0, .none, 0, 0⟩], row.importFlag = .none := by decide +kernel
  have unresolved : (storedJournal final.2.1.journal).bind (fun journal =>
      journal.effectiveState newer.delegateKey (.new .newestSnapshotWins 0)) =
        some (.pending 0 .none 0 0 0) := by
    decide +kernel
  refine ⟨.incomplete _ 0, ?_, ?_, ?_, not_listedStarted unlisted, not_resolvedWithData unresolved⟩
  · exact executes_run (successorWorld_contractHandler fun query => query.generation ≠ 2) _
  · decide +kernel
  · decide +kernel

end FreenetMigrate.Migrate
