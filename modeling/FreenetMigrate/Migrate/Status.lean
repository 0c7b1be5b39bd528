import FreenetMigrate.Journal.Memory
import FreenetMigrate.Migrate.Seeding

namespace FreenetMigrate.Migrate

open Calls Journal MigrationJournal

variable {policy : SecretSelectionPolicy} {importRevision : UInt32} {outcome : WalkState JournalWatch}

section Recording

theorem holds_rowResolution {row : PredecessorMigration} {resolution : JournalResolution}
    {resolved : List (Option JournalResolution)}
    (found : rowResolution outcome policy importRevision resolved row = some resolution) :
    Holds (.new policy importRevision) (.resolved resolution) := by
  cases row with
  | imported | noData => cases found; rfl
  | alreadyMigrated =>
    simp only [rowResolution] at found
    split at found <;> cases found <;> rfl
  | incomplete key generation tally failure =>
    simp only [rowResolution] at found
    split at found
    · cases found
      simp [Holds, effective, JournalBinding.new]
    · cases found
  | superseded =>
    simp only [rowResolution] at found
    split at found
    · rename_i snapshot
      obtain ⟨family, -⟩ := Bool.and_eq_true_iff.mp snapshot
      cases found
      have newest : PolicyFamily.of policy = .newestSnapshot := by simpa [isSnapshot] using family
      simp [Holds, effective, JournalBinding.new, newest]
    · cases found
  | unresponsive | writerUnavailable => cases found

theorem holds_resolveRow {resolved : List (Option JournalResolution)} {row : PredecessorMigration}
    (bridged : ∀ key ∈ outcome.bridged, policy.legacyBridge = .atOrAboveGeneration) :
    OutcomeHolds (.new policy importRevision)
      (resolveRow outcome policy importRevision resolved row).1 := by
  unfold resolveRow
  split
  · trivial
  · split
    · rename_i covered
      exact holds_superseded (bridged _ covered)
    · split
      · rename_i resolution found
        exact holds_rowResolution found
      · split <;> trivial

theorem forall_resolveOutcomes {property : RunOutcome → Prop} (rows : List PredecessorMigration)
    (resolved : List (Option JournalResolution))
    (each : ∀ resolved row, property (resolveRow outcome policy importRevision resolved row).1) :
    ∀ found ∈ resolveOutcomes outcome policy importRevision resolved rows, property found := by
  induction rows generalizing resolved with
  | nil => exact fun _ member => nomatch member
  | cons row rest ih =>
    intro found member
    rcases List.mem_cons.mp member with rfl | later
    · exact each resolved row
    · exact ih _ found later

theorem holds_resolveOutcomes (rows : List PredecessorMigration)
    (resolved : List (Option JournalResolution))
    (bridged : ∀ key ∈ outcome.bridged, policy.legacyBridge = .atOrAboveGeneration) :
    ∀ found ∈ resolveOutcomes outcome policy importRevision resolved rows,
      OutcomeHolds (.new policy importRevision) found :=
  forall_resolveOutcomes rows resolved fun _ _ => holds_resolveRow bridged

theorem length_resolveOutcomes (rows : List PredecessorMigration)
    (resolved : List (Option JournalResolution)) :
    (resolveOutcomes outcome policy importRevision resolved rows).length = rows.length := by
  induction rows generalizing resolved with
  | nil => rfl
  | cons row rest ih => exact congrArg (· + 1) (ih _)

/-- The outcome of a row follows from what the rows before it came to. -/
theorem outcome_of_row {rows : List PredecessorMigration}
    {resolved : List (Option JournalResolution)} {item : PredecessorMigration × RunOutcome}
    (member : item ∈ rows.zip (resolveOutcomes outcome policy importRevision resolved rows)) :
    ∃ before after known, rows = before ++ item.1 :: after ∧
      item.2 = (resolveRow outcome policy importRevision known item.1).1 ∧
      ∀ found ∈ known, found ∈ resolved ∨ ∃ earlier, ∃ row ∈ before,
        (row, (resolveRow outcome policy importRevision earlier row).1) ∈
            rows.zip (resolveOutcomes outcome policy importRevision resolved rows) ∧
          found = (resolveRow outcome policy importRevision earlier row).2 := by
  induction rows generalizing resolved with
  | nil => cases member
  | cons row rest ih =>
    rcases List.mem_cons.mp member with rfl | later
    · exact ⟨[], rest, resolved, rfl, rfl, fun found among => .inl among⟩
    · obtain ⟨before, after, known, split, same, sources⟩ := ih later
      refine ⟨row :: before, after, known, by rw [split]; rfl, same, ?_⟩
      intro found among
      rcases sources found among with start | ⟨earlier, other, member, paired, from'⟩
      · rcases List.mem_append.mp start with before | last
        · exact .inl before
        · obtain rfl := List.mem_singleton.mp last
          exact .inr ⟨resolved, row, List.mem_cons_self .., List.mem_cons_self .., rfl⟩
      · exact .inr ⟨earlier, other, List.mem_cons_of_mem _ member, List.mem_cons_of_mem _ paired, from'⟩

theorem grows_recordOutcomes
    (bridged : ∀ key ∈ outcome.bridged, policy.legacyBridge = .atOrAboveGeneration) :
    Grows (.new policy importRevision) outcome.observed.journal
      (recordOutcomes outcome policy (.new policy importRevision)) := by
  refine Grows.foldl ?_ _
  intro item member journal
  exact grows_record _ _ _ (holds_resolveOutcomes _ _ bridged _ (List.of_mem_zip member).2)

def HasEntry (journal : MigrationJournal) (key : Fixed 32) : Prop := (journal.state key).isSome

theorem hasEntry_record_self (journal : MigrationJournal) (predecessor : DelegateKey)
    (generation : UInt32) (outcome : RunOutcome) :
    HasEntry (journal.record predecessor generation outcome) predecessor.bytes := by
  rw [HasEntry, state_record, if_pos rfl]
  rfl

theorem HasEntry.record {journal : MigrationJournal} {key : Fixed 32} (listed : HasEntry journal key)
    (predecessor : DelegateKey) (generation : UInt32) (outcome : RunOutcome) :
    HasEntry (journal.record predecessor generation outcome) key := by
  rw [HasEntry, state_record]
  split
  · rfl
  · exact listed

theorem hasEntry_foldl_record (items : List (PredecessorMigration × RunOutcome))
    (journal : MigrationJournal) (key : Fixed 32)
    (listed : HasEntry journal key ∨ ∃ item ∈ items, item.1.key.bytes = key) :
    HasEntry (items.foldl (fun journal row => journal.record row.1.key row.1.generation row.2) journal)
      key := by
  induction items generalizing journal with
  | nil =>
    rcases listed with start | ⟨item, member, -⟩
    · exact start
    · cases member
  | cons item rest ih =>
    apply ih
    rcases listed with start | ⟨other, member, rfl⟩
    · exact .inl (start.record ..)
    · rcases List.mem_cons.mp member with rfl | later
      · exact .inl (hasEntry_record_self ..)
      · exact .inr ⟨other, later, rfl⟩

theorem hasEntry_recordOutcomes {binding : JournalBinding} {row : PredecessorMigration}
    (member : row ∈ outcome.results) :
    HasEntry (recordOutcomes outcome policy binding) row.key.bytes := by
  apply hasEntry_foldl_record
  obtain ⟨index, bound, rfl⟩ := List.getElem_of_mem member
  have paired : index < (resolveOutcomes outcome policy binding.importRevision []
      outcome.results).length := by
    rw [length_resolveOutcomes]
    exact bound
  exact .inr ⟨_, List.mem_iff_getElem.mpr ⟨index, by simp [bound, paired], List.getElem_zip⟩, rfl⟩

end Recording

section Checking

variable {binding : JournalBinding} {s s' : Successor} {read : List DelegateKey} {events total : History}
  {start progress progress' : CheckProgress} {row : PredecessorMigration}
  {earlier : List PredecessorMigration}

theorem importing_of_speaks {journal : MigrationJournal} {key : DelegateKey}
    (holds : journal.HoldsUnder binding) (listed : HasEntry journal key.bytes)
    (speaks : saysNothing journal key = false) : Importing binding journal key.bytes := by
  obtain ⟨state, found⟩ := Option.isSome_iff_exists.mp listed
  unfold Importing effectiveRank
  rw [found, worth_of_holds (holds _ _ found)]
  apply WithBot.coe_le_coe.mpr
  rw [importing_le_rank_iff]
  unfold saysNothing at speaks
  rw [entry_state, found] at speaks
  cases state with
  | pending attempts flag rejected absentStreak itemsSeen =>
    cases flag with
    | none => cases speaks
    | started => exact .inl ⟨_, _, _, _, rfl⟩
  | resolved resolution => exact .inr ⟨resolution, rfl, by simpa using speaks⟩

/-- Of a row's predecessor the marker was read and the journal shows it, or the journal shows
    an import anyway, or the predecessor is unverified. -/
def Cleared (binding : JournalBinding) (s : Successor) (total : History) (progress : CheckProgress)
    (row : PredecessorMigration) : Prop :=
  Learnt binding s progress.journal total row.key row.generation ∨
    Importing binding progress.journal row.key.bytes ∨ ∃ check ∈ progress.unverified, check.1 = row.key

structure ChecksRows (binding : JournalBinding) (s : Successor) (outcome : WalkState JournalWatch)
    (total : History) (start : MigrationJournal) (progress : CheckProgress)
    (earlier : List PredecessorMigration) : Prop where
  grows : Grows binding start progress.journal
  cleared : ∀ row ∈ earlier, Cleared binding s total progress row
  reached : ∀ key ∈ progress.reached, ∃ row ∈ earlier, row.key = key ∧ walkReadIt outcome row = true

/-- What the rows of a report are checked on: a journal with an entry for each, markers that the walk
    and the start read, and one generation a predecessor. -/
structure Checkable (binding : JournalBinding) (s : Successor) (outcome : WalkState JournalWatch)
    (read : List DelegateKey) (total : History) (start : MigrationJournal) : Prop where
  holds : start.HoldsUnder binding
  listed : ∀ row ∈ outcome.results, HasEntry start row.key.bytes
  walked : ∀ row ∈ outcome.results, walkReadIt outcome row = true →
    Learnt binding s start total row.key row.generation
  started : ∀ row ∈ outcome.results, row.key ∈ read →
    Learnt binding s start total row.key row.generation
  generation : ∀ row ∈ outcome.results, ∀ other ∈ outcome.results,
    row.key = other.key → row.generation = other.generation

theorem checksRows_start (start : MigrationJournal) (unverified : List (DelegateKey × UInt32)) :
    ChecksRows binding s outcome total start ⟨start, unverified, []⟩ [] := by
  refine ⟨.refl _, ?_, ?_⟩
  · exact fun _ absent => nomatch absent
  · exact fun _ absent => nomatch absent

theorem hasEntry_of_grows {before after : MigrationJournal} {key : Fixed 32}
    (grows : Grows binding before after) (holds : before.HoldsUnder binding)
    (listed : HasEntry before key) : HasEntry after key := by
  obtain ⟨state, found⟩ := Option.isSome_iff_exists.mp listed
  have bound := grows.ranks holds key
  cases after' : after.state key with
  | some later => rw [HasEntry, after']; rfl
  | none =>
    rw [effectiveRank, effectiveRank, found, after'] at bound
    exact absurd (le_bot_iff.mp bound) WithBot.coe_ne_bot

/-- A step that takes nothing back, and lets go of an unverified predecessor only once its marker is
    read. -/
theorem ChecksRows.step {start : MigrationJournal} {unverified : List (DelegateKey × UInt32)}
    {journal : MigrationJournal}
    (checked : ChecksRows binding s outcome total start progress earlier)
    (holds : start.HoldsUnder binding) (grown : Grows binding progress.journal journal)
    (released : ∀ other ∈ earlier, (∃ check ∈ progress.unverified, check.1 = other.key) →
      (∃ check ∈ unverified, check.1 = other.key) ∨
        Learnt binding s journal total other.key other.generation)
    (now : Cleared binding s total { progress with journal, unverified } row) :
    ChecksRows binding s outcome total start { progress with journal, unverified }
      (earlier ++ [row]) := by
  have held := checked.grows.holds holds
  refine ⟨checked.grows.trans grown, ?_, ?_⟩
  · intro other member
    rcases List.mem_append.mp member with before | last
    · rcases checked.cleared other before with learnt | shown | listed
      · exact .inl (learnt.mono (List.Subset.refl _) fun shown => shown.grow grown held)
      · exact .inr (.inl (shown.grow grown held))
      · rcases released other before listed with still | learnt
        · exact .inr (.inr still)
        · exact .inl learnt
    · obtain rfl := List.mem_singleton.mp last
      exact now
  · intro key member
    obtain ⟨other, among, same, walkRead⟩ := checked.reached key member
    exact ⟨other, List.mem_append_left _ among, same, walkRead⟩

theorem RowChecks.cleared {start : MigrationJournal}
    (checks : RowChecks successorWorld s outcome read progress row events s' progress')
    (within : events ⊆ total) (able : Checkable binding s outcome read total start)
    (checked : ChecksRows binding s outcome total start progress earlier)
    (member : row ∈ outcome.results) (among : earlier ⊆ outcome.results) :
    s' = s ∧ ChecksRows binding s outcome total start progress' (earlier ++ [row]) := by
  have held := checked.grows.holds able.holds
  have kept : Cleared binding s total progress row →
      ChecksRows binding s outcome total start progress (earlier ++ [row]) :=
    checked.step able.holds (.refl _) fun _ _ listed => .inl listed
  -- An answer releases every row of this predecessor, which all have its generation.
  have answered : ∀ {marker : Option MigrationMarker} {journal : MigrationJournal},
      OwnRead total row.key row.generation marker → Grows binding progress.journal journal →
      Told binding s journal row.key row.generation →
      ChecksRows binding s outcome total start
        { progress with
          journal, unverified := progress.unverified.filter fun check => check.1 ≠ row.key }
        (earlier ++ [row]) := by
    intro marker journal seen grown told
    refine checked.step able.holds grown ?_ (.inl ⟨⟨marker, seen⟩, told⟩)
    intro other before listed
    obtain ⟨check, listed, same⟩ := listed
    by_cases here : check.1 = row.key
    · have key : other.key = row.key := same.symm.trans here
      have generation := able.generation other (among before) row member key
      refine .inr ⟨⟨marker, ?_⟩, ?_⟩
      · rw [key, generation]
        exact seen
      · rw [key, generation]
        exact told
    · exact .inl ⟨check, List.mem_filter.mpr ⟨listed, by simpa using here⟩, same⟩
  cases checks with
  | reached walkRead =>
    have learnt := (able.walked row member walkRead).mono (List.Subset.refl _)
      fun shown => shown.grow checked.grows able.holds
    have next := kept (.inl learnt)
    refine ⟨rfl, next.grows, next.cleared, ?_⟩
    intro key listed
    rcases List.mem_append.mp listed with before | last
    · exact next.reached key before
    · obtain rfl := List.mem_singleton.mp last
      exact ⟨row, List.mem_append_right _ (List.mem_singleton_self _), rfl, walkRead⟩
  | atStart unread started =>
    have learnt := (able.started row member started).mono (List.Subset.refl _)
      fun shown => shown.grow checked.grows able.holds
    exact ⟨rfl, kept (.inl learnt)⟩
  | stands unread later speaks =>
    have listed := hasEntry_of_grows checked.grows able.holds (able.listed row member)
    exact ⟨rfl, kept (.inr (.inl (importing_of_speaks held listed speaks)))⟩
  | started unread later silent marked =>
    obtain ⟨own, rfl⟩ := own_read marked (.inl rfl)
    have seen := within (List.mem_singleton_self _)
    exact ⟨rfl, answered ⟨_, seen, .inl rfl⟩ (grows_markImportStarted ..) fun _ =>
      importing_markImportStarted held row.key row.generation⟩
  | agreed unread later silent marked other =>
    obtain ⟨own, rfl⟩ := own_read marked (.inl rfl)
    have seen := within (List.mem_singleton_self _)
    refine ⟨rfl, answered ⟨_, seen, .inl rfl⟩ (.refl _) ?_⟩
    intro started
    rw [own] at started
    exact absurd started other
  | unreadable unread later silent failed keeps listed =>
    refine ⟨read_same failed, checked.step able.holds (.refl _) ?_ (.inr (.inr listed))⟩
    intro other before listed
    obtain ⟨check, listed, same⟩ := listed
    exact .inl ⟨check, keeps listed, same⟩

theorem checkRows_cleared {start : MigrationJournal} {rows : List PredecessorMigration}
    {rounds : List History}
    (run : Iterates successorWorld (checkRow outcome read) s progress rows rounds s' progress')
    (within : rounds.flatten ⊆ total) (able : Checkable binding s outcome read total start)
    (checked : ChecksRows binding s outcome total start progress earlier)
    (among : earlier ++ rows ⊆ outcome.results) :
    s' = s ∧ ChecksRows binding s outcome total start progress' (earlier ++ rows) := by
  induction run generalizing earlier with
  | nil =>
    rw [List.append_nil]
    exact ⟨rfl, checked⟩
  | @cons _ _ _ _ _ _ row rows calls rounds round _ ih =>
    obtain ⟨now, later⟩ := List.append_subset.mp (show calls ++ rounds.flatten ⊆ total from within)
    obtain ⟨before, member, after⟩ : earlier ⊆ outcome.results ∧ row ∈ outcome.results ∧
        rows ⊆ outcome.results := by simpa using among
    obtain ⟨rfl, next⟩ := (rowChecks_of_executes round).cleared now able checked member before
    have rest := ih later able next (by simp [before, member, after])
    rw [List.append_assoc, List.singleton_append] at rest
    exact rest

end Checking

section Viewing

variable {binding : JournalBinding} {predecessors : List DelegateLineageEntry}
  {journal : MigrationJournal} {unverified : List (DelegateKey × UInt32)}

def viewOf (journal : MigrationJournal) (unverified : List (DelegateKey × UInt32)) :
    MigrationJournal :=
  unverified.foldl (fun view check => (view.markImportStarted check.1 check.2).1) journal

theorem statusWithUnverified_eq : statusWithUnverified journal unverified predecessors binding =
    (viewOf journal unverified).status predecessors binding := by
  unfold statusWithUnverified
  split
  · rename_i none
    rw [List.isEmpty_iff.mp none]
    rfl
  · rfl

theorem grows_viewOf (journal : MigrationJournal) (unverified : List (DelegateKey × UInt32)) :
    Grows binding journal (viewOf journal unverified) :=
  Grows.foldl (fun check _ journal => grows_markImportStarted journal check.1 check.2) journal

theorem importing_viewOf (holds : journal.HoldsUnder binding) {check : DelegateKey × UInt32}
    (member : check ∈ unverified) : Importing binding (viewOf journal unverified) check.1.bytes := by
  induction unverified generalizing journal with
  | nil => cases member
  | cons first rest ih =>
    have marked : Grows binding journal (journal.markImportStarted first.1 first.2).1 :=
      grows_markImportStarted journal first.1 first.2
    rcases List.mem_cons.mp member with rfl | later
    · have shown := importing_markImportStarted holds check.1 check.2
      exact shown.grow (grows_viewOf _ rest) (marked.holds holds)
    · exact ih (marked.holds holds) later

theorem resolved_of_viewOf {key : Fixed 32} {resolution : JournalResolution}
    (found : (viewOf journal unverified).state key = some (.resolved resolution)) :
    journal.state key = some (.resolved resolution) := by
  induction unverified generalizing journal with
  | nil => exact found
  | cons first rest ih =>
    have marked : (journal.markImportStarted first.1 first.2).1.state key =
        some (.resolved resolution) := ih found
    rw [state_markImportStarted] at marked
    split at marked
    · rename_i here
      subst here
      unfold current at marked
      cases held : journal.state first.1.bytes with
      | none =>
        rw [held] at marked
        cases marked
      | some state =>
        rw [held, Option.getD_some] at marked
        cases state with
        | pending => cases marked
        | resolved other =>
          simp only [startImport] at marked
          split at marked
          · exact marked
          · cases marked
    · exact marked

theorem pending_markImportStarted {key : Fixed 32} {attempts rejected absentStreak itemsSeen : UInt32}
    {flag : ImportFlag} (held : journal.effectiveState key binding =
      some (.pending attempts flag rejected absentStreak itemsSeen)) (predecessor : DelegateKey)
    (generation : UInt32) :
    ∃ flag', (journal.markImportStarted predecessor generation).1.effectiveState key binding =
      some (.pending attempts flag' rejected absentStreak itemsSeen) := by
  by_cases here : predecessor.bytes = key
  · subst here
    obtain ⟨state, found, reads⟩ := Option.map_eq_some_iff.mp held
    have marked : (journal.markImportStarted predecessor generation).1.effectiveState predecessor.bytes
        binding = some (effective (startImport state).1 binding) := by
      rw [effectiveState, state_markImportStarted, if_pos rfl, current_of_state found, Option.map_some]
    rw [marked]
    cases state with
    | pending =>
      cases reads
      exact ⟨.started, rfl⟩
    | resolved resolution =>
      cases resolution with
      | importedWithRejections => exact ⟨flag, congrArg some reads⟩
      | imported | noData => cases reads
      | supersededByAuthoritative =>
        simp only [effective] at reads
        split at reads
        · cases reads
          exact ⟨.started, rfl⟩
        · cases reads
  · refine ⟨flag, ?_⟩
    rw [effectiveState, state_markImportStarted, if_neg here]
    exact held

theorem pending_viewOf (unverified : List (DelegateKey × UInt32)) {key : Fixed 32}
    {attempts rejected absentStreak itemsSeen : UInt32} {flag : ImportFlag}
    (held : journal.effectiveState key binding =
      some (.pending attempts flag rejected absentStreak itemsSeen)) :
    ∃ flag', (viewOf journal unverified).effectiveState key binding =
      some (.pending attempts flag' rejected absentStreak itemsSeen) := by
  induction unverified generalizing journal flag with
  | nil => exact ⟨flag, held⟩
  | cons first rest ih =>
    obtain ⟨marked, still⟩ := pending_markImportStarted held first.1 first.2
    exact ih still

/-- Once the rows are checked, the marker of each was read, or the view that the status is taken of
    shows an import. -/
theorem ChecksRows.viewed {s : Successor} {outcome : WalkState JournalWatch} {read : List DelegateKey}
    {total : History} {start after : MigrationJournal} {progress : CheckProgress}
    (checked : ChecksRows binding s outcome total start progress outcome.results)
    (able : Checkable binding s outcome read total start) (grown : Grows binding progress.journal after)
    {row : PredecessorMigration} (member : row ∈ outcome.results) :
    Learnt binding s progress.journal total row.key row.generation ∨
      Importing binding (viewOf after (progress.unverified.filter fun check =>
        check.1 ∉ progress.reached)) row.key.bytes := by
  have held := checked.grows.holds able.holds
  rcases checked.cleared row member with learnt | shown | ⟨check, listed, same⟩
  · exact .inl learnt
  · exact .inr (shown.grow (grown.trans (grows_viewOf after _)) held)
  · by_cases reached : check.1 ∈ progress.reached
    · obtain ⟨other, among, key, walkRead⟩ := checked.reached _ reached
      have key : other.key = row.key := key.trans same
      have learnt := able.walked other among walkRead
      rw [key, able.generation other among row member key] at learnt
      exact .inl (learnt.mono (List.Subset.refl _) fun shown => shown.grow checked.grows able.holds)
    · have kept : check ∈ progress.unverified.filter fun check => check.1 ∉ progress.reached :=
        List.mem_filter.mpr ⟨listed, by simpa using reached⟩
      rw [← same]
      exact .inr (importing_viewOf (grown.holds held) kept)

def ListedStarted (status : JournalStatus) (e : DelegateLineageEntry) : Prop :=
  ∃ pending rejected, status = .incomplete pending rejected ∧ ∃ row ∈ pending,
    row.key = lineageKey e ∧ row.generation = e.generation ∧ row.importFlag = .started

def ResolvedWithData (binding : JournalBinding) [Ciborium] (stored : Option Bytes)
    (key : Fixed 32) : Prop :=
  ∃ journal resolution, storedJournal stored = some journal ∧
    journal.effectiveState key binding = some (.resolved resolution) ∧
    resolution.isDataBearing = true

theorem not_listedStarted {pending : List PendingPredecessor} {rejected : UInt32}
    {e : DelegateLineageEntry} (unflagged : ∀ row ∈ pending, row.importFlag = .none) :
    ¬ ListedStarted (.incomplete pending rejected) e := by
  rintro ⟨rows, _, same, row, member, -, -, flagged⟩
  rw [← (JournalStatus.incomplete.inj same).1] at member
  rw [unflagged row member] at flagged
  cases flagged

theorem not_resolvedWithData [Ciborium] {stored : Option Bytes} {key : Fixed 32}
    {attempts rejected absentStreak itemsSeen : UInt32} {flag : ImportFlag}
    (unresolved : (storedJournal stored).bind (·.effectiveState key binding) =
      some (.pending attempts flag rejected absentStreak itemsSeen)) :
    ¬ ResolvedWithData binding stored key := by
  rintro ⟨journal, resolution, found, resolved, -⟩
  rw [found, Option.bind_some, resolved] at unresolved
  cases unresolved

theorem status_of_pending {e : DelegateLineageEntry} {attempts rejected absentStreak itemsSeen : UInt32}
    {flag : ImportFlag} (member : e ∈ predecessors)
    (held : journal.effectiveState e.delegateKey binding =
      some (.pending attempts flag rejected absentStreak itemsSeen)) :
    ∃ pending total, journal.status predecessors binding = .incomplete pending total ∧
      ⟨lineageKey e, e.generation, attempts, flag, absentStreak, itemsSeen⟩ ∈ pending ∧
      rejected ≤ total := by
  have row : journal.statusRow binding e = (some ⟨lineageKey e, e.generation, attempts, flag,
      absentStreak, itemsSeen⟩, rejected) := by
    simp only [statusRow, held]
  have listed : (⟨lineageKey e, e.generation, attempts, flag, absentStreak, itemsSeen⟩ :
      PendingPredecessor) ∈ predecessors.filterMap fun e => (journal.statusRow binding e).1 :=
    List.mem_filterMap.mpr ⟨e, member, by rw [row]⟩
  have counted := (le_foldl_saturatingAdd (fun e => (journal.statusRow binding e).2) predecessors 0).2 e
    member
  rw [row] at counted
  unfold status
  simp only
  split
  · rename_i none
    rw [List.isEmpty_iff.mp none] at listed
    cases listed
  · exact ⟨_, _, rfl, listed, counted⟩

theorem status_of_importing {e : DelegateLineageEntry} (member : e ∈ predecessors)
    (shown : Importing binding journal e.delegateKey) :
    ListedStarted (journal.status predecessors binding) e ∨ ∃ resolution,
      journal.state e.delegateKey = some (.resolved resolution) ∧ resolution.isDataBearing = true := by
  obtain ⟨state, found, kept, enough⟩ := importing_le_worth shown
  rcases importing_le_rank_iff.mp enough with
    ⟨attempts, rejected, absentStreak, itemsSeen, rfl⟩ | ⟨resolution, rfl, data⟩
  · left
    have held : journal.effectiveState e.delegateKey binding =
        some (.pending attempts .started rejected absentStreak itemsSeen) := by
      rw [effectiveState, found, Option.map_some, kept]
    obtain ⟨pending, total, status, listed, -⟩ := status_of_pending member held
    exact ⟨pending, total, status, _, listed, rfl, rfl, rfl⟩
  · exact .inr ⟨resolution, found, data⟩

theorem resolved_of_complete {rejected : UInt32} {e : DelegateLineageEntry}
    (complete : journal.status predecessors binding = .complete rejected)
    (member : e ∈ predecessors) :
    ∃ resolution, journal.effectiveState e.delegateKey binding = some (.resolved resolution) := by
  unfold status at complete
  simp only at complete
  split at complete
  · rename_i nothing
    have row : (journal.statusRow binding e).1 = none :=
      List.filterMap_eq_nil_iff.mp (List.isEmpty_iff.mp nothing) e member
    unfold statusRow at row
    split at row
    · rename_i found
      exact ⟨_, found⟩
    · rename_i found
      exact ⟨_, found⟩
    · cases row
    · cases row
  · cases complete

theorem data_of_viewOf {unverified : List (DelegateKey × UInt32)} {check : DelegateKey × UInt32}
    (member : check ∈ unverified) {resolution : JournalResolution}
    (found : (viewOf journal unverified).state check.1.bytes = some (.resolved resolution)) :
    resolution.isDataBearing = true := by
  induction unverified generalizing journal with
  | nil => cases member
  | cons first rest ih =>
    rcases List.mem_cons.mp member with rfl | later
    · have marked : (journal.markImportStarted check.1 check.2).1.state check.1.bytes =
          some (.resolved resolution) := resolved_of_viewOf found
      rw [state_markImportStarted, if_pos rfl] at marked
      have started := importing_le_startImport (journal.current check.1.bytes)
      rw [Option.some.inj marked] at started
      rcases importing_le_rank_iff.mp started with ⟨_, _, _, _, pending⟩ | ⟨other, same, data⟩
      · cases pending
      · obtain rfl := JournalState.resolved.inj same
        exact data
    · exact ih later found

theorem effectiveRank_of_noData {key : Fixed 32} {resolution : JournalResolution}
    (held : journal.state key = some (.resolved resolution))
    (kept : effective (.resolved resolution) binding = .resolved resolution)
    (noData : resolution.isDataBearing = false) :
    journal.effectiveRank binding key = ((toLex (1, 0) : ℕ ×ₗ ℕ) : WithBot (ℕ ×ₗ ℕ)) := by
  rw [effectiveRank, held, worth_of_holds kept]
  cases resolution <;> first | rfl | cases noData

theorem not_importing_of_noData {key : Fixed 32} {resolution : JournalResolution}
    (held : journal.state key = some (.resolved resolution))
    (kept : effective (.resolved resolution) binding = .resolved resolution)
    (noData : resolution.isDataBearing = false) : ¬ Importing binding journal key := by
  intro shown
  unfold Importing at shown
  rw [effectiveRank_of_noData held kept noData] at shown
  have bound := WithBot.coe_le_coe.mp shown
  simp [importing, rank_le_iff] at bound

end Viewing

end FreenetMigrate.Migrate
