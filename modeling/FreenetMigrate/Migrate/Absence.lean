import FreenetMigrate.Calls.Crash
import FreenetMigrate.Journal.Absence
import FreenetMigrate.Migrate.Tallies
import FreenetMigrate.Migrate.Upheld

namespace FreenetMigrate.Migrate

open Calls Journal MigrationJournal

def saysAbsent (key : Fixed 32) : Event Request Answer → Bool
  | ⟨.probeVerdict predecessor, .ok .notInstalled⟩ => predecessor.bytes == key
  | _ => false

def PredecessorMigration.examined : PredecessorMigration → Bool
  | .imported _ _ _ => true
  | .noData _ _ => true
  | .incomplete _ _ _ _ => true
  | .unresponsive _ _ _ => true
  | .alreadyMigrated _ _ => false
  | .superseded _ _ => false
  | .writerUnavailable _ _ _ => false

section Rows

variable {State Observed : Type} {world : World Request Answer State} {s s' : State}
  {observer : WalkObserver Observed} {policy : SecretSelectionPolicy} {observed : Observed}
  {state state' : WalkState Observed} {row : DelegateKey × UInt32} {events : History}
  {key : Fixed 32} {predecessors : List DelegateLineageEntry}

theorem RowRuns.absent (runs : RowRuns observer policy world s state row events s' state')
    (member : key ∈ state'.notInstalled) :
    key ∈ state.notInstalled ∨ events.any (saysAbsent key) = true := by
  cases runs with
  | @silent asked error absent _ _ _ _ _ asks gaveNone =>
    cases gaveNone with
    | notInstalled =>
      rcases List.mem_cons.mp member with rfl | before
      · right
        rw [List.any_append]
        simp [saysAbsent]
      · exact .inl before
    | noReply | probeFailed | fetchFailed => exact .inl member
  | @dataSeal bridged => cases bridged <;> exact .inl member
  | offered begins offers completes => cases completes <;> exact .inl member
  | _ => exact .inl member

theorem absent_of_walk
    (run : Executes world s (walk observer policy predecessors observed) events s' state')
    (member : key ∈ state'.notInstalled) : events.any (saysAbsent key) = true := by
  obtain ⟨visits, -, rfl, -, visited⟩ := visits_of_walk run
  have found : ∀ {s s' : State} {state state' : WalkState Observed} {visits : List Visit},
      Visits observer policy world s state visits s' state' → key ∈ state'.notInstalled →
      key ∈ state.notInstalled ∨ (visits.map Visit.calls).flatten.any (saysAbsent key) = true := by
    intro s s' state state' visits visited member
    induction visited with
    | nil => exact .inl member
    | cons round _ _ ih =>
      rw [List.map_cons, List.flatten_cons, List.any_append, Bool.or_eq_true]
      rcases ih member with before | later
      · exact ((rowRuns_of_executes round).absent before).imp id .inl
      · exact .inr (.inr later)
  exact (found visited member).resolve_left List.not_mem_nil

theorem distinct_results {visits : List Visit}
    (visited : Visits observer policy world s state visits s' state')
    (rows : visits.map Visit.row = newestFirst predecessors)
    (distinct : (predecessors.map (·.delegateKey)).Nodup) :
    ((visits.map Visit.report).map fun row => row.key.bytes).Nodup ∧
      ∀ visit ∈ visits, visit.report.key = visit.row.1 := by
  have own : ∀ visit ∈ visits, visit.report.key = visit.row.1 := by
    intro visit member
    obtain ⟨s₁, state₁, s₂, state₂, runs, pushed⟩ := visited.visited member
    obtain ⟨report, alone, sameKey, -⟩ := runs.reports
    rw [report_unique alone pushed] at sameKey
    exact sameKey
  refine ⟨?_, own⟩
  have perm := (newestFirst_ordered predecessors).perm.map fun row => row.1.bytes
  rw [← rows, List.map_map, List.map_map] at perm
  have keys : (visits.map Visit.report).map (fun row => row.key.bytes) =
      visits.map ((fun row => row.1.bytes) ∘ Visit.row) := by
    rw [List.map_map]
    exact List.map_congr_left fun visit member => congrArg DelegateKey.bytes (own visit member)
  rw [keys]
  exact perm.nodup_iff.mpr distinct

end Rows

section Recording

variable {outcome : WalkState JournalWatch} {policy : SecretSelectionPolicy} {importRevision : UInt32}
  {key : Fixed 32} {n : Nat}

theorem absences_resolveRow (resolved : List (Option JournalResolution)) (row : PredecessorMigration)
    (n : Nat) :
    (resolveRow outcome policy importRevision resolved row).1.absences n ≤
      if row.key.bytes ∈ outcome.notInstalled then n + 1 else n := by
  have kept : n ≤ if row.key.bytes ∈ outcome.notInstalled then n + 1 else n := by
    split <;> omega
  unfold resolveRow
  split
  · exact kept
  · split
    · exact Nat.zero_le _
    · split
      · exact Nat.zero_le _
      · cases row with
        | superseded | writerUnavailable => exact kept
        | imported | noData | alreadyMigrated | incomplete => exact Nat.zero_le _
        | unresponsive predecessor generation error =>
          by_cases found : predecessor.bytes ∈ outcome.notInstalled
          · simp [RunOutcome.absences, PredecessorMigration.key, found]
          · simp [RunOutcome.absences, PredecessorMigration.key, found]

theorem absences_of_examined {row : PredecessorMigration} (examined : row.examined = true)
    (uncut : ¬ outcome.CutShort row.key.bytes) (present : row.key.bytes ∉ outcome.notInstalled)
    (resolved : List (Option JournalResolution)) :
    (resolveRow outcome policy importRevision resolved row).1.absences n = 0 := by
  have lookup : outcome.journalResolved.lookup row.key.bytes = none := by
    rw [← Option.not_isSome_iff_eq_none]
    exact fun found => uncut (.inl found)
  have uncovered : row.key.bytes ∉ outcome.bridged := fun covered => uncut (.inr covered)
  unfold resolveRow
  simp only [lookup, if_neg uncovered]
  split
  · rfl
  · cases row with
    | superseded | writerUnavailable | alreadyMigrated => cases examined
    | unresponsive predecessor generation error =>
      simp only [RunOutcome.absences, decide_eq_true_eq]
      exact if_neg present
    | imported | noData | incomplete => rfl

theorem state_foldl_record {items : List (PredecessorMigration × RunOutcome)}
    {journal : MigrationJournal} (others : ∀ item ∈ items, item.1.key.bytes ≠ key) :
    (items.foldl (fun journal row => journal.record row.1.key row.1.generation row.2) journal).state key =
      journal.state key := by
  induction items generalizing journal with
  | nil => rfl
  | cons item rest ih =>
    obtain ⟨apart, later⟩ := List.forall_mem_cons.mp others
    rw [List.foldl_cons, ih later, state_record, if_neg apart]

/-- Of what is recorded, only a predecessor's own row counts for its absences. -/
theorem few_foldl_record {items : List (PredecessorMigration × RunOutcome)}
    {journal : MigrationJournal} (distinct : (items.map fun item => item.1.key.bytes).Nodup)
    (has : HasTrait (AbsentAtMost n) journal key) {item : PredecessorMigration × RunOutcome}
    (member : item ∈ items) (own : item.1.key.bytes = key) :
    HasTrait (AbsentAtMost (item.2.absences n))
      (items.foldl (fun journal row => journal.record row.1.key row.1.generation row.2) journal) key := by
  induction items generalizing journal with
  | nil => cases member
  | cons first rest ih =>
    obtain ⟨apart, later⟩ := List.nodup_cons.mp distinct
    rcases List.mem_cons.mp member with rfl | after
    · rw [List.foldl_cons]
      apply (few_record has own item.1.generation item.2).of_state
      apply state_foldl_record
      intro other among same
      exact apart (List.mem_map.mpr ⟨other, among, same.trans own.symm⟩)
    · apply ih later _ after
      apply has.of_state
      rw [state_record, if_neg]
      intro same
      exact apart (List.mem_map.mpr ⟨item, after, own.trans same.symm⟩)

theorem results_zip (policy : SecretSelectionPolicy) (importRevision : UInt32) :
    (outcome.results.zip (resolveOutcomes outcome policy importRevision [] outcome.results)).map
      Prod.fst = outcome.results := by
  apply List.map_fst_zip
  rw [length_resolveOutcomes]

theorem distinct_outcomes (distinct : (outcome.results.map fun row => row.key.bytes).Nodup) :
    ((outcome.results.zip (resolveOutcomes outcome policy importRevision [] outcome.results)).map
      fun item => item.1.key.bytes).Nodup := by
  rw [← results_zip policy importRevision, List.map_map] at distinct
  exact distinct

theorem few_recordOutcomes {m : Nat} (distinct : (outcome.results.map fun row => row.key.bytes).Nodup)
    (has : HasTrait (AbsentAtMost n) outcome.observed.journal key) (le : n ≤ m)
    (absent : key ∈ outcome.notInstalled → n + 1 ≤ m) :
    HasTrait (AbsentAtMost m) (recordOutcomes outcome policy (.new policy importRevision)) key := by
  by_cases listed : ∃ item ∈ outcome.results.zip
      (resolveOutcomes outcome policy importRevision [] outcome.results), item.1.key.bytes = key
  · obtain ⟨item, member, own⟩ := listed
    obtain ⟨-, -, known, -, same, -⟩ := outcome_of_row member
    apply (few_foldl_record (distinct_outcomes distinct) has member own).few_mono
    have most : item.2.absences n ≤ if item.1.key.bytes ∈ outcome.notInstalled then n + 1 else n :=
      same ▸ absences_resolveRow known item.1 n
    rw [own] at most
    refine most.trans ?_
    split
    · rename_i found
      exact absent found
    · exact le
  · apply (has.few_mono le).of_state
    apply state_foldl_record
    intro item member own
    exact listed ⟨item, member, own⟩

/-- A row that says how its predecessor answered leaves no absences of it. -/
theorem few_recordOutcomes_of_examined
    (distinct : (outcome.results.map fun row => row.key.bytes).Nodup) {row : PredecessorMigration}
    (member : row ∈ outcome.results) (own : row.key.bytes = key) (examined : row.examined = true)
    (uncut : ¬ outcome.CutShort key) (present : key ∉ outcome.notInstalled) :
    HasTrait (AbsentAtMost 0) (recordOutcomes outcome policy (.new policy importRevision)) key := by
  subst own
  rw [← results_zip policy importRevision] at member
  obtain ⟨item, among, rfl⟩ := List.mem_map.mp member
  obtain ⟨-, -, known, -, same, -⟩ := outcome_of_row among
  have few := few_foldl_record (distinct_outcomes distinct)
    (hasTrait_absentAtMost_size outcome.observed.journal item.1.key.bytes) among rfl
  rw [same, absences_of_examined examined uncut present] at few
  exact few

end Recording

section Checking

variable {State : Type} {world : World Request Answer State} {s s' : State} {events : History}
  {outcome : WalkState JournalWatch} {read : List DelegateKey} {progress progress' : CheckProgress}
  {row : PredecessorMigration} {key : Fixed 32} {n : Nat}

theorem RowChecks.few (checks : RowChecks world s outcome read progress row events s' progress')
    (has : HasTrait (AbsentAtMost n) progress.journal key) :
    HasTrait (AbsentAtMost n) progress'.journal key := by
  cases checks with
  | started => exact few_markImportStarted has row.key row.generation
  | _ => exact has

theorem RowChecks.hasEntry (checks : RowChecks world s outcome read progress row events s' progress')
    (listed : HasEntry progress.journal key) : HasEntry progress'.journal key := by
  cases checks with
  | started =>
    rw [HasEntry, state_markImportStarted]
    split
    · rfl
    · exact listed
  | _ => exact listed

theorem few_checkRows {rows : List PredecessorMigration} {rounds : List History}
    (checked : Iterates world (checkRow outcome read) s progress rows rounds s' progress')
    (listed : HasEntry progress.journal key) (has : HasTrait (AbsentAtMost n) progress.journal key) :
    HasEntry progress'.journal key ∧ HasTrait (AbsentAtMost n) progress'.journal key := by
  induction checked with
  | nil => exact ⟨listed, has⟩
  | cons round _ ih =>
    have checks := rowChecks_of_executes round
    exact ih (checks.hasEntry listed) (checks.few has)

theorem few_viewOf {journal : MigrationJournal} (has : HasTrait (AbsentAtMost n) journal key)
    (unverified : List (DelegateKey × UInt32)) :
    HasTrait (AbsentAtMost n) (viewOf journal unverified) key := by
  induction unverified generalizing journal with
  | nil => exact has
  | cons check rest ih => exact ih (few_markImportStarted has check.1 check.2)

end Checking

/-- Of a predecessor that no import is known of, the stored journal counts at most so many absences in
    a row. -/
def StreakAtMost [Ciborium] (n : Nat) (key : Fixed 32) (stored : Option Bytes) : Prop :=
  ∀ journal, storedJournal stored = some journal → HasTrait (AbsentAtMost n) journal key

theorem upheld_few (n : Nat) (key : Fixed 32) :
    Upheld fun journal => HasTrait (AbsentAtMost n) journal key where
  starts predecessors := hasTrait_newPending absentAtMost_fresh predecessors key
  rebinds has binding := has.rebind (trait_absentAtMost n) binding
  merges ours theirs binding := ours.mergeStored (trait_absentAtMost n) theirs binding
  marks has predecessor generation := few_markImportStarted has predecessor generation
  counts has predecessor count := has.noteItemsSeen predecessor count absentAtMost_raiseCount
  resolves has predecessor generation resolution _ :=
    few_record_resolved has predecessor generation resolution

section Stored

variable [Ciborium] {key : Fixed 32} {n : Nat} {stored stored' : Option Bytes}

theorem StreakAtMost.mono {m : Nat} (few : StreakAtMost n key stored) (le : n ≤ m) :
    StreakAtMost m key stored := fun journal found => (few journal found).few_mono le

variable [LawfulCiborium] {predecessors : List DelegateLineageEntry} {policy : SecretSelectionPolicy}
  {binding : JournalBinding} {journalKey : Bytes} {importRevision : UInt32}

/-- A run that is stopped anywhere counts one absence more at most, and that only if it found one. -/
theorem streak_of_reaches {before after : Option Bytes} {events : History}
    (distinct : (predecessors.map (·.delegateKey)).Nodup) (few : StreakAtMost n key before)
    (run : Reaches journalWorld before
      (migrateDelegateSecretsJournaled journalKey importRevision predecessors policy) events after) :
    StreakAtMost (if events.any (saysAbsent key) then n + 1 else n) key after := by
  have le : n ≤ if events.any (saysAbsent key) then n + 1 else n := by
    split <;> omega
  have kept := journalKept_journalWorld
  have guarded : JournalGuarded journalWorld (StreakAtMost n key)
      (fun journal => HasTrait (AbsentAtMost n) journal key) True :=
    guarded_upheld kept (upheld_few n key)
  have observed : Guarded journalWorld (StreakAtMost n key)
      (journalObserver journalKey (.new policy importRevision) predecessors policy)
      (fun watch => HasTrait (AbsentAtMost n) watch.journal key) :=
    guarded_observer kept (upheld_few n key) journalKey
  have starts : (startJournal predecessors policy (.new policy importRevision)).run.Secures journalWorld
      (StreakAtMost n key) (Either (fun found => HasTrait (AbsentAtMost n) found.1.journal key)
        fun _ => True) := secures_start kept (upheld_few n key)
  rcases reaches_bind run with starting | ⟨first, s₁, found, rest, rfl, started, run⟩
  · exact (starts.reaches starting few).mono le
  · obtain ⟨few, has⟩ := starts.executes started few
    cases found with
    | error e =>
      cases run
      exact few.mono le
    | ok found =>
      obtain ⟨began, checks⟩ := found
      rcases reaches_bind run with establishing | ⟨second, s₂, ⟨result, journal⟩, rest, rfl, established,
        run⟩
      · exact ((secures_establish guarded has).reaches establishing few).mono le
      · obtain ⟨few, has, -⟩ := (secures_establish guarded has).executes established few
        cases result with
        | error e =>
          cases run
          exact few.mono le
        | ok =>
          have rebound : HasTrait (AbsentAtMost n)
              (⟨journal.rebind (.new policy importRevision), none⟩ : JournalWatch).journal key :=
            has.rebind (trait_absentAtMost n) _
          rcases reaches_bind run with walking | ⟨third, s₃, outcome, rest, rfl, walked, run⟩
          · exact ((secures_walk observed predecessors rebound).reaches walking few).mono le
          · obtain ⟨few, has⟩ :=
              (secures_walk observed predecessors rebound).executes walked few
            obtain ⟨visits, rows, -, results, visited⟩ := visits_of_walk walked
            have unique := (distinct_results visited rows distinct).1
            rw [← results] at unique
            refine (secures_conclude kept (upheld_few _ key) importRevision checks
              (few_recordOutcomes unique has le ?_)).reaches run (few.mono le)
            intro member
            have answered := absent_of_walk walked member
            simp only [List.any_append, answered, Bool.or_true, Bool.true_or, if_true]
            exact le_rfl

omit [LawfulCiborium] in
theorem Stores.few {rebuild : Option (List DelegateLineageEntry × SecretSelectionPolicy)}
    {journal after : MigrationJournal} {events : History} {result : Except JournalError Unit}
    (run : Stores journalWorld stored journal (some binding) rebuild events stored' result after)
    (listed : HasEntry journal key) (has : HasTrait (AbsentAtMost n) journal key) :
    HasTrait (AbsentAtMost n) after key := by
  cases run with
  | refused => exact has
  | wrote steps reads merges made =>
    cases merges with
    | absent => exact has
    | present | rebuilt => exact few_mergeStored_of_entry listed has _ binding

/-- Once a run has put on record how a predecessor answered, no absence of it is counted, unless that
    was the answer. -/
theorem JournaledRuns.few {before after : Option Bytes} {events : History}
    {report : JournaledMigrationReport} {row : PredecessorMigration}
    (run : JournaledRuns journalWorld before journalKey predecessors policy
      (.new policy importRevision) events after report)
    (distinct : (predecessors.map (·.delegateKey)).Nodup) (ended : report.status.isSome = true)
    (member : row ∈ report.report) (own : row.key.bytes = key) (examined : row.examined = true)
    (present : events.any (saysAbsent key) = false) : StreakAtMost 0 key after := by
  cases run with
  | notStarted | notEstablished => cases ended
  | @walked _ _ _ _ walking _ _ _ _ _ _ outcome _ steps reads starts establishes walked concludes =>
    cases concludes with
    | refused => cases ended
    | @stored _ _ _ _ progress journal checked stores =>
      obtain ⟨visits, rows, -, results, visited⟩ := visits_of_walk walked
      obtain ⟨unique, owns⟩ := distinct_results visited rows distinct
      rw [← results] at unique
      have absent : key ∉ outcome.notInstalled := by
        intro found
        have answered := absent_of_walk walked found
        simp [List.any_append, answered] at present
      have uncut : ¬ outcome.CutShort key := by
        intro cut
        rcases visited.cut_short cut with (found | covered) | ⟨visit, among, same, migrated⟩
        · cases found
        · cases covered
        · have listed : visit.report ∈ outcome.results :=
            results ▸ List.mem_map_of_mem among
          have both : visit.report.key.bytes = row.key.bytes := by
            rw [owns visit among, same, own]
          rw [← List.inj_on_of_nodup_map unique listed member both, migrated] at examined
          cases examined
      have recorded : HasTrait (AbsentAtMost 0)
          (recordOutcomes outcome policy (.new policy importRevision)) key :=
        few_recordOutcomes_of_examined unique member own examined uncut absent
      have entered : HasEntry (recordOutcomes outcome policy (.new policy importRevision)) key :=
        own ▸ hasEntry_recordOutcomes member
      obtain ⟨still, few⟩ := few_checkRows checked entered recorded
      intro journal found
      have written := stores.stored_of_ok journalKept_journalWorld
      rw [show after = some _ from written, storedJournal_encode] at found
      obtain rfl := Option.some.inj found
      exact stores.few still few

end Stored

end FreenetMigrate.Migrate
