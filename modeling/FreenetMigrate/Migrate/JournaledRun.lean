import FreenetMigrate.Migrate.Journaled
import FreenetMigrate.Migrate.Start

namespace FreenetMigrate.Migrate

open Calls Journal MigrationJournal

variable {State : Type} {world : World Request Answer State} {s s' : State} {events : History}
  {predecessors : List DelegateLineageEntry} {policy : SecretSelectionPolicy}
  {outcome : WalkState JournalWatch} {read : List DelegateKey}

inductive RowChecks (world : World Request Answer State) (s : State)
    (outcome : WalkState JournalWatch) (read : List DelegateKey) (progress : CheckProgress)
    (row : PredecessorMigration) : History → State → CheckProgress → Prop
  | reached (walkRead : walkReadIt outcome row = true) :
      RowChecks world s outcome read progress row [] s
        { progress with reached := progress.reached ++ [row.key] }
  | atStart (unread : walkReadIt outcome row = false) (started : row.key ∈ read) :
      RowChecks world s outcome read progress row [] s progress
  | stands (unread : walkReadIt outcome row = false) (later : row.key ∉ read)
      (speaks : saysNothing progress.journal row.key = false) :
      RowChecks world s outcome read progress row [] s progress
  | started {s' : State} (unread : walkReadIt outcome row = false) (later : row.key ∉ read)
      (silent : saysNothing progress.journal row.key = true)
      (marked : world s (.migrationMarker ⟨row.key, row.generation, .exactGenerationOnly⟩)
        (.ok (some (.inProgress true))) s') :
      RowChecks world s outcome read progress row
        [⟨.migrationMarker ⟨row.key, row.generation, .exactGenerationOnly⟩,
          .ok (some (.inProgress true))⟩] s'
        ⟨(progress.journal.markImportStarted row.key row.generation).1,
          progress.unverified.filter fun check => check.1 ≠ row.key, progress.reached⟩
  | agreed {marker : Option MigrationMarker} {s' : State}
      (unread : walkReadIt outcome row = false) (later : row.key ∉ read)
      (silent : saysNothing progress.journal row.key = true)
      (marked : world s (.migrationMarker ⟨row.key, row.generation, .exactGenerationOnly⟩)
        (.ok marker) s')
      (other : marker ≠ some (.inProgress true)) :
      RowChecks world s outcome read progress row
        [⟨.migrationMarker ⟨row.key, row.generation, .exactGenerationOnly⟩, .ok marker⟩] s'
        { progress with unverified := progress.unverified.filter fun check => check.1 ≠ row.key }
  | unreadable {err : String} {unverified : List (DelegateKey × UInt32)} {s' : State}
      (unread : walkReadIt outcome row = false) (later : row.key ∉ read)
      (silent : saysNothing progress.journal row.key = true)
      (failed : world s (.migrationMarker ⟨row.key, row.generation, .exactGenerationOnly⟩)
        (.error err) s')
      (kept : progress.unverified ⊆ unverified)
      (listed : ∃ check ∈ unverified, check.1 = row.key) :
      RowChecks world s outcome read progress row
        [⟨.migrationMarker ⟨row.key, row.generation, .exactGenerationOnly⟩, .error err⟩] s'
        { progress with unverified }

theorem rowChecks_of_executes {progress progress' : CheckProgress} {row : PredecessorMigration}
    (run : Executes world s (checkRow outcome read progress row) events s' progress') :
    RowChecks world s outcome read progress row events s' progress' := by
  unfold checkRow at run
  simp only at run
  split at run
  · rename_i walkRead
    obtain ⟨rfl, rfl, rfl⟩ := executes_pure.mp run
    exact .reached walkRead
  · rename_i unwalked
    have unread : walkReadIt outcome row = false := Bool.not_eq_true _ ▸ unwalked
    split at run
    · rename_i started
      obtain ⟨rfl, rfl, rfl⟩ := executes_pure.mp run
      exact .atStart unread started
    · rename_i later
      split at run
      · rename_i silent
        obtain ⟨answer, s₁, rest, rfl, marked, heeded⟩ := executes_call.mp run
        cases answer with
        | error err =>
          simp only at heeded
          split at heeded
          · rename_i listed
            obtain ⟨rfl, rfl, rfl⟩ := executes_pure.mp heeded
            obtain ⟨check, member, same⟩ := List.any_eq_true.mp listed
            exact .unreadable unread later silent marked (List.Subset.refl _)
              ⟨check, member, beq_iff_eq.mp same⟩
          · obtain ⟨rfl, rfl, rfl⟩ := executes_pure.mp heeded
            exact .unreadable unread later silent marked (List.subset_append_left ..)
              ⟨_, List.mem_append_right _ (List.mem_singleton_self _), rfl⟩
        | ok marker =>
          simp only at heeded
          split at heeded
          · rename_i same
            obtain ⟨rfl, rfl, rfl⟩ := executes_pure.mp heeded
            subst same
            exact .started unread later silent marked
          · rename_i other
            obtain ⟨rfl, rfl, rfl⟩ := executes_pure.mp heeded
            exact .agreed unread later silent marked other
      · rename_i speaks
        obtain ⟨rfl, rfl, rfl⟩ := executes_pure.mp run
        exact .stands unread later (Bool.not_eq_true _ ▸ speaks)

theorem uses_checkRow (progress : CheckProgress) (row : PredecessorMigration) :
    (checkRow outcome read progress row).Uses ReadCall := by
  unfold checkRow
  simp only
  split
  · exact uses_pure _
  · split
    · exact uses_pure _
    · split
      · refine uses_bind (uses_exactMarker ..) ?_
        intro answer
        split
        · split <;> exact uses_pure _
        · split <;> exact uses_pure _
      · exact uses_pure _

def recordOutcomes (outcome : WalkState JournalWatch) (policy : SecretSelectionPolicy)
    (binding : JournalBinding) : MigrationJournal :=
  (outcome.results.zip (resolveOutcomes outcome policy binding.importRevision [] outcome.results)).foldl
    (fun journal row => journal.record row.1.key row.1.generation row.2) outcome.observed.journal

section Run

variable [Ciborium] {binding : JournalBinding} {checks : MarkerChecks} {journalKey : Bytes}
  {importRevision : UInt32}

/-- What follows the walk: the rows that need it are checked, and the journal is stored. -/
inductive Concludes (world : World Request Answer State) (s : State)
    (predecessors : List DelegateLineageEntry) (policy : SecretSelectionPolicy)
    (binding : JournalBinding) (checks : MarkerChecks) (outcome : WalkState JournalWatch) :
    History → State → JournaledMigrationReport → Prop
  | stored {rounds : List History} {storing : History} {s₁ s' : State} {progress : CheckProgress}
      {journal : MigrationJournal}
      (checked : Iterates world (checkRow outcome checks.read) s
        ⟨recordOutcomes outcome policy binding, checks.unverified, []⟩ outcome.results rounds s₁
        progress)
      (stores : Stores world s₁ progress.journal (some binding) (some (predecessors, policy)) storing s'
        (.ok ()) journal) :
      Concludes world s predecessors policy binding checks outcome (rounds.flatten ++ storing) s'
        ⟨outcome.results, some (statusWithUnverified journal
          (progress.unverified.filter fun check => check.1 ∉ progress.reached) predecessors binding),
          outcome.observed.firstError⟩
  | refused {rounds : List History} {storing : History} {s₁ s' : State} {progress : CheckProgress}
      {journal : MigrationJournal} {e : JournalError}
      (checked : Iterates world (checkRow outcome checks.read) s
        ⟨recordOutcomes outcome policy binding, checks.unverified, []⟩ outcome.results rounds s₁
        progress)
      (stores : Stores world s₁ progress.journal (some binding) (some (predecessors, policy)) storing s'
        (.error e) journal) :
      Concludes world s predecessors policy binding checks outcome (rounds.flatten ++ storing) s'
        ⟨outcome.results, none, outcome.observed.firstError.or (some e.display)⟩

theorem concludes_of_executes {report : JournaledMigrationReport}
    (run : Executes world s (conclude predecessors policy binding checks outcome) events s' report) :
    Concludes world s predecessors policy binding checks outcome events s' report := by
  obtain ⟨checking, s₁, progress, rest, rfl, loop, afterChecks⟩ := executes_bind.mp run
  obtain ⟨rounds, rfl, checked⟩ := executes_foldlM.mp loop
  obtain ⟨storing, s₂, ⟨result, journal⟩, more, rfl, stored, finish⟩ := executes_bind.mp afterChecks
  have stores := stores_of_executes stored
  cases result with
  | ok answer =>
    obtain ⟨rfl, rfl, rfl⟩ := executes_pure.mp finish
    rw [List.append_nil]
    exact .stored checked stores
  | error e =>
    obtain ⟨rfl, rfl, rfl⟩ := executes_pure.mp finish
    rw [List.append_nil]
    exact .refused checked stores

/-- The journal a walk starts from: the stored one, or one stored before anything is written. -/
inductive Establishes (world : World Request Answer State) (s : State)
    (predecessors : List DelegateLineageEntry) (policy : SecretSelectionPolicy)
    (binding : JournalBinding) :
    Started → History → State → Except JournalError Unit → MigrationJournal → Prop
  | existing (journal : MigrationJournal) :
      Establishes world s predecessors policy binding (.existing journal) [] s (.ok ()) journal
  | new {journal after : MigrationJournal} {events : History} {s' : State}
      {result : Except JournalError Unit}
      (stores : Stores world s journal (some binding) (some (predecessors, policy)) events s' result
        after) :
      Establishes world s predecessors policy binding (.new journal) events s' result after

theorem establishes_of_executes {started : Started} {result : Except JournalError Unit}
    {journal : MigrationJournal}
    (run : Executes world s (establish predecessors policy binding started) events s'
      (result, journal)) :
    Establishes world s predecessors policy binding started events s' result journal := by
  cases started with
  | existing held =>
    obtain ⟨rfl, rfl, same⟩ := executes_pure.mp run
    obtain ⟨rfl, rfl⟩ := Prod.mk.inj same
    exact .existing _
  | new fresh => exact .new (stores_of_executes run)

theorem uses_establish (started : Started) :
    (establish predecessors policy binding started).Uses JournalCall := by
  cases started with
  | existing => exact uses_pure _
  | new journal => exact uses_storeMerged journal (some binding) (some (predecessors, policy))

theorem uses_conclude (outcome : WalkState JournalWatch) :
    (conclude predecessors policy binding checks outcome).Uses JournalCall := by
  refine uses_bind (uses_foldlM _ _ ?_) ?_
  · intro progress row
    exact (uses_checkRow progress row).mono fun _ => ReadCall.journalCall
  · intro progress
    refine uses_bind (uses_storeMerged ..) ?_
    rintro ⟨stored, journal⟩
    cases stored <;> exact uses_pure _

inductive JournaledRuns (world : World Request Answer State) (s : State) (journalKey : Bytes)
    (predecessors : List DelegateLineageEntry) (policy : SecretSelectionPolicy)
    (binding : JournalBinding) : History → State → JournaledMigrationReport → Prop
  | notStarted {events : History} {s' : State} {error : String} (steps : Steps world s events s')
      (reads : Only ReadCall events) :
      JournaledRuns world s journalKey predecessors policy binding events s'
        (refused predecessors error)
  | notEstablished {started : Started} {checks : MarkerChecks} {starting storing : History}
      {s₁ s' : State} {e : JournalError} {journal : MigrationJournal} {error : String}
      (steps : Steps world s starting s₁) (reads : Only ReadCall starting)
      (starts : Starts world s predecessors policy binding starting s₁ started checks)
      (establishes : Establishes world s₁ predecessors policy binding started storing s' (.error e)
        journal) :
      JournaledRuns world s journalKey predecessors policy binding (starting ++ storing) s'
        (refused predecessors error)
  | walked {started : Started} {checks : MarkerChecks} {starting storing walking ending : History}
      {s₁ s₂ s₃ s' : State} {journal : MigrationJournal} {outcome : WalkState JournalWatch}
      {report : JournaledMigrationReport}
      (steps : Steps world s starting s₁) (reads : Only ReadCall starting)
      (starts : Starts world s predecessors policy binding starting s₁ started checks)
      (establishes : Establishes world s₁ predecessors policy binding started storing s₂ (.ok ())
        journal)
      (walked : Executes world s₂ (walk (journalObserver journalKey binding predecessors policy) policy
        predecessors ⟨journal.rebind binding, none⟩) walking s₃ outcome)
      (concludes : Concludes world s₃ predecessors policy binding checks outcome ending s' report) :
      JournaledRuns world s journalKey predecessors policy binding
        (starting ++ storing ++ walking ++ ending) s' report

theorem journaledRuns_of_executes {report : JournaledMigrationReport}
    (run : Executes world s
      (migrateDelegateSecretsJournaled journalKey importRevision predecessors policy) events s' report) :
    JournaledRuns world s journalKey predecessors policy (.new policy importRevision) events s'
      report := by
  obtain ⟨starting, s₁, found, rest, rfl, start, afterStart⟩ := executes_bind.mp run
  have reads := start.only uses_startJournal
  cases found with
  | error e =>
    obtain ⟨rfl, rfl, rfl⟩ := executes_pure.mp afterStart
    rw [List.append_nil]
    exact .notStarted start.steps reads
  | ok found =>
    obtain ⟨started, checks⟩ := found
    have starts := starts_of_executes start
    obtain ⟨storing, s₂, ⟨established, journal⟩, more, rfl, establishing, afterStore⟩ :=
      executes_bind.mp afterStart
    have establishes := establishes_of_executes establishing
    cases established with
    | error e =>
      obtain ⟨rfl, rfl, rfl⟩ := executes_pure.mp afterStore
      rw [List.append_nil]
      exact .notEstablished start.steps reads starts establishes
    | ok answer =>
      obtain ⟨walking, s₃, outcome, ending, rfl, walked, concluded⟩ := executes_bind.mp afterStore
      rw [← List.append_assoc, ← List.append_assoc]
      exact .walked start.steps reads starts establishes walked (concludes_of_executes concluded)

end Run

end FreenetMigrate.Migrate
