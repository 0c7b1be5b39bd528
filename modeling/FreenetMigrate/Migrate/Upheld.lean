import FreenetMigrate.Journal.Traits
import FreenetMigrate.Migrate.AppFlag
import FreenetMigrate.Migrate.Secured
import FreenetMigrate.Migrate.Status

namespace FreenetMigrate.Migrate

open Calls Journal MigrationJournal

/-- A property of journals that outlasts everything written into one but the outcomes of a walk. -/
structure Upheld (tells : MigrationJournal → Prop) : Prop where
  starts (predecessors : List DelegateLineageEntry) : tells (newPending predecessors)
  rebinds {journal : MigrationJournal} (telling : tells journal) (binding : JournalBinding) :
    tells (journal.rebind binding)
  merges {ours stored : MigrationJournal} (telling : tells ours) (told : tells stored)
    (binding : JournalBinding) : tells (ours.mergeStored stored (some binding))
  marks {journal : MigrationJournal} (telling : tells journal) (key : DelegateKey) (generation : UInt32) :
    tells (journal.markImportStarted key generation).1
  counts {journal : MigrationJournal} (telling : tells journal) (key : DelegateKey) (items : UInt32) :
    tells (journal.noteItemsSeen key items).1
  resolves {journal : MigrationJournal} (telling : tells journal) (key : DelegateKey)
    (generation : UInt32) {resolution : JournalResolution} (counted : RejectsSome (.resolved resolution)) :
    tells (journal.record key generation (.resolved resolution))

theorem Upheld.flag {tells : MigrationJournal → Prop} (upheld : Upheld tells) {watch : JournalWatch}
    (telling : tells watch.journal) (key : DelegateKey) (generation : UInt32) (items : Option UInt32) :
    tells (watch.flag key generation items).1 := by
  have marked := upheld.marks telling key generation
  cases items with
  | none => exact marked
  | some n => exact upheld.counts marked key n

/-- Whatever journal can be read of what is stored has the property. -/
def StoredTells {State : Type} [Ciborium] (stored : State → Option Bytes)
    (tells : MigrationJournal → Prop) (s : State) : Prop :=
  ∀ journal, storedJournal (stored s) = some journal → tells journal

section Programs

variable [Ciborium] {State : Type} {world : World Request Answer State} {stored : State → Option Bytes}
  {tells : MigrationJournal → Prop} {predecessors : List DelegateLineageEntry}
  {policy : SecretSelectionPolicy} {binding : JournalBinding} {journal : MigrationJournal}

theorem StoredTells.quiet (kept : JournalKept world stored) {s s' : State} {request : Request}
    {answer : Answer request} (told : StoredTells stored tells s) (made : world s request answer s')
    (unstoring : Unstoring request) : StoredTells stored tells s' := by
  have same := kept.reads unstoring.notStore made
  unfold StoredTells
  rw [same]
  exact told

variable (kept : JournalKept world stored) (upheld : Upheld tells)

include kept

theorem secures_reads {ε α : Type} {program : ExceptT ε (Program Request Answer) α}
    (uses : program.run.Uses ReadCall) :
    program.run.Secures world (StoredTells stored tells)
      (Either (fun _ => True) fun _ => True) := by
  refine (secures_of_uses uses fun _ _ _ _ read told made =>
    told.quiet kept made read.unstoring).mono ?_
  intro result _
  cases result <;> trivial

theorem secures_recordIntent (query : MarkerQuery) :
    (recordIntent query).run.Secures world (StoredTells stored tells)
      (Either (fun _ => True) fun _ => True) := by
  refine secures_run_call ?_
  intro s answer s' told made
  refine ⟨told.quiet kept made trivial, ?_⟩
  split
  · exact secures_run_throw trivial
  · refine secures_run_call ?_
    intro s answer s' told made
    refine ⟨told.quiet kept made trivial, ?_⟩
    split
    · exact secures_run_pure trivial
    · exact secures_run_throw trivial

include upheld

theorem secures_seedEntry (telling : tells journal) (e : DelegateLineageEntry) :
    (seedEntry policy journal e).run.Secures world (StoredTells stored tells)
      (Either tells fun _ => True) := by
  refine secures_run_call ?_
  intro s answer s' told made
  refine ⟨told.quiet kept made trivial, ?_⟩
  split
  · exact secures_run_pure (upheld.marks telling _ _)
  · exact secures_run_pure (upheld.resolves telling _ _ trivial)
  · split
    · refine secures_run_call ?_
      intro s answer s' told made
      refine ⟨told.quiet kept made trivial, ?_⟩
      split
      · refine secures_run_pure ?_
        unfold seedSealed
        split
        · exact upheld.resolves telling _ _ trivial
        · exact upheld.marks telling _ _
        · exact upheld.resolves telling _ _ trivial
      · exact secures_run_throw trivial
    · exact secures_run_pure (upheld.resolves telling _ _ trivial)
  · exact secures_run_pure telling
  · exact secures_run_throw trivial

theorem secures_freshJournal (predecessors : List DelegateLineageEntry)
    (policy : SecretSelectionPolicy) :
    (freshJournal predecessors policy).run.Secures world (StoredTells stored tells)
      (Either tells fun _ => True) :=
  secures_run_foldlM predecessors (upheld.starts predecessors)
    fun e _ _ telling => secures_seedEntry kept upheld telling e

variable [LawfulCiborium]

theorem guarded_upheld : JournalGuarded world (StoredTells stored tells) tells True where
  quiet := fun told made read => told.quiet kept made read.unstoring
  known := fun _ _ => .inr trivial
  loads := by
    intro s bytes s' found told made decoded
    apply told
    rw [← kept.loads made]
    exact storedJournal_of_decode decoded
  stores := by
    intro s merged answer s' telling told made
    refine ⟨?_, .inr trivial⟩
    intro journal found
    rcases kept.writes made with same | written
    · rw [same] at found
      exact told journal found
    · rw [written, storedJournal_encode] at found
      obtain rfl := Option.some.inj found
      exact telling
  merges := fun binding ours theirs => upheld.merges ours theirs binding
  rebuilds := fun _ lineage policy => secures_freshJournal kept upheld lineage policy

theorem secures_checkEntry (progress : StartProgress) (e : DelegateLineageEntry)
    (telling : tells progress.journal) :
    (checkEntry progress e).Secures world (StoredTells stored tells) fun progress =>
      tells progress.journal := by
  unfold checkEntry
  simp only
  split
  · refine (guarded_upheld kept upheld).read trivial ?_
    intro answer
    split
    · split
      · exact secures_pure (upheld.marks telling _ _)
      · exact secures_pure telling
    · exact secures_pure telling
  · exact secures_pure telling

theorem secures_start : (startJournal predecessors policy binding).run.Secures world
    (StoredTells stored tells) (Either (fun found => tells found.1.journal) fun _ => True) := by
  refine secures_startJournal (guarded_upheld kept upheld)
    (fun e _ progress telling => secures_checkEntry kept upheld progress e telling) ?_
  intro journal telling
  refine (secures_freshJournal kept upheld _ _).mono ?_
  intro result seeded
  cases result with
  | error => trivial
  | ok seeded' => exact upheld.merges seeded telling binding

/-- A begin ends with what a status is read of: the journal it found or stored. -/
theorem secures_begin {importRevision : UInt32} {means : JournalStatus → Prop}
    (status : ∀ journal unverified, tells journal →
      means (statusWithUnverified journal unverified predecessors (.new policy importRevision))) :
    (beginMigrationJournal predecessors policy importRevision).run.Secures world
      (StoredTells stored tells) (Either means fun _ => True) := by
  refine secures_run_bind (secures_start kept upheld) ?_
  rintro ⟨started, checks⟩ telling
  cases started with
  | existing journal => exact secures_run_pure (status _ _ telling)
  | new journal =>
    have fresh : tells journal := telling
    refine secures_run_bind (secures_run_lift
      (secures_storeMerged (guarded_upheld kept upheld) fresh _)) ?_
    rintro ⟨stored, after⟩ ⟨telling, -⟩
    cases stored with
    | error e => exact secures_run_throw trivial
    | ok => exact secures_run_pure (status _ _ telling)

theorem secures_flagAppImport (telling : tells journal) (query : MarkerQuery) (items : Option UInt32) :
    (flagAppImport journal binding query items).run.Secures world (StoredTells stored tells)
      (Either (fun _ => True) fun _ => True) := by
  have held : tells (⟨journal, none⟩ : JournalWatch).journal := telling
  have flagged := upheld.flag held query.predecessor query.generation items
  unfold flagAppImport
  simp only
  split
  · refine secures_run_bind (secures_run_lift
      (secures_storeMerged (guarded_upheld kept upheld) flagged _)) ?_
    rintro ⟨stored, after⟩ _
    cases stored with
    | error e => exact secures_run_throw trivial
    | ok =>
      simp only
      split
      · exact secures_run_pure trivial
      · exact secures_recordIntent kept query
  · exact secures_recordIntent kept query

theorem secures_importUnlessComplete (telling : tells journal) (query : MarkerQuery)
    (items : Option UInt32) :
    (importUnlessComplete journal binding query items).run.Secures world (StoredTells stored tells)
      (Either (fun _ => True) fun _ => True) := by
  unfold importUnlessComplete
  split
  · exact secures_run_pure trivial
  · refine secures_run_bind (secures_reads kept (uses_readMarker query)) ?_
    intro marker _
    split
    · split
      · refine secures_run_bind (secures_reads kept (uses_readMarker _)) ?_
        intro own _
        split
        · exact secures_run_pure trivial
        · exact secures_run_throw trivial
      · exact secures_run_pure trivial
    · exact secures_flagAppImport kept upheld telling query items

theorem secures_loadBegun : loadBegun.run.Secures world (StoredTells stored tells)
    (Either tells fun _ => True) := by
  refine secures_run_call ?_
  intro s answer s' told made
  refine ⟨told.quiet kept made trivial, ?_⟩
  split
  · exact secures_run_throw trivial
  · exact secures_run_throw trivial
  · split
    · rename_i decoded
      exact secures_run_pure ((guarded_upheld kept upheld).loads told made decoded)
    · exact secures_run_throw trivial
    · exact secures_run_throw trivial

theorem secures_note (predecessor : DelegateKey) (importRevision : UInt32) (items : Option UInt32) :
    (noteAppImportStarted predecessors predecessor policy importRevision items).run.Secures world
      (StoredTells stored tells) (Either (fun _ => True) fun _ => True) := by
  unfold noteAppImportStarted
  split
  · exact secures_run_throw trivial
  · refine secures_run_bind (secures_loadBegun kept upheld) ?_
    intro journal telling
    split
    · exact secures_run_throw trivial
    · refine secures_run_bind (secures_reads kept (uses_checkNewer ..)) ?_
      intro _ _
      exact secures_importUnlessComplete kept upheld (upheld.rebinds telling _) _ items

theorem StoredTells.begins {importRevision : UInt32} {s s' : State} {events : History}
    (told : StoredTells stored tells s)
    (run : Reaches world s (beginMigrationJournal predecessors policy importRevision).run events s') :
    StoredTells stored tells s' := by
  have begins : (beginMigrationJournal predecessors policy importRevision).run.Secures world
      (StoredTells stored tells) (Either (fun _ => True) fun _ => True) :=
    secures_begin kept upheld fun _ _ _ => trivial
  exact begins.reaches run told

theorem StoredTells.notes {predecessor : DelegateKey} {importRevision : UInt32}
    {items : Option UInt32} {s s' : State} {events : History} (told : StoredTells stored tells s)
    (run : Reaches world s
      (noteAppImportStarted predecessors predecessor policy importRevision items).run events s') :
    StoredTells stored tells s' :=
  (secures_note kept upheld predecessor importRevision items).reaches run told

theorem guarded_observer (journalKey : Bytes) :
    Guarded world (StoredTells stored tells) (journalObserver journalKey binding predecessors policy)
      fun watch => tells watch.journal where
  quiet := fun told made unstoring => told.quiet kept made unstoring
  told := by
    intro watch key generation items telling
    have flagged := upheld.flag telling key generation items
    simp only [journalObserver]
    split
    · exact secures_pure flagged
    · refine secures_bind (secures_storeMerged (guarded_upheld kept upheld) flagged _) ?_
      rintro ⟨stored, after⟩ ⟨telling, -⟩
      cases stored <;> exact secures_pure telling

/-- The end of a run, once the outcomes of its walk are on record. -/
theorem secures_conclude (importRevision : UInt32) (checks : MarkerChecks)
    {outcome : WalkState JournalWatch}
    (recorded : tells (recordOutcomes outcome policy (.new policy importRevision))) :
    (conclude predecessors policy (.new policy importRevision) checks outcome).Secures world
      (StoredTells stored tells) fun _ => True := by
  have checked : ∀ row ∈ outcome.results, ∀ progress : CheckProgress, tells progress.journal →
      (checkRow outcome checks.read progress row).Secures world (StoredTells stored tells)
        fun progress => tells progress.journal := by
    intro row _ progress telling
    unfold checkRow
    simp only
    split
    · exact secures_pure telling
    · split
      · exact secures_pure telling
      · split
        · refine (guarded_upheld kept upheld).read trivial ?_
          intro answer
          split
          · split
            · exact secures_pure (upheld.marks telling _ _)
            · exact secures_pure telling
          · split <;> exact secures_pure telling
        · exact secures_pure telling
  refine secures_bind (secures_foldlM outcome.results
    (show tells (⟨_, checks.unverified, []⟩ : CheckProgress).journal from recorded) checked) ?_
  intro progress telling
  refine secures_bind (secures_storeMerged (guarded_upheld kept upheld) telling _) ?_
  rintro ⟨stored, after⟩ _
  cases stored <;> exact secures_pure trivial

/-- A journaled run, stopped anywhere, where the outcomes it records uphold the property too. -/
theorem secures_journaled (journalKey : Bytes) (importRevision : UInt32)
    (records : ∀ outcome : WalkState JournalWatch, tells outcome.observed.journal →
      tells (recordOutcomes outcome policy (.new policy importRevision))) :
    (migrateDelegateSecretsJournaled journalKey importRevision predecessors policy).Secures world
      (StoredTells stored tells) fun _ => True := by
  refine secures_bind (secures_start kept upheld) ?_
  intro found telling
  cases found with
  | error e => exact secures_pure trivial
  | ok found =>
    obtain ⟨started, checks⟩ := found
    refine secures_bind (secures_establish (guarded_upheld kept upheld) telling) ?_
    rintro ⟨established, journal⟩ ⟨telling, -⟩
    cases established with
    | error e => exact secures_pure trivial
    | ok =>
      refine secures_bind (secures_walk (guarded_observer kept upheld journalKey) predecessors
        (show tells (⟨journal.rebind _, none⟩ : JournalWatch).journal from
          upheld.rebinds telling _)) ?_
      intro outcome telling
      exact secures_conclude kept upheld importRevision checks (records outcome telling)

end Programs

end FreenetMigrate.Migrate
