import FreenetMigrate.Migrate.Settled
import FreenetMigrate.Migrate.Underway

namespace FreenetMigrate.Migrate

open Calls Journal MigrationJournal

section Outcomes

variable {outcome : WalkState JournalWatch} {policy : SecretSelectionPolicy} {importRevision : UInt32}
  {rows : List PredecessorMigration} {resolved : List (Option JournalResolution)}

/-- Where a row shows data to the rows after it: the journal had resolved it, or a newer seal covers
    it, or it is recorded so. -/
theorem shown_of_row {row : PredecessorMigration} {found : JournalResolution}
    (shown : (resolveRow outcome policy importRevision resolved row).2 = some found) :
    (∃ held, outcome.journalResolved.lookup row.key.bytes = some held) ∨
      row.key.bytes ∈ outcome.bridged ∨
      (resolveRow outcome policy importRevision resolved row).1 = .resolved found := by
  unfold resolveRow at shown ⊢
  split at shown
  · rename_i held lookup
    exact .inl ⟨held, lookup⟩
  · split at shown
    · rename_i covered
      exact .inr (.inl covered)
    · rename_i lookup uncovered
      split at shown
      · rename_i resolution resolves
        obtain rfl := Option.some.inj shown
        refine .inr (.inr ?_)
        simp only [if_neg uncovered]
      · split at shown <;> cases shown

theorem resolved_of_row {row : PredecessorMigration} {resolution : JournalResolution}
    (resolves : (resolveRow outcome policy importRevision resolved row).1 = .resolved resolution) :
    outcome.journalResolved.lookup row.key.bytes = none ∧
      ((row.key.bytes ∈ outcome.bridged ∧ resolution = .supersededByAuthoritative) ∨
        (row.key.bytes ∉ outcome.bridged ∧
          rowResolution outcome policy importRevision resolved row = some resolution)) := by
  unfold resolveRow at resolves
  split at resolves
  · cases resolves
  · rename_i lookup
    refine ⟨lookup, ?_⟩
    split at resolves
    · rename_i covered
      exact .inl ⟨covered, (RunOutcome.resolved.inj resolves).symm⟩
    · rename_i uncovered
      split at resolves
      · rename_i found
        rw [RunOutcome.resolved.inj resolves] at found
        exact .inr ⟨uncovered, found⟩
      · split at resolves <;> cases resolves

theorem admits_recordOutcomes {kinds : ResolutionKind → Prop} {key : Fixed 32}
    (bridged : ∀ key ∈ outcome.bridged, policy.legacyBridge = .atOrAboveGeneration)
    (holds : outcome.observed.journal.HoldsUnder (.new policy importRevision))
    (admits : Admits (.new policy importRevision) kinds outcome.observed.journal key)
    (said : ∀ item ∈ outcome.results.zip
      (resolveOutcomes outcome policy importRevision [] outcome.results), item.1.key.bytes = key →
        ∀ resolution, item.2 = .resolved resolution → kinds resolution.kind) :
    Admits (.new policy importRevision) kinds
      (recordOutcomes outcome policy (.new policy importRevision)) key := by
  have sound : ∀ item ∈ outcome.results.zip
      (resolveOutcomes outcome policy importRevision [] outcome.results),
      OutcomeHolds (.new policy importRevision) item.2 :=
    fun item member => holds_resolveOutcomes _ _ bridged _ (List.of_mem_zip member).2
  unfold recordOutcomes
  simp only [JournalBinding.new] at *
  revert said sound
  generalize outcome.results.zip
    (resolveOutcomes outcome policy importRevision [] outcome.results) = items
  generalize outcome.observed.journal = journal at *
  intro said sound
  induction items generalizing journal with
  | nil => exact admits
  | cons item rest ih =>
    have first := sound item (List.mem_cons_self ..)
    refine ih _ ?_ ?_ (fun other member => said other (List.mem_cons_of_mem _ member))
      (fun other member => sound other (List.mem_cons_of_mem _ member))
    · exact (grows_record _ _ _ first).holds holds
    · exact admits.record holds _ _ first (said item (List.mem_cons_self ..))

theorem copied_recordOutcomes {item : PredecessorMigration × RunOutcome}
    {resolution : JournalResolution}
    (bridged : ∀ key ∈ outcome.bridged, policy.legacyBridge = .atOrAboveGeneration)
    (holds : outcome.observed.journal.HoldsUnder (.new policy importRevision))
    (member : item ∈ outcome.results.zip
      (resolveOutcomes outcome policy importRevision [] outcome.results))
    (resolves : item.2 = .resolved resolution) (data : resolution.isDataBearing = true) :
    Copied (.new policy importRevision)
      (recordOutcomes outcome policy (.new policy importRevision)) item.1.key.bytes := by
  have sound : ∀ other ∈ outcome.results.zip
      (resolveOutcomes outcome policy importRevision [] outcome.results),
      OutcomeHolds (.new policy importRevision) other.2 :=
    fun other member => holds_resolveOutcomes _ _ bridged _ (List.of_mem_zip member).2
  have steps : ∀ (items : List (PredecessorMigration × RunOutcome)) (journal : MigrationJournal),
      (∀ other ∈ items, OutcomeHolds (.new policy importRevision) other.2) →
      Grows (.new policy importRevision) journal (items.foldl
        (fun journal row => journal.record row.1.key row.1.generation row.2) journal) :=
    fun items journal sound => Grows.foldl (fun other among journal =>
      grows_record _ _ _ (sound other among)) journal
  obtain ⟨before, after, split⟩ := List.append_of_mem member
  unfold recordOutcomes
  rw [show (JournalBinding.new policy importRevision).importRevision = importRevision from rfl, split,
    List.foldl_append, List.foldl_cons]
  rw [split] at sound
  have earlier := steps before outcome.observed.journal
    fun other among => sound other (List.mem_append_left _ among)
  have later := fun other among => sound other (List.mem_append_right _ (List.mem_cons_of_mem _ among))
  have here := sound item (List.mem_append_right _ (List.mem_cons_self ..))
  rw [resolves] at here ⊢
  have recorded := copied_record (earlier.holds holds) item.1.key item.1.generation here data
  exact recorded.grow (steps after _ later) ((grows_record _ _ _ here).holds (earlier.holds holds))

end Outcomes

def Precedes (predecessors : List DelegateLineageEntry) (newer older : DelegateKey × UInt32) : Prop :=
  [newer, older].Sublist (newestFirst predecessors)

theorem generation_le_of_precedes {predecessors : List DelegateLineageEntry}
    {newer older : DelegateKey × UInt32} (precedes : Precedes predecessors newer older) :
    older.2 ≤ newer.2 := by
  have ordered := (newestFirst_ordered predecessors).newest.sublist precedes
  exact List.rel_of_pairwise_cons ordered (List.mem_singleton_self older)

/-- What has to hold for a predecessor to be resolved in each way. A seal of the older import that
    was read, while whose it is could not be, counts as a newer generation's. -/
def Sound (policy : SecretSelectionPolicy) (journalKey : Bytes)
    (predecessors : List DelegateLineageEntry) (calls : History) (s : Successor)
    (withData : Fixed 32 → Prop) (row : DelegateKey × UInt32) : ResolutionKind → Prop
  | .imported => s.own row.1 row.2 = some (.done true)
  | .noData => s.own row.1 row.2 = some (.done false)
  | .importedWithRejections => TakenBut journalKey calls row.1
  | .supersededByAuthoritative => isSnapshot policy = true ∧
      ((∃ newer, Precedes predecessors newer row ∧ withData newer.1.bytes) ∨ s.NewerSeal row.2 ∨
        ∃ other, (other = row ∨ Precedes predecessors other row) ∧ SealUnread policy calls other)

section Rows

variable {policy : SecretSelectionPolicy} {journalKey : Bytes} {calls total : History}
  {predecessors : List DelegateLineageEntry} {s s' : Successor} {withData more : Fixed 32 → Prop}
  {row : DelegateKey × UInt32} {kind : ResolutionKind}

theorem isSnapshot_of_above (above : policy.legacyBridge = .atOrAboveGeneration) :
    isSnapshot policy = true := by
  cases policy with
  | unionAllGenerations => cases above
  | newestSnapshotWins | newestSnapshotWinsContinuePastUnresponsive => rfl

theorem Justified.sound (justified : Justified policy s row.1 row.2 kind) :
    Sound policy journalKey predecessors calls s withData row kind := by
  cases kind with
  | imported | noData => exact justified
  | importedWithRejections => exact justified.elim
  | supersededByAuthoritative => exact ⟨isSnapshot_of_above justified.1, .inr (.inl justified.2)⟩

theorem Sound.mono (sound : Sound policy journalKey predecessors calls s withData row kind)
    (implied : ∀ key, withData key → more key) :
    Sound policy journalKey predecessors calls s more row kind := by
  cases kind with
  | imported | noData | importedWithRejections => exact sound
  | supersededByAuthoritative =>
    obtain ⟨snapshot, ⟨newer, precedes, data⟩ | other⟩ := sound
    · exact ⟨snapshot, .inl ⟨newer, precedes, implied _ data⟩⟩
    · exact ⟨snapshot, .inr other⟩

theorem SameMarker.sound {key : DelegateKey} (same : SameMarker key.bytes s s')
    (generation : UInt32) :
    Sound policy journalKey predecessors calls s' withData (key, generation) kind =
      Sound policy journalKey predecessors calls s withData (key, generation) kind := by
  cases kind <;> simp only [Sound, Successor.NewerSeal, same.own, same.seals]

theorem TakenBut.within {key : DelegateKey} (takenBut : TakenBut journalKey calls key)
    (within : calls ⊆ total) (writes : ∀ item answer, ⟨.writeSecret item, answer⟩ ∈ total →
      item.predecessor = key → ⟨.writeSecret item, answer⟩ ∈ calls) :
    TakenBut journalKey total key := by
  obtain ⟨⟨secrets, fetched, offered⟩, taken, ⟨item, error, made, own⟩, flushed⟩ := takenBut
  refine ⟨⟨secrets, within fetched, ?_⟩, ?_, ⟨item, error, within made, own⟩, within flushed⟩
  · intro pair member unreserved other
    obtain ⟨item, answer, made, same⟩ := offered pair member unreserved other
    exact ⟨item, answer, within made, same⟩
  · intro item answer made own
    exact taken item answer (writes item answer made own) own

end Rows

section Walked

variable [Ciborium] {journalKey : Bytes} {predecessors : List DelegateLineageEntry}
  {policy : SecretSelectionPolicy} {importRevision : UInt32} {journal : MigrationJournal}
  {s s' : Successor} {outcome : WalkState JournalWatch} {visits : List Visit} {total : History}

variable (walked : Walked (.new policy importRevision) journalKey policy predecessors journal s visits
    s' outcome)
  (settled : ∀ visit ∈ visits, Settled (.new policy importRevision) policy journalKey s' outcome
    visit.calls visit.row visit.report)
include walked settled

/-- Where a row shows data to the rows after it, the journal has the data of its predecessor, or a
    seal of the older import covers it. -/
theorem Walked.shown {visit : Visit} (member : visit ∈ visits)
    {earlier : List (Option JournalResolution)} {found : JournalResolution}
    (shows : (resolveRow outcome policy importRevision earlier visit.report).2 = some found)
    (recorded : (visit.report, (resolveRow outcome policy importRevision earlier visit.report).1) ∈
      outcome.results.zip (resolveOutcomes outcome policy importRevision [] outcome.results))
    (data : found.isDataBearing = true) :
    Copied (.new policy importRevision) (recordOutcomes outcome policy (.new policy importRevision))
        visit.row.1.bytes ∨
      s'.NewerSeal visit.row.2 ∨ SealUnread policy visit.calls visit.row := by
  have key := congrArg DelegateKey.bytes (walked.report member).1
  rcases shown_of_row shows with ⟨held, lookup⟩ | covered | resolves
  · rw [key] at lookup
    have copied := (settled visit member).resolved held lookup
    exact .inl (copied.grow (grows_recordOutcomes walked.above) walked.holds)
  · rw [key] at covered
    obtain ⟨-, -, sealed⟩ := (settled visit member).bridged covered
    exact .inr sealed
  · rw [← key]
    exact .inl (copied_recordOutcomes walked.above walked.holds recorded resolves data)

theorem Walked.superseded (within : ∀ visit ∈ visits, visit.calls ⊆ total)
    (snapshot : isSnapshot policy = true) {first last : List Visit} {visit other : Visit}
    (parts : visits = first ++ visit :: last) (newer : other ∈ first)
    {earlier : List (Option JournalResolution)} {found : JournalResolution}
    (shows : (resolveRow outcome policy importRevision earlier other.report).2 = some found)
    (recorded : (other.report, (resolveRow outcome policy importRevision earlier other.report).1) ∈
      outcome.results.zip (resolveOutcomes outcome policy importRevision [] outcome.results))
    (data : found.isDataBearing = true) :
    Sound policy journalKey predecessors total s' (Copied (.new policy importRevision)
      (recordOutcomes outcome policy (.new policy importRevision))) visit.row
      .supersededByAuthoritative := by
  have member : other ∈ visits := parts ▸ List.mem_append_left _ newer
  have precedes : Precedes predecessors other.row visit.row := by
    rw [Precedes, ← walked.rows, parts]
    have pair : [other, visit].Sublist (first ++ visit :: last) :=
      (List.singleton_sublist.mpr newer).append
        (List.singleton_sublist.mpr (List.mem_cons_self ..))
    exact pair.map Visit.row
  refine ⟨snapshot, ?_⟩
  rcases walked.shown settled member shows recorded data with
    copied | ⟨sealed, above, later⟩ | ⟨sealed, err, unread⟩
  · exact .inl ⟨other.row, precedes, copied⟩
  · exact .inr (.inl ⟨sealed, above, lt_of_le_of_lt (generation_le_of_precedes precedes) later⟩)
  · have theirs := within other member
    exact .inr (.inr ⟨other.row, .inr precedes, theirs sealed, err, theirs unread⟩)

/-- A row that resolves its predecessor was answered, and what it says holds. -/
theorem Walked.sound (within : ∀ visit ∈ visits, visit.calls ⊆ total)
    (writes : ∀ visit ∈ visits, ∀ item answer, ⟨.writeSecret item, answer⟩ ∈ total →
      item.predecessor = visit.row.1 → ⟨.writeSecret item, answer⟩ ∈ visit.calls)
    {item : PredecessorMigration × RunOutcome} {resolution : JournalResolution}
    (member : item ∈ outcome.results.zip
      (resolveOutcomes outcome policy importRevision [] outcome.results))
    (resolves : item.2 = .resolved resolution) :
    gaveNone item.1 = false ∧ Sound policy journalKey predecessors total s'
      (Copied (.new policy importRevision)
        (recordOutcomes outcome policy (.new policy importRevision)))
      (item.1.key, item.1.generation) resolution.kind := by
  obtain ⟨before, after, known, split, same, sources⟩ := outcome_of_row member
  rw [same] at resolves
  obtain ⟨first, rest, parts, sameBefore, sameRest⟩ :=
    List.map_eq_append_iff.mp (walked.results.symm.trans split)
  obtain ⟨visit, last, rfl, here, -⟩ := List.map_eq_cons_iff.mp sameRest
  have among : visit ∈ visits := parts ▸ List.mem_append_right _ (List.mem_cons_self ..)
  obtain ⟨key, generation⟩ := walked.report among
  have settledHere := settled visit among
  have reports := settledHere.reports
  have calls := within visit among
  rw [← here] at resolves ⊢
  rw [key, generation]
  obtain ⟨lookup, ⟨covered, rfl⟩ | ⟨uncovered, said⟩⟩ := resolved_of_row resolves
  · rw [key] at covered
    obtain ⟨answered, above, newer | ⟨sealed, err, unread⟩⟩ := settledHere.bridged covered
    · exact ⟨answered, isSnapshot_of_above above, .inr (.inl newer)⟩
    · exact ⟨answered, isSnapshot_of_above above,
        .inr (.inr ⟨visit.row, .inl rfl, calls sealed, err, calls unread⟩)⟩
  · rw [key] at lookup uncovered
    cases report : visit.report with
    | unresponsive | writerUnavailable =>
      rw [report] at said
      cases said
    | imported | noData =>
      rw [report] at said reports
      obtain rfl := Option.some.inj said
      exact ⟨rfl, reports⟩
    | alreadyMigrated of =>
      rw [report] at said reports key
      obtain rfl : of = visit.row.1 := key
      simp only [rowResolution] at said
      rcases reports lookup uncovered with ⟨held, own⟩ | ⟨empty, own⟩
      · rw [if_pos held] at said
        obtain rfl := Option.some.inj said
        exact ⟨rfl, own⟩
      · rw [if_neg empty] at said
        obtain rfl := Option.some.inj said
        exact ⟨rfl, own⟩
    | incomplete of since tally failure =>
      rw [report] at said reports
      simp only [rowResolution] at said
      split at said
      · rename_i only
        obtain rfl := Option.some.inj said
        exact ⟨rfl, (reports only).within calls (writes visit among)⟩
      · cases said
    | superseded =>
      rw [report] at said
      simp only [rowResolution] at said
      split at said
      · rename_i newer
        obtain rfl := Option.some.inj said
        obtain ⟨snapshot, shown⟩ := Bool.and_eq_true_iff.mp newer
        obtain ⟨found, isKnown, data⟩ := List.any_eq_true.mp shown
        cases found with
        | none => cases data
        | some found =>
          rcases sources _ isKnown with start | ⟨earlier, row, among', recorded, from'⟩
          · cases start
          · rw [← sameBefore] at among'
            obtain ⟨other, inFirst, rfl⟩ := List.mem_map.mp among'
            exact ⟨rfl, walked.superseded settled within snapshot parts inFirst from'.symm recorded
              data⟩
      · cases said

end Walked

section Concluding

variable {s s' : Successor} {outcome : WalkState JournalWatch} {read : List DelegateKey}
  {rows : List PredecessorMigration} {rounds : List History} {progress progress' : CheckProgress}

theorem checkRows_flags {State : Type} {world : World Request Answer State} {s s' : State}
    (binding : JournalBinding)
    (checked : Iterates world (checkRow outcome read) s progress rows rounds s' progress') :
    Grows binding progress.journal progress'.journal ∧
      ∀ kinds key, Admits binding kinds progress.journal key →
        Admits binding kinds progress'.journal key := by
  induction checked with
  | nil => exact ⟨.refl _, fun _ _ admits => admits⟩
  | cons round _ ih =>
    obtain ⟨grown, kept⟩ := ih
    cases rowChecks_of_executes round with
    | started =>
      refine ⟨(grows_markImportStarted _ _ _).trans grown, ?_⟩
      exact fun kinds key admits => kept kinds key (admits.markImportStarted _ _)
    | reached | atStart | stands | agreed | unreadable => exact ⟨grown, kept⟩

variable [Ciborium] [LawfulCiborium] {events : History} {predecessors : List DelegateLineageEntry}
  {policy : SecretSelectionPolicy} {importRevision : UInt32} {checks : MarkerChecks}
  {report : JournaledMigrationReport} {key : Fixed 32}

/-- What is stored after a walk resolves a predecessor as the walk's outcomes do, or as it was
    already resolved. -/
theorem Concludes.admits
    (concludes : Concludes successorWorld s predecessors policy (.new policy importRevision) checks
      outcome events s' report)
    (kinds : (Fixed 32 → Prop) → ResolutionKind → Prop)
    (bridged : ∀ key ∈ outcome.bridged, policy.legacyBridge = .atOrAboveGeneration)
    (holds : outcome.observed.journal.HoldsUnder (.new policy importRevision))
    (mono : ∀ fewer more : Fixed 32 → Prop, (∀ key, fewer key → more key) →
      ∀ kind, kinds fewer kind → kinds more kind)
    (readable : Readable s)
    (standing : Standing (.new policy importRevision) (kinds fun _ => False) key s
      outcome.observed.journal)
    (said : ∀ item ∈ outcome.results.zip
        (resolveOutcomes outcome policy importRevision [] outcome.results),
      item.1.key.bytes = key → ∀ resolution, item.2 = .resolved resolution →
        kinds (Copied (.new policy importRevision)
          (recordOutcomes outcome policy (.new policy importRevision))) resolution.kind) :
    SameMarker key s s' ∧ report.report = outcome.results ∧
      ∀ stored, storedJournal s'.journal = some stored → Admits (.new policy importRevision)
        (kinds (ResolvedWithData (.new policy importRevision) s'.journal)) stored key := by
  have settles : ∀ {rounds s₁ progress result after storing},
      Iterates successorWorld (checkRow outcome checks.read) s
        ⟨recordOutcomes outcome policy (.new policy importRevision), checks.unverified, []⟩
        outcome.results rounds s₁ progress →
      Stores successorWorld s₁ progress.journal (some (.new policy importRevision))
        (some (predecessors, policy)) storing s' result after →
      SameMarker key s s' ∧ ∀ stored, storedJournal s'.journal = some stored →
        Admits (.new policy importRevision)
          (kinds (ResolvedWithData (.new policy importRevision) s'.journal)) stored key := by
    intro rounds s₁ progress result after storing checked stores
    have loop := executes_foldlM.mpr ⟨rounds, rfl, checked⟩
    have reads := loop.only (uses_foldlM _ _ fun progress row => uses_checkRow progress row)
    have kept := journalKept_successorWorld.steps loop.steps (reads.mono fun _ => ReadCall.notStore)
    have same : SameMarker key s s₁ :=
      sameMarker_of_steps loop.steps (reads.mono fun _ => ReadCall.notMarking)
    obtain ⟨flagged, flags⟩ := checkRows_flags (.new policy importRevision) checked
    refine ⟨same.trans (stores.same key), ?_⟩
    have grown := flagged.trans (stores.grows journalKept_successorWorld)
    have recorded := (grows_recordOutcomes bridged).holds holds
    rcases stores.stored_cases journalKept_successorWorld with ⟨unmoved, -⟩ | ⟨written, -⟩
    · intro stored found
      rw [unmoved, kept] at found
      exact (standing.stored stored found).mono (mono _ _ fun _ => False.elim)
    · -- What the journal has with its data once the outcomes are recorded, it has when it is stored.
      have shown : ∀ key, Copied (.new policy importRevision)
          (recordOutcomes outcome policy (.new policy importRevision)) key →
          ResolvedWithData (.new policy importRevision) s'.journal key := by
        intro key copied
        obtain ⟨resolution, resolved, data⟩ := copied_iff.mp (copied.grow grown recorded)
        exact ⟨after, resolution, by rw [written, storedJournal_encode], resolved, data⟩
      have before := (standing.ours).mono (mono _ (Copied (.new policy importRevision)
        (recordOutcomes outcome policy (.new policy importRevision))) fun _ => False.elim)
      have outcomes := flags _ _ (admits_recordOutcomes bridged holds before said)
      have stands : Standing (.new policy importRevision)
          (kinds (ResolvedWithData (.new policy importRevision) s'.journal)) key s₁
          progress.journal := by
        refine ⟨outcomes.mono (mono _ _ shown), ?_⟩
        rw [kept]
        exact fun stored found => (standing.stored stored found).mono (mono _ _ fun _ => False.elim)
      refine (stores.standing stands ?_).stored
      intro unreadable
      rw [Readable, ← kept, unreadable] at readable
      cases readable
  cases concludes with
  | stored checked stores =>
    obtain ⟨same, admits⟩ := settles checked stores
    exact ⟨same, rfl, admits⟩
  | refused checked stores =>
    obtain ⟨same, admits⟩ := settles checked stores
    exact ⟨same, rfl, admits⟩

end Concluding

section Stages

variable [Ciborium] {State : Type} {world : World Request Answer State} {s s' : State}
  {events : History} {predecessors : List DelegateLineageEntry} {policy : SecretSelectionPolicy}
  {binding : JournalBinding} {journal after : MigrationJournal} {result : Except JournalError Unit}

theorem Stores.calls {rebuild : Option (List DelegateLineageEntry × SecretSelectionPolicy)}
    (stores : Stores world s journal (some binding) rebuild events s' result after) :
    Only JournalCall events := by
  cases stores with
  | refused _ reads => exact reads.mono fun _ => ReadCall.journalCall
  | wrote _ reads =>
    have before := reads.mono fun _ => ReadCall.journalCall
    simp [before, JournalCall]

theorem Establishes.calls {started : Started}
    (establishes : Establishes world s predecessors policy binding started events s' result journal) :
    Only JournalCall events := by
  cases establishes with
  | existing => exact only_nil
  | new stores => exact stores.calls

theorem Concludes.calls {checks : MarkerChecks} {outcome : WalkState JournalWatch}
    {report : JournaledMigrationReport}
    (concludes : Concludes world s predecessors policy binding checks outcome events s' report) :
    Only JournalCall events := by
  cases concludes with
  | stored checked stores | refused checked stores =>
    have loop := executes_foldlM.mpr ⟨_, rfl, checked⟩
    have reads := loop.only (uses_foldlM _ _ fun progress row => uses_checkRow progress row)
    exact only_append.mpr ⟨reads.mono fun _ => ReadCall.journalCall, stores.calls⟩

end Stages

section Run

variable [Ciborium] [LawfulCiborium] {s s₁ s' : Successor} {events : History} {journalKey : Bytes}
  {predecessors : List DelegateLineageEntry} {policy : SecretSelectionPolicy} {importRevision : UInt32}
  {report : JournaledMigrationReport} {e : DelegateLineageEntry} {journal : MigrationJournal}
  {visits : List Visit} {outcome : WalkState JournalWatch} {total : History}

omit [LawfulCiborium] in
theorem Walked.once
    (walked : Walked (.new policy importRevision) journalKey policy predecessors journal s visits s'
      outcome) (distinct : (predecessors.map (·.delegateKey)).Nodup) :
    (visits.map fun visit => visit.row.1.bytes).Nodup := by
  have perm := (newestFirst_ordered predecessors).perm.map fun row => row.1.bytes
  rw [← walked.rows, List.map_map, List.map_map] at perm
  exact perm.nodup_iff.mpr distinct

omit [LawfulCiborium] in
/-- Of everything a run writes, what it writes for one predecessor it writes in its visit. -/
theorem Walked.writes
    (walked : Walked (.new policy importRevision) journalKey policy predecessors journal s visits s'
      outcome) (once : (visits.map fun visit => visit.row.1.bytes).Nodup)
    (inVisits : ∀ item answer, ⟨.writeSecret item, answer⟩ ∈ total →
      ⟨.writeSecret item, answer⟩ ∈ (visits.map Visit.calls).flatten) :
    ∀ visit ∈ visits, ∀ item answer, ⟨.writeSecret item, answer⟩ ∈ total →
      item.predecessor = visit.row.1 → ⟨.writeSecret item, answer⟩ ∈ visit.calls := by
  intro visit member item answer made own
  obtain ⟨other, otherMember, here⟩ := mem_visitCalls.mp (inVisits item answer made)
  have theirs := (visits_calls quiet_journalObserver walked.visited other otherMember _ here).1
  obtain rfl : other = visit :=
    List.inj_on_of_nodup_map once otherMember member (by rw [← theirs, ← own])
  exact here

omit [LawfulCiborium] in
theorem Walked.settled
    (walked : Walked (.new policy importRevision) journalKey policy predecessors journal s visits s'
      outcome) (once : (visits.map fun visit => visit.row.1.bytes).Nodup) :
    ∀ visit ∈ visits, Settled (.new policy importRevision) policy journalKey s' outcome visit.calls
      visit.row visit.report := by
  have untouched : ∀ visit ∈ visits, (WalkState.start (⟨journal.rebind (.new policy importRevision),
      none⟩ : JournalWatch)).Untouched visit.row.1.bytes := by
    intro visit _
    exact ⟨List.not_mem_nil, List.not_mem_nil, rfl⟩
  exact visits_settled walked.visited (holdsUnder_rebind journal _) once untouched

omit [LawfulCiborium] in
theorem Walked.own_row
    (walked : Walked (.new policy importRevision) journalKey policy predecessors journal s visits s'
      outcome) (once : (visits.map fun visit => visit.row.1.bytes).Nodup) {visit : Visit}
    (among : visit ∈ visits) :
    ∀ row ∈ outcome.results, row.key.bytes = visit.row.1.bytes → row = visit.report := by
  intro row reported same
  rw [walked.results] at reported
  obtain ⟨other, visited, rfl⟩ := List.mem_map.mp reported
  rw [(walked.report visited).1] at same
  rw [List.inj_on_of_nodup_map once visited among same]

omit [LawfulCiborium] in
/-- What the rows of a predecessor are resolved to is sound, and nothing where it gave no answer. -/
theorem Walked.own_outcomes
    (walked : Walked (.new policy importRevision) journalKey policy predecessors journal s visits s'
      outcome) (once : (visits.map fun visit => visit.row.1.bytes).Nodup)
    (within : ∀ visit ∈ visits, visit.calls ⊆ total)
    (inVisits : ∀ item answer, ⟨.writeSecret item, answer⟩ ∈ total →
      ⟨.writeSecret item, answer⟩ ∈ (visits.map Visit.calls).flatten)
    {visit : Visit} (among : visit ∈ visits) {item : PredecessorMigration × RunOutcome}
    (outcomes : item ∈ outcome.results.zip
      (resolveOutcomes outcome policy importRevision [] outcome.results))
    (same : item.1.key.bytes = visit.row.1.bytes) {resolution : JournalResolution}
    (resolves : item.2 = .resolved resolution) :
    gaveNone visit.report = false ∧ Sound policy journalKey predecessors total s'
      (Copied (.new policy importRevision)
        (recordOutcomes outcome policy (.new policy importRevision)))
      visit.row resolution.kind := by
  have writes := walked.writes once inVisits
  obtain ⟨answered, sound⟩ := walked.sound (walked.settled once) within writes outcomes resolves
  obtain ⟨key, generation⟩ := walked.report among
  rw [walked.own_row once among _ (List.of_mem_zip outcomes).1 same] at answered sound
  rw [key, generation] at sound
  exact ⟨answered, sound⟩

omit [Ciborium] [LawfulCiborium] in
theorem written_in_visits {starting storing walking ending : History} (reads : Only ReadCall starting)
    (storingCalls : Only JournalCall storing) (endingCalls : Only JournalCall ending)
    {item : RecoveredSecret} {answer : ItemWrite}
    (made : ⟨.writeSecret item, answer⟩ ∈ starting ++ storing ++ walking ++ ending) :
    ⟨.writeSecret item, answer⟩ ∈ walking := by
  rcases List.mem_append.mp made with made | made
  · rcases List.mem_append.mp made with made | made
    · rcases List.mem_append.mp made with made | made
      · exact (reads _ made).elim
      · exact (storingCalls _ made).elim
    · exact made
  · exact (endingCalls _ made).elim

theorem standing_of_established {started : Started} {checks : MarkerChecks} {starting storing : History}
    {s₂ : Successor} (steps : Steps successorWorld s starting s₁) (reads : Only ReadCall starting)
    (starts : Starts successorWorld s predecessors policy (.new policy importRevision) starting s₁
      started checks)
    (establishes : Establishes successorWorld s₁ predecessors policy (.new policy importRevision) started
      storing s₂ (.ok ()) journal)
    (only : ∀ other ∈ predecessors, other.delegateKey = e.delegateKey → other = e)
    (unresolved : Unresolved (.new policy importRevision) s e.delegateKey) :
    Readable s₂ ∧ Standing (.new policy importRevision) (Seeded policy s₂ (lineageKey e) e.generation)
        e.delegateKey s₂ (journal.rebind (.new policy importRevision)) ∧
      storedRank (.new policy importRevision) s₂.journal e.delegateKey =
        (journal.rebind (.new policy importRevision)).effectiveRank (.new policy importRevision)
          e.delegateKey := by
  have stored := storedJournal_of_established journalKept_successorWorld starts reads steps establishes
  obtain ⟨rfl, -⟩ := starts.knows
  have standing := establishes.standing only (starts.admits only unresolved) unresolved
  have same : SameMarker (lineageKey e).bytes _ s₂ := establishes.same e.delegateKey
  refine ⟨?_, ?_, ?_⟩
  · rw [Readable, stored]
    rfl
  · rw [same.seeded]
    exact ⟨standing.ours.rebind, standing.stored⟩
  · rw [storedRank, stored, effectiveRank_rebind]

/-- What a run leaves stored resolves a predecessor soundly, and not at all where it gave no answer. -/
theorem JournaledRuns.sound
    (runs : JournaledRuns successorWorld s journalKey predecessors policy (.new policy importRevision)
      events s' report)
    (distinct : (predecessors.map (·.delegateKey)).Nodup) (member : e ∈ predecessors)
    (unresolved : Unresolved (.new policy importRevision) s e.delegateKey) :
    ∀ stored, storedJournal s'.journal = some stored → Admits (.new policy importRevision)
      (fun kind => (∀ error, .unresponsive (lineageKey e) e.generation error ∉ report.report) ∧
        Sound policy journalKey predecessors events s'
          (ResolvedWithData (.new policy importRevision) s'.journal) (lineageKey e, e.generation) kind)
      stored e.delegateKey := by
  have only : ∀ other ∈ predecessors, other.delegateKey = e.delegateKey → other = e :=
    fun other listed same => List.inj_on_of_nodup_map distinct listed member same
  have silent : ∀ error message,
      .unresponsive (lineageKey e) e.generation error ∉ (refused predecessors message).report := by
    intro error message listed
    obtain ⟨row, -, same⟩ := List.mem_map.mp listed
    cases same
  cases runs with
  | notStarted steps reads =>
    intro stored found
    rw [journalKept_successorWorld.steps steps (reads.mono fun _ => ReadCall.notStore)] at found
    exact (unresolved stored found).mono fun _ => False.elim
  | notEstablished steps reads starts establishes =>
    obtain ⟨rfl, -⟩ := starts.knows
    have standing := establishes.standing only (starts.admits only unresolved) unresolved
    intro stored found
    refine (standing.stored stored found).mono fun kind seeded => ⟨fun error => silent error _, ?_⟩
    have same : SameMarker (lineageKey e).bytes _ s' := establishes.same e.delegateKey
    rw [same.sound]
    exact seeded.justified.sound
  | @walked started checks starting storing walking ending _ s₂ s₃ _ journal outcome _ steps reads
      starts establishes walked concludes =>
    obtain ⟨readable, start, ranks⟩ :=
      standing_of_established steps reads starts establishes only unresolved
    obtain ⟨visits, rows, rfl, results, visited⟩ := visits_of_walk walked
    have walked : Walked (.new policy importRevision) journalKey policy predecessors journal s₂ visits
      s₃ outcome := ⟨rows, results, visited⟩
    have once := walked.once distinct
    have listed : (lineageKey e, e.generation) ∈ visits.map Visit.row := by
      rw [rows, (newestFirst_ordered predecessors).perm.mem_iff]
      exact List.mem_map_of_mem member
    obtain ⟨⟨row, calls, answer⟩, among, rfl⟩ := List.mem_map.mp listed
    have justified := visits_justified visited once readable among start ranks
    obtain ⟨nowReadable, -⟩ := visits_standing visited readable start
    have storingCalls := establishes.calls
    have endingCalls := concludes.calls
    generalize whole : starting ++ storing ++ (visits.map Visit.calls).flatten ++ ending = total
    have within : ∀ visit ∈ visits, visit.calls ⊆ total := by
      intro visit visited call made
      rw [← whole]
      have inVisits := mem_visitCalls.mpr ⟨visit, visited, made⟩
      exact List.mem_append_left _ (List.mem_append_right _ inVisits)
    have inVisits : ∀ item answer, ⟨.writeSecret item, answer⟩ ∈ total →
        ⟨.writeSecret item, answer⟩ ∈ (visits.map Visit.calls).flatten := by
      intro item answer made
      exact written_in_visits reads storingCalls endingCalls (whole ▸ made)
    obtain ⟨same, reported, admits⟩ := concludes.admits
      (fun withData kind => gaveNone answer = false ∧
        Sound policy journalKey predecessors total s₃ withData (lineageKey e, e.generation) kind)
      walked.above walked.holds
      (fun _ _ implied kind sound => ⟨sound.1, sound.2.mono implied⟩) nowReadable
      (justified.mono fun kind holds => ⟨holds.1, holds.2.sound⟩)
      (fun _ outcomes same _ resolves =>
        walked.own_outcomes once within inVisits among outcomes same resolves)
    intro stored found
    refine (admits stored found).mono fun kind holds => ⟨?_, ?_⟩
    · intro error listed
      rw [reported] at listed
      have own : _ = answer := walked.own_row once among _ listed rfl
      rw [← own] at holds
      cases holds.1
    · have same : SameMarker (lineageKey e).bytes s₃ s' := same
      rw [same.sound]
      exact holds.2

/-- A journaled run resolves a predecessor only as its own marker, its own import or a newer
    generation justifies, and never one that gave no answer. -/
theorem resolution_sound
    (run : Executes successorWorld s
      (migrateDelegateSecretsJournaled journalKey importRevision predecessors policy) events s' report)
    (distinct : (predecessors.map (·.delegateKey)).Nodup) (member : e ∈ predecessors)
    (unresolved : Unresolved (.new policy importRevision) s e.delegateKey)
    {stored : MigrationJournal} (found : storedJournal s'.journal = some stored)
    {resolution : JournalResolution}
    (resolved : stored.effectiveState e.delegateKey (.new policy importRevision) =
      some (.resolved resolution)) :
    (∀ error, .unresponsive (lineageKey e) e.generation error ∉ report.report) ∧
      Sound policy journalKey predecessors events s'
        (ResolvedWithData (.new policy importRevision) s'.journal) (lineageKey e, e.generation)
        resolution.kind :=
  (journaledRuns_of_executes run).sound distinct member unresolved stored found resolution resolved

end Run

theorem unresolved_of_state [Ciborium] {binding : JournalBinding} {s : Successor} {key : Fixed 32}
    {state : Option JournalState}
    (held : (storedJournal s.journal).bind (fun journal => journal.effectiveState key binding) = state)
    (other : ∀ resolution, state ≠ some (.resolved resolution)) : Unresolved binding s key := by
  intro stored found resolution resolved
  rw [found, Option.bind_some, resolved] at held
  exact other resolution held.symm

def sealedUnlisted [Ciborium] (journal : MigrationJournal) : Successor :=
  ⟨fun _ => some true, fun _ => none, [], some journal.encode⟩

open scoped Cbor in
theorem unresolved_sealedUnlisted : Unresolved (.new .newestSnapshotWins 0)
    (sealedUnlisted (newPending [sampleEntry 1])) (sampleEntry 1).delegateKey := by
  have pending : (storedJournal (sealedUnlisted (newPending [sampleEntry 1])).journal).bind
      (fun journal => journal.effectiveState (sampleEntry 1).delegateKey
        (.new .newestSnapshotWins 0)) = some (.pending 0 .none 0 0 0) := by
    decide +kernel
  exact unresolved_of_state pending nofun

open scoped Cbor in
theorem resolution_sound_imported :
    let final := (sampleUnderway [sampleEntry 1]).run (contractHandler fun _ => true)
      (sealedUnlisted (newPending [sampleEntry 1]))
    (∀ error, .unresponsive (lineageKey (sampleEntry 1)) 1 error ∉ final.2.2.report) ∧
      Sound .newestSnapshotWins MIGRATION_JOURNAL_KEY [sampleEntry 1] final.1 final.2.1
        (ResolvedWithData (.new .newestSnapshotWins 0) final.2.1.journal)
        (lineageKey (sampleEntry 1), 1) .imported := by
  intro final
  have resolved : (storedJournal final.2.1.journal).bind (fun journal =>
      journal.effectiveState (sampleEntry 1).delegateKey (.new .newestSnapshotWins 0)) =
        some (.resolved .imported) := by
    decide +kernel
  obtain ⟨stored, found, resolved⟩ := Option.bind_eq_some_iff.mp resolved
  have distinct : ([sampleEntry 1].map (·.delegateKey)).Nodup := List.nodup_singleton _
  exact resolution_sound (executes_run (successorWorld_contractHandler fun _ => true) _) distinct
    (List.mem_singleton_self _) unresolved_sealedUnlisted found resolved

open scoped Cbor in
/-- A data seal is read, and then not read for its exact generation: with no newer predecessor and no
    seal of the older import, the predecessor is recorded as superseded. -/
theorem unread_seal_supersedes :
    let final := (sampleUnderway [sampleEntry 1]).run
      (contractHandler fun query => query.legacyBridge ≠ .exactGenerationOnly)
      (sealedUnlisted (newPending [sampleEntry 1]))
    Executes successorWorld (sealedUnlisted (newPending [sampleEntry 1]))
        (sampleUnderway [sampleEntry 1]) final.1 final.2.1 final.2.2 ∧
      Unresolved (.new .newestSnapshotWins 0) (sealedUnlisted (newPending [sampleEntry 1]))
        (sampleEntry 1).delegateKey ∧
      (storedJournal final.2.1.journal).bind (fun journal =>
        journal.effectiveState (sampleEntry 1).delegateKey (.new .newestSnapshotWins 0)) =
          some (.resolved .supersededByAuthoritative) ∧
      ¬ ((∃ newer ∈ [sampleEntry 1], (sampleEntry 1).generation < newer.generation ∧
          ResolvedWithData (.new .newestSnapshotWins 0) final.2.1.journal newer.delegateKey) ∨
        final.2.1.NewerSeal (sampleEntry 1).generation) := by
  intro final
  refine ⟨executes_run (successorWorld_contractHandler _) _, unresolved_sealedUnlisted,
    by decide +kernel, ?_⟩
  rintro (⟨newer, listed, older, -⟩ | ⟨sealed, listed, -⟩)
  · rw [List.mem_singleton.mp listed] at older
    exact lt_irrefl _ older
  · have none : final.2.1.seals = [] := by decide +kernel
    rw [none] at listed
    cases listed

end FreenetMigrate.Migrate
