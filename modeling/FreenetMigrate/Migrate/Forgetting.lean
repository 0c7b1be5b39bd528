import FreenetMigrate.Migrate.Shortfall

namespace FreenetMigrate.Migrate

open Calls Journal MigrationJournal

def SaysData (outcome : WalkState JournalWatch) : PredecessorMigration → Prop
  | .noData _ _ => False
  | .alreadyMigrated key _ => key.bytes ∈ outcome.doneWithData ∨ outcome.Sealed key.bytes
  | _ => True

section Rows

variable {State : Type} {world : World Request Answer State} {s s' : State} {events : History}
  {observer : WalkObserver JournalWatch} {policy : SecretSelectionPolicy}
  {state state' : WalkState JournalWatch} {row : DelegateKey × UInt32} {report : PredecessorMigration}
  {importRevision : UInt32} {outcome : WalkState JournalWatch}

theorem RowRuns.doneWithData (runs : RowRuns observer policy world s state row events s' state')
    {key : Fixed 32} (before : key ∈ state.doneWithData) : key ∈ state'.doneWithData := by
  cases runs with
  | @dataSeal bridged =>
    cases bridged with
    | true => exact before
    | false => exact List.mem_cons_of_mem _ before
  | offered begins offers completes => cases completes <;> exact before
  | _ => exact before

theorem SaysData.mono (tells : SaysData state report)
    (runs : RowRuns observer policy world s state row events s' state') : SaysData state' report := by
  cases report with
  | noData => exact tells.elim
  | alreadyMigrated => exact tells.imp runs.doneWithData runs.sealed
  | _ => trivial

theorem SaysData.visits {visits : List Visit} (tells : SaysData state report)
    (walked : Visits observer policy world s state visits s' state') : SaysData state' report :=
  walked.invariant (fun _ state => SaysData state report)
    (fun _ _ round tells => tells.mono (rowRuns_of_executes round)) tells

theorem RowRuns.saysData (runs : RowRuns observer policy world s state row events s' state')
    (known : observer.resolvedWithData state.observed row.1 = none →
      knownData observer state row.1 = true)
    (pushed : state'.results = state.results ++ [report]) : SaysData state' report := by
  have tells : ∀ {other}, state'.results = state.results ++ [other] → SaysData state' other →
      SaysData state' report := by
    intro other same said
    exact report_unique same pushed ▸ said
  cases runs with
  | superseded | unreadable | flagRefused | silent | short | importFlagRefused | shortAfterFlag
  | beginRefused | notReadBack => exact tells rfl trivial
  | journalResolved => exact tells rfl (.inr (.inr (by simp [WalkState.push])))
  | emptySeal opens unknown =>
    rw [known opens.unresolved] at unknown
    cases unknown
  | @dataSeal bridged =>
    cases bridged with
    | true => exact tells rfl (.inr (.inl (List.mem_cons_self ..)))
    | false => exact tells rfl (.inl (List.mem_cons_self ..))
  | @offered asked items sawData _ _ _ _ _ _ _ _ _ begins offers completes =>
    cases completes with
    | flushFailed | unclean | sealRefused => exact tells rfl trivial
    | completed =>
      cases sawData with
      | true => exact tells rfl trivial
      | false =>
        obtain ⟨first, s₁, -, engages⟩ := begins.engages
        obtain ⟨s₂, opens⟩ := engages.on.opened
        have noPrior := engages.prior rfl
        rw [engages.on.same] at noPrior
        have unknown := (Bool.or_eq_false_iff.mp noPrior).2
        rw [known opens.unresolved] at unknown
        cases unknown

theorem not_noData_of_saysData {item : PredecessorMigration × RunOutcome}
    (member : item ∈ outcome.results.zip
      (resolveOutcomes outcome policy importRevision [] outcome.results))
    (tells : SaysData outcome item.1) : item.2 ≠ .resolved .noData := by
  intro resolves
  obtain ⟨before, after, known, split, same, sources⟩ := outcome_of_row member
  rw [same] at resolves
  obtain ⟨unlisted, ⟨-, wrong⟩ | ⟨unbridged, said⟩⟩ := resolved_of_row resolves
  · cases wrong
  · cases report : item.1 with
    | noData =>
      rw [report] at tells
      exact tells
    | alreadyMigrated =>
      rw [report] at tells said unlisted unbridged
      simp only [rowResolution] at said
      rcases tells with done | bridged | listed
      · rw [if_pos done] at said
        cases said
      · exact unbridged bridged
      · rw [PredecessorMigration.key] at unlisted
        rw [unlisted] at listed
        cases listed
    | imported | unresponsive | writerUnavailable =>
      rw [report] at said
      cases said
    | incomplete | superseded =>
      rw [report] at said
      simp only [rowResolution] at said
      split at said <;> cases said

/-- A row that supersedes its predecessor does so under a snapshot policy, and without its marker. -/
theorem unread_of_superseded {item : PredecessorMigration × RunOutcome}
    (bridged : ∀ key ∈ outcome.bridged, policy.legacyBridge = .atOrAboveGeneration)
    (member : item ∈ outcome.results.zip
      (resolveOutcomes outcome policy importRevision [] outcome.results))
    (superseded : item.2 = .resolved .supersededByAuthoritative) :
    isSnapshot policy = true ∧ walkReadIt outcome item.1 = false := by
  obtain ⟨before, after, known, split, same, sources⟩ := outcome_of_row member
  rw [same] at superseded
  obtain ⟨-, ⟨covered, -⟩ | ⟨-, said⟩⟩ := resolved_of_row superseded
  · exact ⟨isSnapshot_of_above (bridged _ covered), by simp [walkReadIt, covered]⟩
  · cases report : item.1 with
    | superseded =>
      rw [report] at said
      simp only [rowResolution] at said
      split at said
      · rename_i shown
        exact ⟨(Bool.and_eq_true_iff.mp shown).1, rfl⟩
      · cases said
    | alreadyMigrated =>
      rw [report] at said
      simp only [rowResolution] at said
      split at said <;> cases said
    | incomplete =>
      rw [report] at said
      simp only [rowResolution] at said
      split at said <;> cases said
    | imported | noData | unresponsive | writerUnavailable =>
      rw [report] at said
      cases said

end Rows

section Walk

variable [Ciborium] {State : Type} {world : World Request Answer State} {stored : State → Option Bytes}
  {p p' : Recorded Request Answer State} {events : History} {binding : JournalBinding}
  {key : Fixed 32} {start : Option Bytes} {entry : Option JournalState} {journalKey : Bytes}
  {predecessors : List DelegateLineageEntry} {policy : SecretSelectionPolicy}
  {state state' : WalkState JournalWatch} {predecessor : DelegateKey}

theorem known_of_state {watch : JournalWatch} {held : JournalState}
    (found : watch.journal.state predecessor.bytes = some held)
    (telling : importing ≤ rank held ∨ 0 < (memory held).1)
    (unresolved : watch.resolvedWithData predecessor = none) :
    watch.importStarted predecessor = true ∨ 0 < watch.journal.itemsSeen predecessor := by
  cases held with
  | resolved resolution =>
    have noData := unresolved_iff.mp unresolved resolution found
    cases resolution <;> simp [JournalResolution.isDataBearing, rank, importing, rank_le_iff, memory]
      at telling noData
  | pending attempts flag rejected absentStreak itemsSeen =>
    cases flag with
    | started =>
      left
      unfold JournalWatch.importStarted JournalWatch.stateOf
      rw [entry_state, found]
    | none =>
      right
      have counted : 0 < itemsSeen.toNat := by
        rcases telling with wrong | counted
        · simp [rank, importing, rank_le_iff] at wrong
        · exact ENat.natCast_lt_natCast.mp counted
      unfold MigrationJournal.itemsSeen
      rw [entry_state, found]
      exact UInt32.lt_iff_toNat_lt.mpr counted

/-- A walk knows of every predecessor that the journal counted items of before it. -/
theorem Carried.known (carried : Carried stored binding key start entry p state.observed.journal)
    (counted : 0 < (recalled (storedState binding start key)).1) (own : predecessor.bytes = key)
    (unresolved : state.observed.resolvedWithData predecessor = none) :
    knownData (journalObserver journalKey binding predecessors policy) state predecessor = true := by
  subst own
  have telling : ∃ held, state.observed.journal.state predecessor.bytes = some held ∧
      (importing ≤ rank held ∨ 0 < (memory held).1) := by
    rcases carried.steady with shown | ⟨ours, theirs⟩
    · obtain ⟨held, found, -, enough⟩ := importing_le_worth shown
      exact ⟨held, found, .inl enough⟩
    · have since := counted.trans_le (carried.always.now.start counted).1
      rw [theirs, ← ours, effectiveState_of_holds carried.holds] at since
      cases found : state.observed.journal.state predecessor.bytes with
      | none =>
        rw [found] at since
        exact absurd since (lt_irrefl _)
      | some held =>
        rw [found] at since
        exact ⟨held, rfl, .inr since⟩
  obtain ⟨held, found, telling⟩ := telling
  unfold knownData
  rcases known_of_state found telling unresolved with started | more
  · exact Bool.or_eq_true_iff.mpr (.inl started)
  · exact Bool.or_eq_true_iff.mpr (.inr (decide_eq_true more))

variable [LawfulCiborium]

theorem visits_saysData (kept : JournalKept world stored) {visits : List Visit}
    (carried : Carried stored binding key start entry p state.observed.journal)
    (counted : 0 < (recalled (storedState binding start key)).1)
    (walked : Visits (journalObserver journalKey binding predecessors policy) policy (recorded world) p
      state visits p' state') :
    ∀ visit ∈ visits, visit.report.key.bytes = key → SaysData state' visit.report := by
  induction walked with
  | nil => exact fun _ absent => nomatch absent
  | @cons _ _ _ _ _ _ visit visits round pushed rest ih =>
    have runs := rowRuns_of_executes round
    intro other member own
    rcases List.mem_cons.mp member with rfl | later
    · obtain ⟨report, results, reported, -⟩ := runs.reports
      have same := report_unique results pushed
      rw [← same, reported] at own
      have first := runs.saysData (fun unresolved => carried.known counted own unresolved) pushed
      exact first.visits rest
    · exact ih (runs.carried kept carried) other later own

end Walk

section Checking

variable {State : Type} {world : World Request Answer State} {s s' : State} {events : History}
  {outcome : WalkState JournalWatch} {read : List DelegateKey} {progress progress' : CheckProgress}
  {row : PredecessorMigration} {rows : List PredecessorMigration} {rounds : List History}
  {key : Fixed 32} {resolution : JournalResolution}

theorem RowChecks.settled (checks : RowChecks world s outcome read progress row events s' progress')
    (resolved : progress'.journal.state key = some (.resolved resolution))
    (noData : resolution.isDataBearing = false) :
    progress.journal.state key = some (.resolved resolution) := by
  cases checks with
  | started =>
    rw [state_markImportStarted] at resolved
    split at resolved
    · have shown := importing_le_startImport (progress.journal.current row.key.bytes)
      rw [Option.some.inj resolved] at shown
      rcases importing_le_rank_iff.mp shown with ⟨_, _, _, _, wrong⟩ | ⟨other, same, data⟩
      · cases wrong
      · rw [← JournalState.resolved.inj same, noData] at data
        cases data
    · exact resolved
  | reached | atStart | stands | agreed | unreadable => exact resolved

theorem checkRows_settled
    (checked : Iterates world (checkRow outcome read) s progress rows rounds s' progress')
    (resolved : progress'.journal.state key = some (.resolved resolution))
    (noData : resolution.isDataBearing = false) :
    progress.journal.state key = some (.resolved resolution) := by
  induction checked with
  | nil => exact resolved
  | cons round _ ih => exact (rowChecks_of_executes round).settled (ih resolved) noData

/-- Whoever's resolution without data stands after the checks, and was not read before them, had its
    own marker read, and no import under way there. -/
theorem checkRows_read
    (checked : Iterates world (checkRow outcome read) s progress rows rounds s' progress')
    (member : row ∈ rows) (unread : walkReadIt outcome row = false) (later : row.key ∉ read)
    (resolved : progress'.journal.state row.key.bytes = some (.resolved resolution))
    (noData : resolution.isDataBearing = false) :
    ∃ answer, ⟨.migrationMarker ⟨row.key, row.generation, .exactGenerationOnly⟩, answer⟩ ∈
      rounds.flatten ∧ answer ≠ .ok (some (.inProgress true)) := by
  induction checked with
  | nil => cases member
  | @cons _ _ _ progress _ _ first rest calls rounds round remaining ih =>
    rw [List.flatten_cons]
    rcases List.mem_cons.mp member with rfl | among
    · have now := checkRows_settled remaining resolved noData
      have checks := rowChecks_of_executes round
      have before := checks.settled now noData
      have silent : saysNothing progress.journal row.key = true := by
        unfold saysNothing
        rw [entry_state, before]
        simp [noData]
      cases checks with
      | reached walkRead =>
        rw [walkRead] at unread
        cases unread
      | atStart unread started => exact absurd started later
      | stands unread later speaks =>
        rw [silent] at speaks
        cases speaks
      | started =>
        rw [state_markImportStarted, if_pos rfl] at now
        have shown := importing_le_startImport (JournalState.resolved resolution)
        rw [current_of_state before] at now
        rw [Option.some.inj now] at shown
        cases resolution <;> simp [importing, rank, rank_le_iff, JournalResolution.isDataBearing]
          at shown noData
      | agreed unread later silent marked other =>
        exact ⟨_, List.mem_append_left _ (List.mem_singleton_self _), fun same => other (Except.ok.inj same)⟩
      | unreadable =>
        refine ⟨_, List.mem_append_left _ (List.mem_singleton_self _), ?_⟩
        intro same
        cases same
    · obtain ⟨answer, made, other⟩ := ih among resolved
      exact ⟨answer, List.mem_append_right _ made, other⟩

end Checking

/-- A run under a snapshot policy stores a predecessor as superseded, and has read the predecessor's
    own marker as anything but an import under way. -/
structure Forgets [Ciborium] (policy : SecretSelectionPolicy) (calls : History) (key : Fixed 32) :
    Prop where
  snapshot : isSnapshot policy = true
  superseded : ∃ bytes answer journal, ⟨.storeJournal bytes, answer⟩ ∈ calls ∧
    MigrationJournal.decode bytes = .ok journal ∧
    journal.state key = some (.resolved .supersededByAuthoritative)
  unstarted : ∃ predecessor generation answer, predecessor.bytes = key ∧
    ⟨.migrationMarker ⟨predecessor, generation, .exactGenerationOnly⟩, answer⟩ ∈ calls ∧
    answer ≠ .ok (some (.inProgress true))

section Concluding

variable [Ciborium] [LawfulCiborium] {State : Type} {world : World Request Answer State}
  {stored : State → Option Bytes} {p p' : Recorded Request Answer State} {events : History}
  {key : Fixed 32} {start : Option Bytes} {entry : Option JournalState}
  {predecessors : List DelegateLineageEntry} {policy : SecretSelectionPolicy} {importRevision : UInt32}
  {outcome : WalkState JournalWatch} {checks : MarkerChecks} {report : JournaledMigrationReport}

omit [LawfulCiborium] in
theorem Carried.data {binding : JournalBinding} {journal : MigrationJournal}
    (carried : Carried stored binding key start entry p journal)
    (counted : 0 < (recalled (storedState binding start key)).1) {resolution : JournalResolution}
    (resolved : journal.effectiveState key binding = some (.resolved resolution)) :
    resolution.isDataBearing = true := by
  rcases carried.steady with shown | ⟨ours, theirs⟩
  · exact not_noData_of_importing shown resolved
  · cases data : resolution.isDataBearing with
    | true => rfl
    | false =>
      have since := counted.trans_le (carried.always.now.start counted).1
      rw [theirs, ← ours, resolved] at since
      change 0 < (memory (.resolved resolution)).1 at since
      rw [memory_of_noData data] at since
      exact absurd since (lt_irrefl _)

omit [LawfulCiborium] in
theorem superseded_of_settled {rounds : List History} {progress : CheckProgress}
    (carried : Carried stored (.new policy importRevision) key start entry p outcome.observed.journal)
    (bridged : ∀ key ∈ outcome.bridged, policy.legacyBridge = .atOrAboveGeneration)
    (counted : 0 < (recalled (storedState (.new policy importRevision) start key)).1)
    (telling : ∀ row ∈ outcome.results, row.key.bytes = key → SaysData outcome row)
    (unread : ∀ read ∈ checks.read, read.bytes ≠ key)
    (checked : Iterates (recorded world) (checkRow outcome checks.read) p
      ⟨recordOutcomes outcome policy (.new policy importRevision), checks.unverified, []⟩
      outcome.results rounds p' progress)
    {resolution : JournalResolution}
    (ours : progress.journal.effectiveState key (.new policy importRevision) =
      some (.resolved resolution)) (noData : resolution.isDataBearing = false) :
    resolution = .supersededByAuthoritative ∧ isSnapshot policy = true ∧
      ∃ predecessor generation answer, predecessor.bytes = key ∧
        ⟨.migrationMarker ⟨predecessor, generation, .exactGenerationOnly⟩, answer⟩ ∈ rounds.flatten ∧
        answer ≠ .ok (some (.inProgress true)) := by
  obtain ⟨settled, same⟩ := effectiveState_resolved ours
  have recorded := checkRows_settled checked settled noData
  have admits : Admits (.new policy importRevision)
      (fun kind => (∀ resolution : JournalResolution, resolution.kind = kind →
          resolution.isDataBearing = true) ∨
        ∃ item ∈ outcome.results.zip
            (resolveOutcomes outcome policy importRevision [] outcome.results),
          item.1.key.bytes = key ∧ ∃ found, item.2 = .resolved found ∧ found.kind = kind)
      (recordOutcomes outcome policy (.new policy importRevision)) key := by
    refine admits_recordOutcomes bridged carried.holds ?_ ?_
    · intro held found
      left
      intro other kind
      rw [isDataBearing_of_kind kind]
      exact carried.data counted found
    · intro item member own found resolves
      exact .inr ⟨item, member, own, found, resolves, rfl⟩
  rcases admits.kind recorded same with data | ⟨item, member, own, found, resolves, kind⟩
  · rw [data resolution rfl] at noData
    cases noData
  · have among := (List.of_mem_zip member).1
    obtain rfl : found = .supersededByAuthoritative := by
      have without : found.isDataBearing = false := (isDataBearing_of_kind kind).trans noData
      cases found with
      | supersededByAuthoritative => rfl
      | noData => exact absurd resolves (not_noData_of_saysData member (telling _ among own))
      | imported | importedWithRejections => cases without
    obtain ⟨snapshot, notRead⟩ := unread_of_superseded bridged member resolves
    rw [← own] at settled
    obtain ⟨answer, made, other⟩ := checkRows_read checked among notRead
      (fun read => unread _ read own) settled noData
    refine ⟨?_, snapshot, item.1.key, item.1.generation, answer, own, made, other⟩
    cases resolution <;> first | rfl | cases kind

/-- What follows a walk remembers what it began with, or notes a predecessor as superseded. -/
theorem Concludes.remembers (kept : JournalKept world stored)
    (carried : Carried stored (.new policy importRevision) key start entry p outcome.observed.journal)
    (bridged : ∀ key ∈ outcome.bridged, policy.legacyBridge = .atOrAboveGeneration)
    (telling : 0 < (recalled (storedState (.new policy importRevision) start key)).1 →
      ∀ row ∈ outcome.results, row.key.bytes = key → SaysData outcome row)
    (unread : 0 < (recalled (storedState (.new policy importRevision) start key)).1 →
      ∀ read ∈ checks.read, read.bytes ≠ key)
    (concludes : Concludes (recorded world) p predecessors policy (.new policy importRevision) checks
      outcome events p' report) :
    p'.Always fun past state => Forgets policy past key ∨
      Remembers (.new policy importRevision) key start past (stored state) := by
  have settles : ∀ {rounds p₁ progress result after storing},
      Iterates (recorded world) (checkRow outcome checks.read) p
        ⟨recordOutcomes outcome policy (.new policy importRevision), checks.unverified, []⟩
        outcome.results rounds p₁ progress →
      Stores (recorded world) p₁ progress.journal (some (.new policy importRevision))
        (some (predecessors, policy)) storing p' result after →
      p'.Always fun past state => Forgets policy past key ∨
        Remembers (.new policy importRevision) key start past (stored state) := by
    intro rounds p₁ progress result after storing checked stores
    have loop := executes_foldlM.mpr ⟨rounds, rfl, checked⟩
    have reads := loop.only (uses_foldlM _ _ fun progress row => uses_checkRow progress row)
    have quiet := reads.mono fun _ => ReadCall.notStore
    have always := always_unstored kept carried.always loop.steps quiet
    have same := kept.recorded.steps loop.steps quiet
    have flagged := (checkRows_flags (.new policy importRevision) checked).1
    refine stores.remembers_or (fun past => Forgets policy past key) kept always ?_
    intro counted held found
    rcases recalled_le_joined (held.effectiveState key (.new policy importRevision))
      (progress.journal.effectiveState key (.new policy importRevision)) with
      most | ⟨resolution, ours, noData, replaced⟩
    · exact .inl most
    · obtain ⟨rfl, snapshot, predecessor, generation, answer, own, made, other⟩ :=
        superseded_of_settled carried bridged counted (telling counted) (unread counted) checked ours
          noData
      right
      intro reading given
      have merged : (progress.journal.mergeStored held
          (some (.new policy importRevision))).effectiveState key (.new policy importRevision) =
          some (.resolved .supersededByAuthoritative) := by
        rw [effectiveState_mergeStored, replaced, ours]
      refine ⟨snapshot, ⟨_, given, _, List.mem_append_right _ (List.mem_singleton_self _),
        MigrationJournal.decode_encode _, (effectiveState_resolved merged).1⟩, ?_⟩
      refine ⟨predecessor, generation, answer, own, ?_, other⟩
      rw [Recorded.history_steps loop.steps]
      exact List.mem_append_left _ (List.mem_append_left _ (List.mem_append_right _ made))
  cases concludes with
  | stored checked stores | refused checked stores => exact settles checked stores

end Concluding

end FreenetMigrate.Migrate
