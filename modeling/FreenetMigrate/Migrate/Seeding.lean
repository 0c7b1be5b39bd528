import FreenetMigrate.Migrate.Heeding

namespace FreenetMigrate.Migrate

open Calls Journal MigrationJournal

section Reads

variable {s s' : Successor} {events : History}

theorem own_read {key : DelegateKey} {generation : UInt32} {bridge : LegacyBridge}
    {marker : Option MigrationMarker} (read : successorWorld s
      (.migrationMarker ⟨key, generation, bridge⟩) (.ok marker) s')
    (own : bridge = .exactGenerationOnly ∨ marker ≠ some (.done true)) :
    s.own key generation = marker ∧ s' = s := by
  obtain ⟨found, rfl⟩ := read
  refine ⟨?_, rfl⟩
  rcases own with rfl | other
  · exact found.symm
  · rw [found] at other ⊢
    exact Successor.own_of_marker other

theorem read_same {key : DelegateKey} {generation : UInt32} {bridge : LegacyBridge}
    {answer : Except String (Option MigrationMarker)} (read : successorWorld s
      (.migrationMarker ⟨key, generation, bridge⟩) answer s') : s' = s := by
  cases answer with
  | error e => exact read
  | ok marker => exact read.2

end Reads

section Seeding

variable {s s' : Successor} {events : History} {policy : SecretSelectionPolicy}
  {importRevision : UInt32} {journal seeded : MigrationJournal} {e : DelegateLineageEntry}

theorem holds_superseded (above : policy.legacyBridge = .atOrAboveGeneration) :
    Holds (.new policy importRevision) (.resolved .supersededByAuthoritative) := by
  cases policy with
  | unionAllGenerations => cases above
  | newestSnapshotWins | newestSnapshotWinsContinuePastUnresponsive => rfl

theorem grows_seedSealed (above : policy.legacyBridge = .atOrAboveGeneration)
    (marker : Option MigrationMarker) :
    Grows (.new policy importRevision) journal (seedSealed journal e marker) := by
  unfold seedSealed
  split
  · exact grows_record _ _ _ rfl
  · exact grows_markImportStarted ..
  · exact grows_record _ _ _ (holds_superseded above)

/-- Reading one marker into a journal: whatever it shows of an import, the journal then shows. -/
theorem Seeds.told (seeds : Seeds successorWorld s policy journal e events s' seeded)
    (holds : journal.HoldsUnder (.new policy importRevision)) :
    s' = s ∧ Grows (.new policy importRevision) journal seeded ∧
      Learnt (.new policy importRevision) s seeded events (lineageKey e) e.generation := by
  cases seeds with
  | started read =>
    obtain ⟨own, rfl⟩ := own_read read (.inr nofun)
    refine ⟨rfl, grows_markImportStarted .., ⟨_, _, List.mem_singleton_self _, .inr nofun⟩, ?_⟩
    intro _
    exact importing_markImportStarted holds (lineageKey e) e.generation
  | empty read =>
    obtain ⟨own, rfl⟩ := own_read read (.inr nofun)
    refine ⟨rfl, grows_record _ _ _ rfl, ⟨_, _, List.mem_singleton_self _, .inr nofun⟩, ?_⟩
    intro started
    rw [own] at started
    cases started
  | @sealedAbove marker _ _ above read checked =>
    obtain rfl := read_same read
    obtain ⟨own, rfl⟩ := own_read checked (.inl rfl)
    have seen : ∃ found, OwnRead
        [⟨.migrationMarker ⟨lineageKey e, e.generation, policy.legacyBridge⟩, .ok (some (.done true))⟩,
          ⟨.migrationMarker ⟨lineageKey e, e.generation, .exactGenerationOnly⟩, .ok marker⟩]
        (lineageKey e) e.generation found :=
      ⟨marker, _, List.mem_cons_of_mem _ (List.mem_singleton_self _), .inl rfl⟩
    refine ⟨rfl, grows_seedSealed above marker, seen, ?_⟩
    intro started
    rw [own] at started
    rw [started]
    exact importing_markImportStarted holds (lineageKey e) e.generation
  | sealedExactly exactly read =>
    obtain ⟨own, rfl⟩ := own_read read (.inl exactly)
    refine ⟨rfl, grows_record _ _ _ rfl, ⟨_, _, List.mem_singleton_self _, .inl exactly⟩, ?_⟩
    intro started
    rw [own] at started
    cases started
  | unsealed read nothing =>
    have other : ∀ {marker : Option MigrationMarker},
        marker = none ∨ marker = some (.inProgress false) →
        marker ≠ some (.done true) ∧ marker ≠ some (.inProgress true) := by
      intro marker nothing
      rcases nothing with rfl | rfl <;> exact ⟨nofun, nofun⟩
    obtain ⟨unsealed, notStarted⟩ := other nothing
    obtain ⟨own, rfl⟩ := own_read read (.inr unsealed)
    refine ⟨rfl, .refl _, ⟨_, _, List.mem_singleton_self _, .inr unsealed⟩, ?_⟩
    intro started
    rw [own] at started
    exact absurd started notStarted

theorem seeded_told {predecessors : List DelegateLineageEntry}
    (run : Succeeds successorWorld (seedEntry policy) s journal predecessors events s' seeded)
    (holds : journal.HoldsUnder (.new policy importRevision)) :
    s' = s ∧ Grows (.new policy importRevision) journal seeded ∧ ∀ e ∈ predecessors,
      Learnt (.new policy importRevision) s seeded events (lineageKey e) e.generation := by
  induction run with
  | nil => exact ⟨rfl, .refl _, fun _ member => nomatch member⟩
  | cons round _ ih =>
    obtain ⟨rfl, grown, learnt⟩ := (seeds_of_executes round).told holds
    obtain ⟨rfl, later, rest⟩ := ih (grown.holds holds)
    refine ⟨rfl, grown.trans later, ?_⟩
    intro e member
    rcases List.mem_cons.mp member with rfl | member
    · exact learnt.mono (List.subset_append_left ..) fun shown => shown.grow later (grown.holds holds)
    · exact (rest e member).mono (List.subset_append_right ..) id

theorem holdsUnder_newPending (predecessors : List DelegateLineageEntry) (binding : JournalBinding) :
    (newPending predecessors).HoldsUnder binding := by
  intro key state found
  rw [(state_newPending found).1]
  rfl

theorem freshJournal_told {predecessors : List DelegateLineageEntry} (importRevision : UInt32)
    (run : Executes successorWorld s (freshJournal predecessors policy).run events s' (.ok seeded)) :
    s' = s ∧ ∀ e ∈ predecessors,
      Learnt (.new policy importRevision) s seeded events (lineageKey e) e.generation := by
  have holds := holdsUnder_newPending predecessors (.new policy importRevision)
  obtain ⟨same, -, told⟩ := seeded_told (succeeds_of_executes run) holds
  exact ⟨same, told⟩

end Seeding

def Reopens (before after : MigrationJournal) : Prop :=
  ∀ key, after.state key = before.state key ∨ after.state key = some (.pending 0 .started 0 0 0)

/-- An entry that does not say, under the binding, that there is nothing to copy. -/
def Undecided (binding : JournalBinding) (journal : MigrationJournal) (key : Fixed 32) : Prop :=
  journal.effectiveRank binding key ≠ ((toLex (1, 0) : ℕ ×ₗ ℕ) : WithBot (ℕ ×ₗ ℕ))

theorem Undecided.merge {binding : JournalBinding} {journal held : MigrationJournal} {key : Fixed 32}
    (undecided : Undecided binding held key) (absent : journal.state key = none) :
    Undecided binding (journal.mergeStored held (some binding)) key := by
  have nothing : journal.effectiveRank binding key = ⊥ := by rw [effectiveRank, absent]; rfl
  unfold Undecided at undecided ⊢
  rwa [effectiveRank_mergeStored, nothing, max_eq_right bot_le]

section Checking

variable {binding : JournalBinding} {s s' : Successor} {events : History}
  {progress progress' : StartProgress} {e : DelegateLineageEntry}

theorem Reopens.refl (journal : MigrationJournal) : Reopens journal journal := fun _ => .inl rfl

theorem Reopens.trans {first second third : MigrationJournal} (earlier : Reopens first second)
    (later : Reopens second third) : Reopens first third := by
  intro key
  rcases later key with same | started
  · rw [same]
    exact earlier key
  · exact .inr started

theorem importing_of_started {journal : MigrationJournal} {key : Fixed 32}
    (started : journal.state key = some (.pending 0 .started 0 0 0)) :
    Importing binding journal key := by
  unfold Importing effectiveRank
  rw [started]
  exact le_rfl

theorem Reopens.importing {before after : MigrationJournal} (reopens : Reopens before after)
    {key : Fixed 32} (shown : Importing binding before key) : Importing binding after key := by
  rcases reopens key with same | started
  · unfold Importing effectiveRank at shown ⊢
    rw [same]
    exact shown
  · exact importing_of_started started

theorem resolvedWithoutData_iff {journal : MigrationJournal} {key : DelegateKey} :
    resolvedWithoutData journal key = true ↔
      ∃ resolution, journal.state key.bytes = some (.resolved resolution) ∧
        resolution.isDataBearing = false := by
  unfold resolvedWithoutData
  rw [entry_state]
  cases journal.state key.bytes with
  | none => simp
  | some state => cases state <;> simp

theorem reopens_of_doubted {journal : MigrationJournal} {key : DelegateKey}
    (doubted : resolvedWithoutData journal key = true) (generation : UInt32) :
    Reopens journal (journal.markImportStarted key generation).1 ∧
      (journal.markImportStarted key generation).1.state key.bytes =
        some (.pending 0 .started 0 0 0) := by
  obtain ⟨resolution, held, noData⟩ := resolvedWithoutData_iff.mp doubted
  have started : (startImport (journal.current key.bytes)).1 = .pending 0 .started 0 0 0 := by
    rw [current_of_state held]
    simp [startImport, noData]
  have states := state_markImportStarted journal key generation
  rw [started] at states
  refine ⟨?_, by rw [states, if_pos rfl]⟩
  intro other
  rw [states]
  split
  · exact .inr rfl
  · exact .inl rfl

theorem Reopens.stands {before after : MigrationJournal} (reopens : Reopens before after)
    {key : DelegateKey} (stands : resolvedWithoutData before key = false) :
    resolvedWithoutData after key = false := by
  by_contra doubted
  rw [Bool.not_eq_false] at doubted
  obtain ⟨resolution, held, noData⟩ := resolvedWithoutData_iff.mp doubted
  rcases reopens key.bytes with same | started
  · rw [same] at held
    rw [resolvedWithoutData_iff.mpr ⟨resolution, held, noData⟩] at stands
    cases stands
  · rw [started] at held
    cases held

theorem undecided_of_stands {journal : MigrationJournal} {key : DelegateKey}
    (stands : resolvedWithoutData journal key = false) : Undecided binding journal key.bytes := by
  unfold Undecided effectiveRank
  cases held : journal.state key.bytes with
  | none => exact WithBot.bot_ne_coe
  | some state =>
    intro same
    have decided : rank (effective state binding) = toLex (1, 0) := WithBot.coe_injective same
    rcases effective_cases state binding with kept | ⟨rejected, itemsSeen, reopened⟩
    · rw [kept] at decided
      cases state with
      | pending attempts flag => cases flag <;> simp [rank] at decided
      | resolved resolution =>
        cases data : resolution.isDataBearing with
        | false =>
          rw [resolvedWithoutData_iff.mpr ⟨resolution, held, data⟩] at stands
          cases stands
        | true => cases resolution <;> simp [rank, JournalResolution.isDataBearing] at decided data
    · rw [reopened] at decided
      simp [rank] at decided

structure Checked (binding : JournalBinding) (s : Successor) (progress : StartProgress)
    (entries : List DelegateLineageEntry) (events : History) (progress' : StartProgress) : Prop where
  reopens : Reopens progress.journal progress'.journal
  unverified : progress.checks.unverified ⊆ progress'.checks.unverified
  read : ∀ key ∈ progress'.checks.read, key ∈ progress.checks.read ∨ ∃ e ∈ entries,
    lineageKey e = key ∧ Learnt binding s progress'.journal events (lineageKey e) e.generation
  covered : ∀ e ∈ entries,
    Learnt binding s progress'.journal events (lineageKey e) e.generation ∨
    (lineageKey e, e.generation) ∈ progress'.checks.unverified ∨
    resolvedWithoutData progress'.journal (lineageKey e) = false

theorem Checked.undecided {entries : List DelegateLineageEntry}
    (checked : Checked binding s progress entries events progress') {key : DelegateKey}
    (stands : resolvedWithoutData progress'.journal key = false) :
    Importing binding progress'.journal key.bytes ∨
      (Undecided binding progress'.journal key.bytes ∧
        Undecided binding progress.journal key.bytes) := by
  rcases checked.reopens key.bytes with same | started
  · have undecided : Undecided binding progress'.journal key.bytes := undecided_of_stands stands
    refine .inr ⟨undecided, ?_⟩
    unfold Undecided effectiveRank at undecided ⊢
    rw [← same]
    exact undecided
  · exact .inl (importing_of_started started)

theorem Checks.checked (checks : Checks successorWorld s progress e events s' progress') :
    s' = s ∧ Checked binding s progress [e] events progress' := by
  cases checks with
  | skipped stands =>
    refine ⟨rfl, .refl _, List.Subset.refl _, fun _ member => .inl member, ?_⟩
    intro other member
    obtain rfl := List.mem_singleton.mp member
    exact .inr (.inr stands)
  | started doubted read =>
    obtain ⟨own, rfl⟩ := own_read read (.inl rfl)
    obtain ⟨reopens, started⟩ := reopens_of_doubted doubted e.generation
    have told : Learnt binding s' (progress.journal.markImportStarted (lineageKey e) e.generation).1
        [⟨.migrationMarker ⟨lineageKey e, e.generation, .exactGenerationOnly⟩,
          .ok (some (.inProgress true))⟩] (lineageKey e) e.generation :=
      ⟨⟨_, _, List.mem_singleton_self _, .inl rfl⟩, fun _ => importing_of_started started⟩
    refine ⟨rfl, reopens, List.Subset.refl _, ?_, ?_⟩
    · intro key member
      rcases List.mem_append.mp member with before | now
      · exact .inl before
      · obtain rfl := List.mem_singleton.mp now
        exact .inr ⟨e, List.mem_singleton_self _, rfl, told⟩
    · intro other member
      obtain rfl := List.mem_singleton.mp member
      exact .inl told
  | @agreed marker _ doubted read other =>
    obtain ⟨own, rfl⟩ := own_read read (.inl rfl)
    have told : Learnt binding s' progress.journal
        [⟨.migrationMarker ⟨lineageKey e, e.generation, .exactGenerationOnly⟩, .ok marker⟩]
        (lineageKey e) e.generation := by
      refine ⟨⟨_, _, List.mem_singleton_self _, .inl rfl⟩, ?_⟩
      intro started
      rw [own] at started
      exact absurd started other
    refine ⟨rfl, .refl _, List.Subset.refl _, ?_, ?_⟩
    · intro key member
      rcases List.mem_append.mp member with before | now
      · exact .inl before
      · obtain rfl := List.mem_singleton.mp now
        exact .inr ⟨e, List.mem_singleton_self _, rfl, told⟩
    · intro other member
      obtain rfl := List.mem_singleton.mp member
      exact .inl told
  | unreadable doubted failed =>
    refine ⟨read_same failed, .refl _, List.subset_append_left .., fun _ member => .inl member, ?_⟩
    intro other member
    obtain rfl := List.mem_singleton.mp member
    exact .inr (.inl (List.mem_append_right _ (List.mem_singleton_self _)))

theorem Checked.append {middle : StartProgress} {entries more : List DelegateLineageEntry}
    {later : History} (first : Checked binding s progress entries events middle)
    (rest : Checked binding s middle more later progress') :
    Checked binding s progress (entries ++ more) (events ++ later) progress' := by
  have persists : ∀ {key : DelegateKey} {generation : UInt32},
      Learnt binding s middle.journal events key generation →
      Learnt binding s progress'.journal (events ++ later) key generation :=
    fun learnt => learnt.mono (List.subset_append_left ..) rest.reopens.importing
  refine ⟨first.reopens.trans rest.reopens, fun _ member => rest.unverified (first.unverified member),
    ?_, ?_⟩
  · intro key member
    rcases rest.read key member with before | ⟨e, among, same, learnt⟩
    · rcases first.read key before with start | ⟨e, among, same, learnt⟩
      · exact .inl start
      · exact .inr ⟨e, List.mem_append_left _ among, same, persists learnt⟩
    · exact .inr ⟨e, List.mem_append_right _ among, same, learnt.mono (List.subset_append_right ..) id⟩
  · intro e member
    rcases List.mem_append.mp member with before | after
    · rcases first.covered e before with learnt | unverified | stands
      · exact .inl (persists learnt)
      · exact .inr (.inl (rest.unverified unverified))
      · exact .inr (.inr (rest.reopens.stands stands))
    · rcases rest.covered e after with learnt | other
      · exact .inl (learnt.mono (List.subset_append_right ..) id)
      · exact .inr other

theorem checkEntries_checked (binding : JournalBinding) {entries : List DelegateLineageEntry} {rounds : List History}
    (run : Iterates successorWorld checkEntry s progress entries rounds s' progress') :
    s' = s ∧ Checked binding s progress entries rounds.flatten progress' := by
  induction run with
  | nil =>
    exact ⟨rfl, .refl _, List.Subset.refl _, fun _ member => .inl member, fun _ member => nomatch member⟩
  | cons round _ ih =>
    obtain ⟨rfl, first⟩ := (checks_of_executes round).checked
    obtain ⟨rfl, rest⟩ := ih
    exact ⟨rfl, first.append rest⟩

end Checking

theorem Seeds.elsewhere {State : Type} {world : World Request Answer State} {s s' : State}
    {events : History} {policy : SecretSelectionPolicy} {journal seeded : MigrationJournal}
    {e : DelegateLineageEntry} (seeds : Seeds world s policy journal e events s' seeded)
    {key : Fixed 32} (other : e.delegateKey ≠ key) : seeded.state key = journal.state key := by
  have recorded : ∀ outcome, (journal.record (lineageKey e) e.generation outcome).state key =
      journal.state key := by
    intro outcome
    rw [state_record, lineageKey_bytes, if_neg other]
  have marked : (journal.markImportStarted (lineageKey e) e.generation).1.state key =
      journal.state key := by
    rw [state_markImportStarted, lineageKey_bytes, if_neg other]
  cases seeds with
  | started => exact marked
  | empty | sealedExactly => exact recorded _
  | sealedAbove =>
    unfold seedSealed
    split
    · exact recorded _
    · exact marked
    · exact recorded _
  | unsealed => rfl

theorem seeded_elsewhere {State : Type} {world : World Request Answer State} {s s' : State}
    {events : History} {policy : SecretSelectionPolicy} {journal seeded : MigrationJournal}
    {entries : List DelegateLineageEntry}
    (run : Succeeds world (seedEntry policy) s journal entries events s' seeded)
    {key : Fixed 32} (other : ∀ e ∈ entries, e.delegateKey ≠ key) :
    seeded.state key = journal.state key := by
  induction run with
  | nil => rfl
  | cons round _ ih =>
    rw [ih fun e member => other e (List.mem_cons_of_mem _ member)]
    exact (seeds_of_executes round).elsewhere (other _ (List.mem_cons_self ..))

theorem freshJournal_elsewhere {State : Type} {world : World Request Answer State} {s s' : State}
    {events : History} {policy : SecretSelectionPolicy} {seeded : MigrationJournal}
    {entries : List DelegateLineageEntry}
    (run : Executes world s (freshJournal entries policy).run events s' (.ok seeded))
    {key : Fixed 32} (other : ∀ e ∈ entries, e.delegateKey ≠ key) : seeded.state key = none := by
  rw [seeded_elsewhere (succeeds_of_executes run) other]
  cases found : (newPending entries).state key with
  | none => rfl
  | some state =>
    obtain ⟨-, e, among, same⟩ := state_newPending found
    exact absurd same (other e among)

theorem unseen_elsewhere {journal : MigrationJournal} {predecessors : List DelegateLineageEntry}
    {key : Fixed 32} (listed : (journal.state key).isSome) :
    ∀ e ∈ predecessors.filter fun e => (journal.entry (lineageKey e)).isNone, e.delegateKey ≠ key := by
  intro e among same
  have unseen := (List.mem_filter.mp among).2
  rw [← same, ← lineageKey_bytes, ← entry_state, Option.isSome_map] at listed
  rw [Option.isNone_iff_eq_none.mp unseen] at listed
  cases listed

section Starting

variable [Ciborium] {s s' : Successor} {events : History} {policy : SecretSelectionPolicy}
  {importRevision : UInt32} {predecessors : List DelegateLineageEntry} {started : Started}
  {checks : MarkerChecks}

/-- What the start of a run establishes: of every predecessor the marker was read, and the journal
    shows what it says, or it could not be read, or an import is shown, or there is no resolution
    that the marker could contradict. -/
structure StartKnows (binding : JournalBinding) (s : Successor)
    (predecessors : List DelegateLineageEntry) (events : History) (started : Started)
    (checks : MarkerChecks) : Prop where
  read : ∀ key ∈ checks.read, ∃ e ∈ predecessors,
    lineageKey e = key ∧ Learnt binding s started.journal events (lineageKey e) e.generation
  covered : ∀ e ∈ predecessors,
    Learnt binding s started.journal events (lineageKey e) e.generation ∨
    (lineageKey e, e.generation) ∈ checks.unverified ∨
    Importing binding started.journal e.delegateKey ∨
    (Undecided binding started.journal e.delegateKey ∧
      ∃ stored, storedJournal s.journal = some stored ∧ Undecided binding stored e.delegateKey)

theorem Starts.knows
    (starts : Starts successorWorld s predecessors policy (.new policy importRevision) events s' started
      checks) :
    s' = s ∧ StartKnows (.new policy importRevision) s predecessors events started checks := by
  cases starts with
  | fresh loaded unreadable seeded =>
    obtain ⟨-, rfl⟩ := loaded
    obtain ⟨same, learnt⟩ := freshJournal_told importRevision seeded
    refine ⟨same, ?_, ?_⟩
    · intro key member
      obtain ⟨e, among, rfl⟩ := List.mem_map.mp member
      exact ⟨e, among, rfl, (learnt e among).mono (List.subset_cons_self ..) id⟩
    · intro e member
      exact .inl ((learnt e member).mono (List.subset_cons_self ..) id)
  | @known bytes _ _ _ journal progress loaded decoded checked allSeen =>
    obtain ⟨found, rfl⟩ := loaded
    obtain ⟨rounds, rfl, loop⟩ := executes_foldlM.mp checked
    obtain ⟨same, checked⟩ := checkEntries_checked (.new policy importRevision) loop
    have stored := storedJournal_of_decode decoded
    rw [found] at stored
    have kept : (if progress.changed then Started.new progress.journal
        else .existing progress.journal).journal = progress.journal := by
      split <;> rfl
    refine ⟨same, ?_, ?_⟩
    · intro key member
      rw [kept]
      rcases checked.read key member with absurd' | ⟨e, among, rfl, learnt⟩
      · cases absurd'
      · exact ⟨e, among, rfl, learnt.mono (List.subset_cons_self ..) id⟩
    · intro e member
      rw [kept]
      rcases checked.covered e member with learnt | unverified | stands
      · exact .inl (learnt.mono (List.subset_cons_self ..) id)
      · exact .inr (.inl unverified)
      · rcases checked.undecided stands with shown | undecided
        · exact .inr (.inr (.inl shown))
        · exact .inr (.inr (.inr ⟨undecided.1, journal, stored, undecided.2⟩))
  | @extended bytes _ _ _ _ _ journal seeded progress loaded decoded checked read =>
    obtain ⟨found, rfl⟩ := loaded
    obtain ⟨rounds, rfl, loop⟩ := executes_foldlM.mp checked
    obtain ⟨rfl, checked⟩ := checkEntries_checked (.new policy importRevision) loop
    obtain ⟨same, learnt⟩ := freshJournal_told importRevision read
    have stored := storedJournal_of_decode decoded
    rw [found] at stored
    have before : ∀ more : History, more ⊆
        ⟨.loadJournal, .ok (some bytes)⟩ :: (rounds.flatten ++ more) :=
      fun _ _ member => List.mem_cons_of_mem _ (List.mem_append_right _ member)
    have checking : ∀ more : History, rounds.flatten ⊆
        ⟨.loadJournal, .ok (some bytes)⟩ :: (rounds.flatten ++ more) :=
      fun _ _ member => List.mem_cons_of_mem _ (List.mem_append_left _ member)
    refine ⟨same, ?_, ?_⟩
    · intro key member
      rcases List.mem_append.mp member with earlier | unseen
      · rcases checked.read key earlier with absurd' | ⟨e, among, rfl, learnt⟩
        · cases absurd'
        · exact ⟨e, among, rfl, learnt.mono (checking _) .merge_stored⟩
      · obtain ⟨e, among, rfl⟩ := List.mem_map.mp unseen
        exact ⟨e, (List.mem_filter.mp among).1, rfl, (learnt e among).mono (before _) .merge_own⟩
    · intro e member
      cases seen : progress.journal.entry (lineageKey e) with
      | none =>
        have among : e ∈ predecessors.filter fun e =>
            (progress.journal.entry (lineageKey e)).isNone :=
          List.mem_filter.mpr ⟨member, by rw [seen]; rfl⟩
        exact .inl ((learnt e among).mono (before _) .merge_own)
      | some entry =>
        rcases checked.covered e member with learnt | unverified | stands
        · exact .inl (learnt.mono (checking _) .merge_stored)
        · exact .inr (.inl unverified)
        · rcases checked.undecided stands with shown | undecided
          · exact .inr (.inr (.inl shown.merge_stored))
          · refine .inr (.inr (.inr ⟨?_, journal, stored, undecided.2⟩))
            have listed : (progress.journal.state (lineageKey e).bytes).isSome := by
              rw [← entry_state, seen]
              rfl
            have absent := freshJournal_elsewhere read (unseen_elsewhere listed)
            rw [lineageKey_bytes] at absent
            exact undecided.1.merge absent

end Starting

end FreenetMigrate.Migrate
