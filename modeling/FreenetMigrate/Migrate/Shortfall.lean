import FreenetMigrate.Migrate.Remembering

namespace FreenetMigrate.Migrate

open Calls Journal MigrationJournal

theorem started_of_rank {state : JournalState} (same : rank state = importing) :
    ∃ attempts rejected absentStreak itemsSeen,
      state = .pending attempts .started rejected absentStreak itemsSeen := by
  have enough : importing ≤ rank state := same.ge
  rcases importing_le_rank_iff.mp enough with started | ⟨resolution, rfl, -⟩
  · exact started
  · cases resolution <;> simp [rank, importing] at same

theorem flagState_started {state : JournalState}
    (unresolved : ∀ resolution, state = .resolved resolution → resolution.isDataBearing = false)
    (items : Option UInt32) : rank (flagState items state) = importing := by
  have started : rank (startImport state).1 = importing := by
    cases state with
    | pending => rfl
    | resolved resolution =>
      simp only [startImport, unresolved resolution rfl]
      rfl
  cases items with
  | none => exact started
  | some n => exact (rank_raiseCount n _).trans started

theorem unresolved_iff [Ciborium] {watch : JournalWatch} {key : DelegateKey} :
    watch.resolvedWithData key = none ↔ ∀ resolution,
      watch.journal.state key.bytes = some (.resolved resolution) → resolution.isDataBearing = false := by
  unfold JournalWatch.resolvedWithData JournalWatch.stateOf
  rw [entry_state]
  cases watch.journal.state key.bytes with
  | none => simp
  | some state => cases state <;> simp

section Hook

variable [Ciborium] [LawfulCiborium] {State : Type} {world : World Request Answer State}
  {stored : State → Option Bytes} {p p' : Recorded Request Answer State} {events : History}
  {binding : JournalBinding} {start : Option Bytes} {entry : Option JournalState} {journalKey : Bytes}
  {predecessors : List DelegateLineageEntry} {policy : SecretSelectionPolicy}
  {watch seen : JournalWatch} {key : DelegateKey} {generation count : UInt32} {items : Option UInt32}
  {answer : Except String Unit}

omit [LawfulCiborium] in
theorem rank_flag (holds : watch.journal.HoldsUnder binding)
    (unresolved : watch.resolvedWithData key = none) (generation : UInt32) (items : Option UInt32) :
    (watch.flag key generation items).1.effectiveRank binding key.bytes =
      (importing : WithBot (ℕ ×ₗ ℕ)) := by
  have flagged := JournalWatch.state_flag watch key generation items key.bytes
  rw [if_pos rfl] at flagged
  have kept := holdsUnder_flag holds key generation items _ _ flagged
  rw [effectiveRank, flagged, worth_of_holds kept, flagState_started]
  intro resolution held
  unfold current at held
  cases found : watch.journal.state key.bytes with
  | none =>
    rw [found] at held
    cases held
  | some state =>
    rw [found, Option.getD_some] at held
    exact unresolved_iff.mp unresolved resolution (held ▸ found)

theorem Carried.started (kept : JournalKept world stored)
    (carried : Carried stored binding key.bytes start entry p watch.journal)
    (unresolved : watch.resolvedWithData key = none)
    (told : Executes (recorded world) p
      ((journalObserver journalKey binding predecessors policy).beforeImport watch key generation items)
      events p' (answer, seen)) :
    ∃ attempts rejected absentStreak itemsSeen, seen.journal.state key.bytes =
      some (.pending attempts .started rejected absentStreak itemsSeen) := by
  have flagged := carried.flag key generation items
  have rank := rank_flag carried.holds unresolved generation items
  have marked : seen.journal.effectiveRank binding key.bytes = (importing : WithBot (ℕ ×ₗ ℕ)) := by
    rcases told_cases told with ⟨-, -, -, rfl, -, -⟩ | ⟨result, stores, -⟩
    · exact rank
    · obtain ⟨held, found⟩ := Option.isSome_iff_exists.mp flagged.readable
      rcases stores.after_cases with same | merges
      · rw [same]
        exact rank
      · have keeps := kept.recorded
        have behind := flagged.behind
        rw [storedRank, found, rank] at behind
        rw [merges.of_found keeps found, effectiveRank_mergeStored, rank]
        exact max_eq_left behind
  have holds := (carried.told kept told).holds
  cases found : seen.journal.state key.bytes with
  | none =>
    rw [effectiveRank, found] at marked
    exact absurd marked WithBot.bot_ne_coe
  | some state =>
    rw [effectiveRank, found, worth_of_holds (holds _ _ found)] at marked
    obtain ⟨attempts, rejected, absentStreak, itemsSeen, rfl⟩ :=
      started_of_rank (WithBot.coe_injective marked)
    exact ⟨attempts, rejected, absentStreak, itemsSeen, rfl⟩

theorem Carried.counts (kept : JournalKept world stored)
    (carried : Carried stored binding key.bytes start entry p watch.journal)
    (unresolved : watch.resolvedWithData key = none)
    (told : Executes (recorded world) p
      ((journalObserver journalKey binding predecessors policy).beforeImport watch key generation
        (some count)) events p' (.ok (), seen)) :
    (recalled (storedState binding (stored p.state) key.bytes)).1 ≤
      (seen.journal.itemsSeen key).toNat := by
  have flagged := carried.flag key generation (some count)
  have shown : Importing binding (watch.flag key generation (some count)).1 key.bytes :=
    importing_le_flag carried.holds key generation (some count)
  obtain ⟨attempts, rejected, absentStreak, itemsSeen, pending⟩ := carried.started kept unresolved told
  have counted : seen.journal.itemsSeen key = itemsSeen := by
    rw [MigrationJournal.itemsSeen, entry_state, pending]
  rcases told_cases told with ⟨-, -, -, rfl, unchanged, retry⟩ | ⟨result, stores, outcome⟩
  · -- An import that is already flagged is stored again, to see what others counted.
    rw [JournalWatch.state_flag_of_unchanged unchanged] at pending
    have started : watch.importStarted key = true := by
      unfold JournalWatch.importStarted JournalWatch.stateOf
      rw [entry_state, pending]
    rw [started] at retry
    cases retry
  · rcases outcome with ⟨rfl, -⟩ | ⟨-, e, failed⟩
    · obtain ⟨held, found⟩ := Option.isSome_iff_exists.mp flagged.readable
      have keeps := kept.recorded
      rcases stores.stored_cases keeps with ⟨-, failed⟩ | ⟨-, merges⟩
      · exact absurd rfl failed
      · have becomes := merges.of_found keeps found
        have joins : seen.journal.state key.bytes = joined (held.effectiveState key.bytes binding)
            ((watch.flag key generation (some count)).1.effectiveState key.bytes binding) := by
          rw [← effectiveState_mergeStored, ← becomes,
            effectiveState_of_holds (carried.told kept told).holds]
        rw [storedState_eq found, counted]
        rcases recalled_le_joined (held.effectiveState key.bytes binding)
          ((watch.flag key generation (some count)).1.effectiveState key.bytes binding) with
          more | ⟨resolution, ours, noData, -⟩
        · rw [← joins, pending] at more
          exact more.1
        · rw [not_noData_of_importing shown ours] at noData
          cases noData
    · cases failed

end Hook

def LastExport (past : History) (key : DelegateKey) (secrets : List SecretPair) : Prop :=
  ∃ before between, past = before ++ ⟨.fetchSecrets key, .ok secrets⟩ :: between ∧
    ∀ answer, ⟨.fetchSecrets key, answer⟩ ∉ between

def offeredKeys (journalKey : Bytes) (secrets : List SecretPair) : List Bytes :=
  ((secrets.map Prod.fst).filter fun key => !isMarker key && !(key == journalKey)).dedup

def SealsEnough (journalKey : Bytes) (key : Fixed 32) (count : ℕ∞) (past : History)
    (event : Event Request Answer) : Prop :=
  ∀ predecessor answer, event = ⟨.recordMarker predecessor (.done true), answer⟩ →
    predecessor.bytes = key → ∃ secrets, LastExport past predecessor secrets ∧
      count ≤ (offeredKeys journalKey secrets).length

section Exports

variable {past more : History} {key : DelegateKey} {secrets : List SecretPair}

theorem LastExport.prepend (last : LastExport past key secrets) (before : History) :
    LastExport (before ++ past) key secrets := by
  obtain ⟨earlier, between, rfl, none⟩ := last
  exact ⟨before ++ earlier, between, by rw [List.append_assoc], none⟩

theorem LastExport.append (last : LastExport past key secrets)
    (none : ∀ answer, ⟨.fetchSecrets key, answer⟩ ∉ more) : LastExport (past ++ more) key secrets := by
  obtain ⟨earlier, between, rfl, later⟩ := last
  refine ⟨earlier, between ++ more, by rw [List.append_assoc, List.cons_append], ?_⟩
  intro answer member
  rcases List.mem_append.mp member with before | after
  · exact later answer before
  · exact none answer after

theorem not_mem_of_only {allowed : Request → Prop} (only : Only allowed more) {request : Request}
    (refused : ¬ allowed request) : ∀ answer, ⟨request, answer⟩ ∉ more :=
  fun _ member => refused (only _ member)

theorem toU32_le (n : Nat) : (toU32 n).toNat ≤ n := by
  unfold toU32
  have most : (4294967295 : UInt32).toNat = 4294967295 := rfl
  have size : UInt32.size = 4294967296 := rfl
  split
  · rename_i fits
    rw [UInt32.toNat_ofNat_of_lt' fits]
  · omega

theorem distinctKeys_le [Ciborium] {journalKey : Bytes} {binding : JournalBinding}
    {predecessors : List DelegateLineageEntry} {policy : SecretSelectionPolicy} :
    (distinctKeys (offerable (journalObserver journalKey binding predecessors policy) secrets)).toNat ≤
      (offeredKeys journalKey secrets).length := by
  have same : (offerable (journalObserver journalKey binding predecessors policy) secrets).map Prod.fst =
      (secrets.map Prod.fst).filter fun key => !isMarker key && !(key == journalKey) := by
    rw [List.filter_map]
    rfl
  unfold distinctKeys offeredKeys
  rw [same]
  exact toU32_le _

theorem follows_of_unsealed {journalKey : Bytes} {of : Fixed 32} {count : ℕ∞}
    (unsealed : ∀ predecessor answer, ⟨.recordMarker predecessor (.done true), answer⟩ ∉ more) :
    Follows (SealsEnough journalKey of count) past more := by
  apply follows_of_forall
  rintro event member before - predecessor answer rfl
  exact absurd member (unsealed predecessor answer)

end Exports

section Row

variable [Ciborium] [LawfulCiborium] {State : Type} {world : World Request Answer State}
  {stored : State → Option Bytes} {p p' : Recorded Request Answer State} {events : History}
  {binding : JournalBinding} {start : Option Bytes} {entry : Option JournalState} {journalKey : Bytes}
  {predecessors : List DelegateLineageEntry} {policy : SecretSelectionPolicy}
  {state state' : WalkState JournalWatch} {row : DelegateKey × UInt32} {asked : Asked}
  {items : List SecretPair} {sawData : Bool} {observed : JournalWatch} {secrets : List SecretPair}

theorem Asks.unresolved (kept : JournalKept world stored)
    (carried : Carried stored binding row.1.bytes start entry p state.observed.journal)
    (asks : Asks (journalObserver journalKey binding predecessors policy) policy (recorded world) p
      state row asked events p' observed) : observed.resolvedWithData row.1 = none := by
  cases asks with
  | fresh opens => exact opens.unresolved
  | flagged opens unsealed prior told =>
    have reading := carried.call kept opens.read nofun
    obtain ⟨attempts, rejected, absentStreak, itemsSeen, pending⟩ :=
      reading.started kept opens.unresolved told
    rw [unresolved_iff]
    intro resolution resolved
    rw [pending] at resolved
    cases resolved

theorem Engages.enough (kept : JournalKept world stored)
    (carried : Carried stored binding row.1.bytes start entry p state.observed.journal)
    (engages : Engages (journalObserver journalKey binding predecessors policy) policy (recorded world) p
      state row asked items true events p' observed) :
    ∃ secrets, LastExport events asked.key secrets ∧
      (recalled (storedState binding start row.1.bytes)).1 ≤ (offeredKeys journalKey secrets).length := by
  cases engages with
  | @data secrets _ _ p₁ _ before _ exports nonempty told enough =>
    have calls := told.only (quiet_journalObserver ..)
    refine ⟨secrets, ?_, ?_⟩
    · refine LastExport.append ?_ (not_mem_of_only calls id)
      cases exports with
      | mk asks probed fetched =>
        exact ⟨_ ++ [⟨.probeVerdict asked.key, .ok .executable⟩], [],
          by rw [List.append_assoc]; rfl, fun _ absent => nomatch absent⟩
    · rcases eq_zero_or_pos (recalled (storedState binding start row.1.bytes)).1 with none | counted
      · rw [none]
        exact bot_le
      have carries : Carries (journalObserver journalKey binding predecessors policy) (recorded world)
          row fun p watch => Carried stored binding row.1.bytes start entry p watch.journal :=
        carries_carried kept
      have reading := exports.carries carries carried
      have open' : before.resolvedWithData row.1 = none := by
        cases exports with
        | mk asks => exact asks.unresolved kept carried
      rw [exports.on.key, exports.on.generation] at told
      have counts := reading.counts kept open' told
      have since := reading.always.now.start counted
      rw [exports.on.key] at enough
      have most : (observed.journal.itemsSeen row.1).toNat ≤ (offeredKeys journalKey secrets).length :=
        (UInt32.le_iff_toNat_le.mp (UInt32.not_lt.mp enough)).trans distinctKeys_le
      exact (since.1.trans counts).trans (Nat.cast_le.mpr most)

theorem Begins.enough (kept : JournalKept world stored)
    (carried : Carried stored binding row.1.bytes start entry p state.observed.journal)
    (begins : Begins (journalObserver journalKey binding predecessors policy) policy (recorded world) p
      state row asked items true events p' observed) :
    ∃ secrets, LastExport events asked.key secrets ∧
      (recalled (storedState binding start row.1.bytes)).1 ≤ (offeredKeys journalKey secrets).length := by
  cases begins with
  | unsealed engages | overSeal engages =>
    obtain ⟨secrets, last, enough⟩ := engages.enough kept carried
    exact ⟨secrets, last.append (by simp), enough⟩

/-- Whatever a walk seals of a predecessor with its data, it saw no fewer items than were stored. -/
theorem RowRuns.sealsEnough (kept : JournalKept world stored) {key : Fixed 32} {past : History}
    (carried : Carried stored binding key start entry p state.observed.journal)
    (runs : RowRuns (journalObserver journalKey binding predecessors policy) policy (recorded world) p
      state row events p' state') :
    Follows (SealsEnough journalKey key (recalled (storedState binding start key)).1) past events := by
  by_cases here : row.1.bytes = key
  · subst here
    rcases runs.prepares_or_offers quiet_journalObserver with
      only | ⟨asked, items, sawData, begun, p₁, p₂, observed, rounds, offering, ending, rfl, begins,
        offers, completes⟩
    · exact follows_of_unsealed fun predecessor answer member => only _ member
    · have writes : ∀ request, (∀ item, request ≠ .writeSecret item) →
          ∀ answer, ⟨request, answer⟩ ∉ rounds.flatten := by
        intro request other answer member
        obtain ⟨pair, -, given, same⟩ := event_of_offers offers _ member
        injection same with same
        exact other _ same
      rw [follows_append, follows_append]
      refine ⟨⟨?_, ?_⟩, ?_⟩
      · exact follows_of_unsealed fun predecessor answer member =>
          begins.prepares quiet_journalObserver _ member
      · exact follows_of_unsealed fun predecessor => writes (.recordMarker predecessor (.done true)) nofun
      · cases sawData with
        | false => exact follows_of_unsealed (by cases completes <;> simp)
        | true =>
          obtain ⟨secrets, last, enough⟩ := begins.enough kept carried
          have before := last.append (writes (.fetchSecrets asked.key) nofun)
          have sealed : ∀ given, SealsEnough journalKey row.1.bytes
              (recalled (storedState binding start row.1.bytes)).1
              (past ++ (begun ++ rounds.flatten) ++ [⟨.flushPredecessor asked.key, .ok ()⟩])
              ⟨.recordMarker asked.key (.done true), given⟩ := by
            rintro given predecessor answer same -
            injection same with same
            injection same with same
            subst same
            refine ⟨secrets, ?_, enough⟩
            rw [List.append_assoc]
            exact (before.append (by simp)).prepend past
          cases completes with
          | flushFailed | unclean => exact follows_of_unsealed (by simp)
          | sealRefused | completed =>
            refine ⟨?_, sealed _, trivial⟩
            rintro predecessor answer wrong
            cases wrong
  · have calls := runs.calls quiet_journalObserver
    apply follows_of_forall
    rintro event member before - predecessor answer rfl same
    have own : predecessor = row.1 := calls _ member
    exact absurd (own ▸ same) here

theorem visits_sealsEnough (kept : JournalKept world stored) {key : Fixed 32} {past : History}
    {visits : List Visit} (carried : Carried stored binding key start entry p state.observed.journal)
    (walked : Visits (journalObserver journalKey binding predecessors policy) policy (recorded world) p
      state visits p' state') :
    Follows (SealsEnough journalKey key (recalled (storedState binding start key)).1) past
      (visits.map Visit.calls).flatten := by
  induction walked generalizing past with
  | nil => trivial
  | cons round _ _ ih =>
    have runs := rowRuns_of_executes round
    rw [List.map_cons, List.flatten_cons, follows_append]
    exact ⟨runs.sealsEnough kept carried, ih (runs.carried kept carried)⟩

end Row

end FreenetMigrate.Migrate
