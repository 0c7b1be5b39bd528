import FreenetMigrate.Journal.Memory
import FreenetMigrate.Migrate.Soundness

namespace FreenetMigrate.Migrate

open Calls Journal MigrationJournal

section Entries

variable {binding : JournalBinding} {key : Fixed 32} {journal held : MigrationJournal}

theorem not_noData_of_importing (shown : Importing binding journal key)
    {resolution : JournalResolution}
    (resolved : journal.effectiveState key binding = some (.resolved resolution)) :
    resolution.isDataBearing = true := by
  obtain ⟨held, same⟩ := effectiveState_resolved resolved
  cases data : resolution.isDataBearing with
  | true => rfl
  | false => exact absurd shown (not_importing_of_noData held same data)

/-- A merge into the stored journal forgets nothing of an entry that shows an import. -/
theorem recalled_le_of_importing (shown : Importing binding held key) :
    recalled (held.effectiveState key binding) ≤
      recalled (joined (held.effectiveState key binding) (journal.effectiveState key binding)) := by
  rcases recalled_le_joined (held.effectiveState key binding) (journal.effectiveState key binding) with
    kept | ⟨resolution, ours, noData, replaced⟩
  · exact kept
  · have merged : (journal.mergeStored held (some binding)).effectiveState key binding =
        some (.resolved resolution) := by
      rw [effectiveState_mergeStored, replaced, ours]
    have data := not_noData_of_importing shown.merge_stored merged
    rw [noData] at data
    cases data

end Entries

section Journaled

variable [Ciborium] {State : Type} {world : World Request Answer State} {stored : State → Option Bytes}
  {s s' : State} {events : History} {binding : JournalBinding} {key : Fixed 32}
  {journalKey : Bytes} {predecessors : List DelegateLineageEntry} {policy : SecretSelectionPolicy}
  {journal after held : MigrationJournal} {result : Except JournalError Unit}
  {rebuild : Option (List DelegateLineageEntry × SecretSelectionPolicy)}

def storedState (binding : JournalBinding) (stored : Option Bytes) (key : Fixed 32) :
    Option JournalState := (storedJournal stored).bind (·.effectiveState key binding)

theorem storedState_eq {bytes : Option Bytes} (found : storedJournal bytes = some held) :
    storedState binding bytes key = held.effectiveState key binding := by
  rw [storedState, found, Option.bind_some]

theorem flagged_iff {bytes : Option Bytes} :
    Flagged binding bytes key ↔ ∃ held, storedJournal bytes = some held ∧ Importing binding held key := by
  unfold Flagged storedRank
  cases storedJournal bytes with
  | none =>
    constructor
    · intro shown
      exact absurd (le_bot_iff.mp shown) WithBot.coe_ne_bot
    · rintro ⟨held, wrong, -⟩
      cases wrong
  | some held =>
    constructor
    · exact fun shown => ⟨held, rfl, shown⟩
    · rintro ⟨other, same, shown⟩
      rw [Option.some.inj same]
      exact shown

/-- What is stored now remembers of an entry what was stored before the run, if items were counted,
    and what the run stored, if it showed an import. -/
structure Remembers (binding : JournalBinding) (key : Fixed 32) (start : Option Bytes) (past : History)
    (now : Option Bytes) : Prop where
  start : 0 < (recalled (storedState binding start key)).1 →
    recalled (storedState binding start key) ≤ recalled (storedState binding now key)
  since : ∀ written, ⟨.storeJournal written, .ok ()⟩ ∈ past → Flagged binding (some written) key →
    Flagged binding now key ∧
      recalled (storedState binding (some written) key) ≤ recalled (storedState binding now key)

theorem remembers_start (start : Option Bytes) : Remembers binding key start [] start :=
  ⟨fun _ => le_rfl, fun _ absent => nomatch absent⟩

theorem Remembers.step {start now later : Option Bytes} {past : History} {event : Event Request Answer}
    (remembers : Remembers binding key start past now)
    (kept : 0 < (recalled (storedState binding start key)).1 →
      recalled (storedState binding now key) ≤ recalled (storedState binding later key))
    (flagged : Flagged binding now key → Flagged binding later key ∧
      recalled (storedState binding now key) ≤ recalled (storedState binding later key))
    (landed : ∀ written, event = ⟨.storeJournal written, .ok ()⟩ → later = some written) :
    Remembers binding key start (past ++ [event]) later := by
  refine ⟨fun counted => (remembers.start counted).trans (kept counted), ?_⟩
  intro written member shown
  rcases List.mem_append.mp member with before | last
  · obtain ⟨still, most⟩ := remembers.since written before shown
    obtain ⟨next, more⟩ := flagged still
    exact ⟨next, most.trans more⟩
  · obtain rfl := landed written (List.mem_singleton.mp last).symm
    exact ⟨shown, le_rfl⟩

theorem Remembers.same {start now : Option Bytes} {past : History} {event : Event Request Answer}
    (remembers : Remembers binding key start past now)
    (quiet : ∀ written, event.request ≠ .storeJournal written) :
    Remembers binding key start (past ++ [event]) now := by
  refine remembers.step (fun _ => le_rfl) (fun shown => ⟨shown, le_rfl⟩) ?_
  rintro written rfl
  exact absurd rfl (quiet written)

section Throughout

variable {p p' : Recorded Request Answer State} {start : Option Bytes}

abbrev AlwaysRemembers (stored : State → Option Bytes) (binding : JournalBinding) (key : Fixed 32)
    (start : Option Bytes) (p : Recorded Request Answer State) : Prop :=
  p.Always fun past state => Remembers binding key start past (stored state)

theorem always_unstored (kept : JournalKept world stored)
    (always : AlwaysRemembers stored binding key start p) (steps : Steps (recorded world) p events p')
    (quiet : Only (fun request => ∀ bytes, request ≠ .storeJournal bytes) events) :
    AlwaysRemembers stored binding key start p' := by
  apply always.frame steps quiet
  intro past s call answer s' notStore made remembers
  rw [kept.reads notStore made]
  exact remembers.same notStore

variable [LawfulCiborium]

theorem Merged.flagged (kept : JournalKept world stored)
    (merges : Merged world s journal (some binding) rebuild after)
    (shown : Flagged binding (stored s) key) :
    Flagged binding (some after.encode) key ∧ recalled (storedState binding (stored s) key) ≤
      recalled (storedState binding (some after.encode) key) := by
  obtain ⟨held, found, importing⟩ := flagged_iff.mp shown
  obtain rfl := merges.of_found kept found
  refine ⟨flagged_iff.mpr ⟨_, storedJournal_encode _, Importing.merge_stored importing⟩, ?_⟩
  rw [storedState_eq found, storedState_eq (storedJournal_encode _), effectiveState_mergeStored]
  exact recalled_le_of_importing importing

/-- A store of `journal` remembers, if merging it into what is stored forgets nothing that counted
    before the run, or ends in the `lost` that this is noted as. -/
theorem Stores.remembers_or (lost : History → Prop) (kept : JournalKept world stored)
    (always : AlwaysRemembers stored binding key start p)
    (run : Stores (recorded world) p journal (some binding) rebuild events p' result after)
    (safe : 0 < (recalled (storedState binding start key)).1 → ∀ held,
      storedJournal (stored p.state) = some held →
      recalled (held.effectiveState key binding) ≤
          recalled (joined (held.effectiveState key binding) (journal.effectiveState key binding)) ∨
        ∀ reads answer, lost (p.history ++ reads ++
          [⟨.storeJournal (journal.mergeStored held (some binding)).encode, answer⟩])) :
    p'.Always fun past state => lost past ∨ Remembers binding key start past (stored state) := by
  cases run with
  | refused steps reads =>
    have before := always_unstored kept always steps (reads.mono fun _ => ReadCall.notStore)
    exact before.mono fun past state remembers => .inr remembers
  | @wrote reading p₁ _ answer _ steps reads merges stores =>
    have before := always_unstored kept always steps (reads.mono fun _ => ReadCall.notStore)
    have same := kept.recorded.steps steps (reads.mono fun _ => ReadCall.notStore)
    have keeps := kept.recorded
    have written := keeps.writes stores
    have landed : ∀ bytes, (⟨.storeJournal after.encode, answer⟩ : Event Request Answer) =
        ⟨.storeJournal bytes, .ok ()⟩ → stored p'.state = some bytes := by
      intro bytes event
      cases event
      exact keeps.stores stores
    have flagged : Flagged binding (stored p₁.state) key → Flagged binding (stored p'.state) key ∧
        recalled (storedState binding (stored p₁.state) key) ≤
          recalled (storedState binding (stored p'.state) key) := by
      rw [same]
      intro shown
      rcases written with unmoved | moved
      · rw [unmoved, same]
        exact ⟨shown, le_rfl⟩
      · have still := merges.flagged keeps shown
        rw [moved]
        exact still
    have remembers : (0 < (recalled (storedState binding start key)).1 →
        recalled (storedState binding (stored p₁.state) key) ≤
          recalled (storedState binding (stored p'.state) key)) →
        p'.Always fun past state => lost past ∨ Remembers binding key start past (stored state) := by
      intro survives
      have now := before.now.step survives flagged landed
      exact (before.step stores now).mono fun past state remembers => .inr remembers
    by_cases counted : 0 < (recalled (storedState binding start key)).1
    · cases found : storedJournal (stored p.state) with
      | none =>
        apply remembers
        intro _
        rw [storedState, same, found]
        exact bot_le
      | some held =>
        have becomes := merges.of_found keeps found
        rcases safe counted held found with survives | noted
        · apply remembers
          intro _
          rcases written with unmoved | moved
          · rw [unmoved]
          · rw [moved, same, storedState_eq found, storedState_eq (storedJournal_encode after), becomes,
              effectiveState_mergeStored]
            exact survives
        · refine (before.mono fun past state remembers => .inr remembers).step stores (.inl ?_)
          rw [becomes, Recorded.history_steps steps]
          exact noted reading answer
    · exact remembers fun wrong => absurd wrong counted

theorem Stores.remembers (kept : JournalKept world stored)
    (always : AlwaysRemembers stored binding key start p)
    (run : Stores (recorded world) p journal (some binding) rebuild events p' result after)
    (safe : 0 < (recalled (storedState binding start key)).1 → ∀ held,
      storedJournal (stored p.state) = some held →
      recalled (held.effectiveState key binding) ≤
        recalled (joined (held.effectiveState key binding) (journal.effectiveState key binding))) :
    AlwaysRemembers stored binding key start p' := by
  have never := run.remembers_or (fun _ => False) kept always
    fun counted held found => .inl (safe counted held found)
  exact never.mono fun past state either => either.resolve_left id

/-- A working copy that a walk can go on with: it shows an import of the entry, or has it as both it
    and the stored journal had it when the walk began, and says no less than is stored. -/
structure Carried (stored : State → Option Bytes) (binding : JournalBinding) (key : Fixed 32)
    (start : Option Bytes) (entry : Option JournalState) (p : Recorded Request Answer State)
    (journal : MigrationJournal) : Prop where
  always : AlwaysRemembers stored binding key start p
  holds : journal.HoldsUnder binding
  readable : (storedJournal (stored p.state)).isSome
  steady : Importing binding journal key ∨
    (journal.effectiveState key binding = entry ∧ storedState binding (stored p.state) key = entry)
  behind : storedRank binding (stored p.state) key ≤ journal.effectiveRank binding key

variable {entry : Option JournalState} {watch seen : JournalWatch} {row : DelegateKey × UInt32}
  {state state' : WalkState JournalWatch} {items : Option UInt32} {answer : Except String Unit}

omit [LawfulCiborium] in
theorem Carried.call (kept : JournalKept world stored)
    (carried : Carried stored binding key start entry p journal) {call : Request} {answer : Answer call}
    (made : recorded world p call answer p') (quiet : ∀ bytes, call ≠ .storeJournal bytes) :
    Carried stored binding key start entry p' journal := by
  have same : stored p'.state = stored p.state := kept.recorded.reads quiet made
  have always := always_unstored kept carried.always (.cons made (.nil p'))
    (only_cons.mpr ⟨quiet, only_nil⟩)
  refine ⟨always, carried.holds, ?_, ?_, ?_⟩
  · rw [same]
    exact carried.readable
  · rw [same]
    exact carried.steady
  · rw [same]
    exact carried.behind

omit [LawfulCiborium] in
theorem Carried.flag (carried : Carried stored binding key start entry p watch.journal)
    (predecessor : DelegateKey) (generation : UInt32) (items : Option UInt32) :
    Carried stored binding key start entry p (watch.flag predecessor generation items).1 := by
  have grown : Grows binding watch.journal (watch.flag predecessor generation items).1 :=
    grows_flag watch predecessor generation items
  refine ⟨carried.always, grown.holds carried.holds, carried.readable, ?_,
    carried.behind.trans (grown.ranks carried.holds key)⟩
  rcases carried.steady with shown | ⟨ours, theirs⟩
  · exact .inl (shown.grow grown carried.holds)
  · by_cases here : predecessor.bytes = key
    · have shown := importing_le_flag carried.holds predecessor generation items
      rw [here] at shown
      exact .inl shown
    · right
      rw [effectiveState, JournalWatch.state_flag, if_neg here]
      exact ⟨ours, theirs⟩

theorem Carried.stores (kept : JournalKept world stored)
    (carried : Carried stored binding key start entry p journal)
    (run : Stores (recorded world) p journal (some binding) rebuild events p' result after) :
    Carried stored binding key start entry p' after := by
  obtain ⟨held, found⟩ := Option.isSome_iff_exists.mp carried.readable
  have grown : Grows binding journal after := run.grows kept.recorded
  have keeps := kept.recorded
  have becomes : after = journal ∨ after = journal.mergeStored held (some binding) := by
    rcases run.after_cases with same | merges
    · exact .inl same
    · exact .inr (merges.of_found keeps found)
  have moves : stored p'.state = stored p.state ∨
      (stored p'.state = some after.encode ∧ after = journal.mergeStored held (some binding)) := by
    rcases run.stored_cases keeps with ⟨same, -⟩ | ⟨written, merges⟩
    · exact .inl same
    · exact .inr ⟨written, merges.of_found keeps found⟩
  refine ⟨?_, grown.holds carried.holds, ?_, ?_, ?_⟩
  · refine run.remembers kept carried.always ?_
    intro _ other same
    obtain rfl := Option.some.inj (found.symm.trans same)
    rcases carried.steady with shown | ⟨ours, theirs⟩
    · rcases recalled_le_joined (held.effectiveState key binding) (journal.effectiveState key binding)
        with kept | ⟨resolution, ours, noData, -⟩
      · exact kept
      · rw [not_noData_of_importing shown ours] at noData
        cases noData
    · rw [storedState_eq found] at theirs
      rw [ours, theirs, joined_self]
  · rcases moves with same | ⟨written, -⟩
    · rw [same]
      exact carried.readable
    · rw [written, storedJournal_encode]
      rfl
  · rcases carried.steady with shown | ⟨ours, theirs⟩
    · exact .inl (shown.grow grown carried.holds)
    · have merged : (journal.mergeStored held (some binding)).effectiveState key binding = entry := by
        rw [storedState_eq found] at theirs
        rw [effectiveState_mergeStored, ours, theirs, joined_self]
      refine .inr ⟨?_, ?_⟩
      · rcases becomes with rfl | rfl
        · exact ours
        · exact merged
      · rcases moves with same | ⟨written, rfl⟩
        · rw [same]
          exact theirs
        · rw [written, storedState_eq (storedJournal_encode _)]
          exact merged
  · rcases moves with same | ⟨written, -⟩
    · rw [same]
      exact carried.behind.trans (grown.ranks carried.holds key)
    · rw [written, storedRank_encode]

theorem Carried.told (kept : JournalKept world stored)
    (carried : Carried stored binding key start entry p watch.journal) {predecessor : DelegateKey}
    {generation : UInt32}
    (told : Executes (recorded world) p
      ((journalObserver journalKey binding predecessors policy).beforeImport watch predecessor
        generation items) events p' (answer, seen)) :
    Carried stored binding key start entry p' seen.journal := by
  have flagged := carried.flag predecessor generation items
  rcases told_cases told with ⟨-, -, rfl, rfl, -, -⟩ | ⟨result, stores, -⟩
  · exact flagged
  · exact flagged.stores kept stores

theorem carries_carried (kept : JournalKept world stored) :
    Carries (journalObserver journalKey binding predecessors policy) (recorded world) row
      fun p watch => Carried stored binding key start entry p watch.journal :=
  ⟨fun made carried quiet => carried.call kept made quiet, fun told carried => carried.told kept told⟩

theorem RowRuns.carried (kept : JournalKept world stored)
    (carried : Carried stored binding key start entry p state.observed.journal)
    (runs : RowRuns (journalObserver journalKey binding predecessors policy) policy (recorded world) p
      state row events p' state') : Carried stored binding key start entry p' state'.observed.journal := by
  have carries : Carries (journalObserver journalKey binding predecessors policy) (recorded world) row
      fun p watch => Carried stored binding key start entry p watch.journal := carries_carried kept
  exact runs.carries carries carried

theorem visits_carried (kept : JournalKept world stored) {visits : List Visit}
    (carried : Carried stored binding key start entry p state.observed.journal)
    (walked : Visits (journalObserver journalKey binding predecessors policy) policy (recorded world) p
      state visits p' state') : Carried stored binding key start entry p' state'.observed.journal :=
  walked.invariant (fun p state => Carried stored binding key start entry p state.observed.journal)
    (fun _ _ round carried => (rowRuns_of_executes round).carried kept carried) carried

end Throughout

end Journaled

end FreenetMigrate.Migrate
