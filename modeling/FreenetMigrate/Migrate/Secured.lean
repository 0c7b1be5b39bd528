import FreenetMigrate.Calls.Secures
import FreenetMigrate.Migrate.JournaledRun
import FreenetMigrate.Migrate.Observer

namespace FreenetMigrate.Migrate

open Calls Journal

def Unstoring : Request → Prop
  | .storeJournal _ => False
  | _ => True

theorem Unstoring.notStore {request : Request} (unstoring : Unstoring request) :
    ∀ bytes, request ≠ .storeJournal bytes := by
  rintro bytes rfl
  exact unstoring

theorem ReadCall.unstoring {request : Request} (call : ReadCall request) : Unstoring request := by
  cases request <;> trivial

section Walk

variable {Observed State α : Type} {world : World Request Answer State} {keeps : State → Prop}
  {holds : Observed → Prop} {observer : WalkObserver Observed} {policy : SecretSelectionPolicy}
  {state : WalkState Observed} {asked : Asked} {items secrets : List SecretPair}

/-- What a walk keeps: an invariant that only its observer's stores touch, and a property of what
    the observer holds. -/
structure Guarded (world : World Request Answer State) (keeps : State → Prop)
    (observer : WalkObserver Observed) (holds : Observed → Prop) : Prop where
  quiet : ∀ {s request answer s'}, keeps s → world s request answer s' → Unstoring request → keeps s'
  told : ∀ observed key generation items, holds observed →
    (observer.beforeImport observed key generation items).Secures world keeps fun told => holds told.2

section Rows

variable (guarded : Guarded world keeps observer holds)

include guarded

theorem Guarded.call {call : Request} {rest : Answer call → Migration α} {post : α → Prop}
    (unstoring : Unstoring call) (each : ∀ answer, (rest answer).Secures world keeps post) :
    (Program.request call >>= rest : Migration α).Secures world keeps post :=
  secures_call fun _ answer _ kept step => ⟨guarded.quiet kept step unstoring, each answer⟩

theorem secures_offers (withheldKeys : List Bytes) (offering : Offering) :
    (items.foldlM (offerItem asked withheldKeys) offering).Secures world keeps fun _ => True := by
  refine secures_foldlM items trivial ?_
  intro pair _ offering _
  unfold offerItem
  split
  · exact secures_pure trivial
  · refine guarded.call trivial ?_
    intro answer
    split <;> exact secures_pure trivial

theorem secures_importItems (sawData : Bool) (holding : holds state.observed) :
    (importItems policy state asked items sawData).Secures world keeps
      fun state => holds state.observed := by
  refine secures_bind (secures_offers guarded _ _) ?_
  intro offering _
  refine guarded.call trivial ?_
  intro flushed
  split
  · exact secures_pure holding
  · split
    · refine guarded.call trivial ?_
      intro recorded
      split
      · exact secures_pure holding
      · split <;> exact secures_pure holding
    · exact secures_pure holding

theorem secures_beginImport (sawData : Bool) (holding : holds state.observed) :
    (beginImport policy state asked items sawData).Secures world keeps
      fun state => holds state.observed := by
  refine guarded.call trivial ?_
  intro begun
  split
  · exact secures_pure holding
  · split
    · refine guarded.call trivial ?_
      intro readBack
      split
      · exact secures_importItems guarded sawData holding
      · exact secures_pure holding
    · exact secures_importItems guarded sawData holding

theorem secures_judgeExport (holding : holds state.observed) :
    (judgeExport observer policy state asked secrets).Secures world keeps
      fun state => holds state.observed := by
  unfold judgeExport
  simp only
  split
  · exact secures_pure holding
  · split
    · refine secures_bind (guarded.told _ _ _ _ holding) ?_
      rintro ⟨flagged, observed⟩ told
      simp only
      split
      · exact secures_pure told
      · split
        · exact secures_pure told
        · exact secures_beginImport guarded true told
    · exact secures_beginImport guarded false holding

theorem secures_askPredecessor (holding : holds state.observed) :
    (askPredecessor observer policy state asked).Secures world keeps
      fun state => holds state.observed := by
  refine guarded.call trivial ?_
  intro verdict
  split
  · exact secures_pure holding
  · exact secures_pure holding
  · exact secures_pure holding
  · refine guarded.call trivial ?_
    intro fetched
    split
    · exact secures_pure holding
    · exact secures_judgeExport guarded holding

theorem secures_flagKnownData (holding : holds state.observed) :
    (flagKnownData observer policy state asked).Secures world keeps
      fun state => holds state.observed := by
  unfold flagKnownData
  split
  · refine secures_bind (guarded.told _ _ _ _ holding) ?_
    rintro ⟨flagged, observed⟩ told
    simp only
    split
    · exact secures_pure told
    · exact secures_askPredecessor guarded told
  · exact secures_askPredecessor guarded holding

theorem secures_alreadyMigrated (key : DelegateKey) (generation : UInt32) (hadData : Bool)
    (holding : holds state.observed) :
    (alreadyMigrated observer policy state key generation hadData).Secures world keeps
      fun state => holds state.observed := by
  unfold alreadyMigrated
  simp only
  split
  · split
    · refine secures_bind (secures_of_uses (uses_sealIsBridged ..)
        fun _ _ _ _ read kept step => guarded.quiet kept step read.unstoring) ?_
      intro bridged _
      split <;> exact secures_pure holding
    · exact secures_pure holding
  · exact secures_pure holding

theorem secures_walkRow (row : DelegateKey × UInt32) (holding : holds state.observed) :
    (walkRow observer policy state row).Secures world keeps fun state => holds state.observed := by
  unfold walkRow
  simp only
  split
  · exact secures_pure holding
  · split
    · exact secures_pure holding
    · refine guarded.call trivial ?_
      intro read
      split
      · exact secures_pure holding
      · unfold heedMarker
        simp only
        split
        · split
          · exact secures_alreadyMigrated guarded _ _ _ holding
          · exact secures_flagKnownData guarded holding
        · exact secures_flagKnownData guarded holding
        · exact secures_flagKnownData guarded holding

theorem secures_walk (predecessors : List DelegateLineageEntry) {observed : Observed}
    (holding : holds observed) :
    (walk observer policy predecessors observed).Secures world keeps
      fun state => holds state.observed :=
  secures_foldlM _ holding fun row _ _ holding => secures_walkRow guarded row holding

end Rows

end Walk

section Journal

variable [Ciborium] {State : Type} {world : World Request Answer State} {keeps : State → Prop}
  {tells seeded : MigrationJournal → Prop} {binding : JournalBinding} {journal : MigrationJournal}
  {predecessors : List DelegateLineageEntry} {policy : SecretSelectionPolicy}

/-- An invariant that rests on a property of the stored journal: whatever is loaded has it, and a
    store of what has it keeps the invariant. Unless `fails`, a journal is stored and no call on it
    fails. -/
structure JournalGuarded (world : World Request Answer State) (keeps : State → Prop)
    (tells : MigrationJournal → Prop) (fails : Prop) : Prop where
  quiet : ∀ {s request answer s'}, keeps s → world s request answer s' → ReadCall request → keeps s'
  known : ∀ {s answer s'}, keeps s → world s .loadJournal answer s' →
    (∃ bytes journal, answer = .ok (some bytes) ∧ MigrationJournal.decode bytes = .ok journal) ∨ fails
  loads : ∀ {s bytes s' stored}, keeps s → world s .loadJournal (.ok (some bytes)) s' →
    MigrationJournal.decode bytes = .ok stored → tells stored
  stores : ∀ {s} {merged : MigrationJournal} {answer s'}, tells merged → keeps s →
    world s (.storeJournal merged.encode) answer s' → keeps s' ∧ (answer = .ok () ∨ fails)
  merges : ∀ {ours stored} (binding : JournalBinding), tells ours → tells stored →
    tells (ours.mergeStored stored (some binding))
  /-- Where no journal can be read one is built from the markers. -/
  rebuilds : fails → ∀ lineage policy,
    (freshJournal lineage policy).run.Secures world keeps (Either tells fun _ => True)

variable {fails : Prop} (guarded : JournalGuarded world keeps tells fails)

include guarded

theorem JournalGuarded.read {α : Type} {call : Request} {rest : Answer call → Migration α}
    {post : α → Prop} (reads : ReadCall call)
    (each : ∀ answer, (rest answer).Secures world keeps post) :
    (Program.request call >>= rest : Migration α).Secures world keeps post :=
  secures_call fun _ answer _ kept step => ⟨guarded.quiet kept step reads, each answer⟩

theorem secures_storeMerged (telling : tells journal)
    (rebuild : Option (List DelegateLineageEntry × SecretSelectionPolicy)) :
    (storeMerged journal (some binding) rebuild).Secures world keeps
      fun result => tells result.2 ∧ (result.1 = .ok () ∨ fails) := by
  have store : ∀ merged : MigrationJournal, tells merged → ((do
      let stored ← storeJournal merged.encode
      return (stored.mapError fun e => .successor s!"journal store failed: {e}", merged)) :
        Migration (Except JournalError Unit × MigrationJournal)).Secures world keeps
          fun result => tells result.2 ∧ (result.1 = .ok () ∨ fails) := by
    intro merged telling
    refine secures_call ?_
    intro s answer s' kept step
    obtain ⟨kept', rfl | fails⟩ := guarded.stores telling kept step
    · exact ⟨kept', secures_pure ⟨telling, .inl rfl⟩⟩
    · exact ⟨kept', secures_pure ⟨telling, .inr fails⟩⟩
  refine secures_call ?_
  intro s answer s' kept step
  refine ⟨guarded.quiet kept step trivial, ?_⟩
  rcases guarded.known kept step with ⟨bytes, stored, rfl, decoded⟩ | fails
  · simp only [decoded]
    exact store _ (guarded.merges binding telling (guarded.loads kept step decoded))
  · split
    · exact secures_pure ⟨telling, .inr fails⟩
    · exact store journal telling
    · split
      · rename_i stored decoded
        exact store _ (guarded.merges binding telling (guarded.loads kept step decoded))
      · exact secures_pure ⟨telling, .inr fails⟩
      · split
        · exact secures_pure ⟨telling, .inr fails⟩
        · rename_i lineage policy
          refine secures_bind (guarded.rebuilds fails lineage policy) ?_
          intro rebuilt met
          split
          · exact store _ (guarded.merges binding telling met)
          · exact secures_pure ⟨telling, .inr fails⟩

/-- The start of a run: a readable journal is checked and extended, and anything else fails or is
    started afresh. -/
theorem secures_startJournal
    (checks : ∀ e ∈ predecessors, ∀ progress : StartProgress, tells progress.journal →
      (checkEntry progress e).Secures world keeps fun progress => tells progress.journal)
    (unseen : ∀ journal, tells journal →
      (freshJournal (predecessors.filter fun e => (journal.entry (lineageKey e)).isNone)
        policy).run.Secures world keeps
          (Either (fun seeded => tells (seeded.mergeStored journal (some binding))) fun _ => fails)) :
    (startJournal predecessors policy binding).run.Secures world keeps
      (Either (fun found => tells found.1.journal) fun _ => fails) := by
  have fresh : fails → (do
        let journal ← freshJournal predecessors policy
        return (Started.new journal, (⟨predecessors.map lineageKey, []⟩ : MarkerChecks)) :
          Fallible (Started × MarkerChecks)).run.Secures world keeps
            (Either (fun found => tells found.1.journal) fun _ => fails) := by
    intro fails
    refine secures_run_bind ((guarded.rebuilds fails predecessors policy).mono ?_)
      fun _ telling => secures_run_pure telling
    intro result met
    cases result with
    | error => exact fails
    | ok => exact met
  have known : ∀ journal, tells journal → (do
      let progress ← (predecessors.foldlM checkEntry ⟨journal, false, [], []⟩ : Migration _)
      let unseen := predecessors.filter fun e => (progress.journal.entry (lineageKey e)).isNone
      if unseen.isEmpty then
        return (if progress.changed then .new progress.journal else .existing progress.journal,
          progress.checks)
      let seeded ← freshJournal unseen policy
      let read := progress.checks.read ++ unseen.map lineageKey
      return (.new (seeded.mergeStored progress.journal (some binding)), { progress.checks with read }) :
        Fallible (Started × MarkerChecks)).run.Secures world keeps
          (Either (fun found => tells found.1.journal) fun _ => fails) := by
    intro journal telling
    refine secures_run_bind (secures_run_lift (secures_foldlM predecessors
      (show tells (⟨journal, false, [], []⟩ : StartProgress).journal from telling) checks)) ?_
    intro progress telling
    simp only
    split
    · refine secures_run_pure ?_
      change tells (Started.journal (if progress.changed = true then _ else _))
      split <;> exact telling
    · refine secures_run_bind (unseen progress.journal telling) ?_
      intro seeded telling
      exact secures_run_pure telling
  refine secures_run_call ?_
  intro s answer s' kept step
  refine ⟨guarded.quiet kept step trivial, ?_⟩
  rcases guarded.known kept step with ⟨bytes, journal, rfl, decoded⟩ | fails
  · simp only [decoded]
    exact known journal (guarded.loads kept step decoded)
  · split
    · exact secures_run_throw fails
    · exact fresh fails
    · split
      · exact secures_run_throw fails
      · exact fresh fails
      · rename_i journal decoded
        exact known journal (guarded.loads kept step decoded)

theorem secures_establish {started : Started} (telling : tells started.journal) :
    (establish predecessors policy binding started).Secures world keeps
      fun result => tells result.2 ∧ (result.1 = .ok () ∨ fails) := by
  cases started with
  | existing journal => exact secures_pure ⟨telling, .inl rfl⟩
  | new journal =>
    have fresh : tells journal := telling
    unfold establish
    exact secures_storeMerged guarded fresh _

end Journal

end FreenetMigrate.Migrate
