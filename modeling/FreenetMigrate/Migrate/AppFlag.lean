import FreenetMigrate.Calls.Secures
import FreenetMigrate.Journal.Growth
import FreenetMigrate.Journal.Traits
import FreenetMigrate.Migrate.AppImport

namespace FreenetMigrate.Migrate

open Calls Journal MigrationJournal

variable {s s' : Successor} {events : History} {policy : SecretSelectionPolicy}
  {predecessors : List DelegateLineageEntry} {journal : MigrationJournal}

section Newer

/-- What an own marker says of a newer generation that the app's import may go past. -/
structure Passable (policy : SecretSelectionPolicy) (s : Successor) (newer : DelegateLineageEntry) :
    Prop where
  notStarted : s.own (lineageKey newer) newer.generation ≠ some (.inProgress true)
  notSealed : s.own (lineageKey newer) newer.generation ≠ some (.done true)
  answered : policy.unresponsiveTerminates false = true →
    s.own (lineageKey newer) newer.generation = some (.done false)

theorem uses_heedNewer (policy : SecretSelectionPolicy) (newer : DelegateLineageEntry) :
    (heedNewer policy newer).run.Uses ReadCall := by
  refine uses_run_bind (uses_run_lift (uses_exactMarker ..)) ?_
  intro read
  split
  · exact uses_pure _
  · exact uses_pure _
  · exact uses_pure _
  · exact uses_pure _
  · split <;> exact uses_pure _

theorem uses_checkNewer (predecessors : List DelegateLineageEntry) (policy : SecretSelectionPolicy)
    (journal : MigrationJournal) (generation : UInt32) :
    (checkNewer predecessors policy journal generation).run.Uses ReadCall := by
  unfold checkNewer
  split
  · simp only
    split
    · exact uses_pure _
    · exact uses_run_foldlM _ _ fun _ newer => uses_heedNewer policy newer
  · exact uses_pure _

theorem passable_of_heed {newer : DelegateLineageEntry} {value : Unit}
    (run : Executes successorWorld s (heedNewer policy newer).run events s' (.ok value)) :
    s' = s ∧ Passable policy s newer := by
  have still := still_of_reads run.steps (run.only (uses_heedNewer policy newer))
  refine ⟨still, ?_⟩
  obtain ⟨answer, s₁, rest, rfl, read, heeded⟩ := executes_run_call.mp run
  split at heeded
  · cases (executes_run_throw.mp heeded).2.2
  · cases (executes_run_throw.mp heeded).2.2
  · cases (executes_run_throw.mp heeded).2.2
  · have own : s.own (lineageKey newer) newer.generation = some (.done false) := read.1.symm
    refine ⟨?_, ?_, fun _ => own⟩
    · rw [own]
      simp
    · rw [own]
      simp
  · rename_i marker notStarted notSealed notEmpty
    have own : s.own (lineageKey newer) newer.generation = marker := read.1.symm
    split at heeded
    · cases (executes_run_throw.mp heeded).2.2
    · rename_i goesOn
      refine ⟨?_, ?_, fun terminates => absurd terminates goesOn⟩
      · rw [own]
        exact notStarted
      · rw [own]
        exact notSealed

theorem passable_of_checks {newer : List DelegateLineageEntry} {value result : Unit}
    (run : Succeeds successorWorld (fun _ e => heedNewer policy e) s value newer events s' result) :
    ∀ e ∈ newer, Passable policy s e := by
  induction run with
  | nil => exact fun _ absent => nomatch absent
  | cons round _ ih =>
    obtain ⟨rfl, passable⟩ := passable_of_heed round
    exact List.forall_mem_cons.mpr ⟨passable, ih⟩

/-- Where the check passes, neither the journal nor an own marker stands in the way. -/
theorem passable_of_checkNewer {generation : UInt32} {value : Unit}
    (run : Executes successorWorld s (checkNewer predecessors policy journal generation).run events s'
      (.ok value)) (snapshot : isSnapshot policy = true) :
    ∀ newer ∈ predecessors, generation < newer.generation →
      holdsSnapshot journal newer = false ∧ Passable policy s newer := by
  unfold checkNewer at run
  rw [if_pos snapshot] at run
  simp only at run
  split at run
  · cases (executes_run_throw.mp run).2.2
  · rename_i none
    intro newer member later
    have among : newer ∈ predecessors.filter fun e => decide (generation < e.generation) :=
      List.mem_filter.mpr ⟨member, decide_eq_true later⟩
    refine ⟨?_, passable_of_checks (succeeds_of_executes run) newer among⟩
    have unheld := List.find?_eq_none.mp none newer among
    exact Bool.not_eq_true _ ▸ unheld

end Newer

section Stages

variable [Ciborium] {query : MarkerQuery} {binding : JournalBinding} {items : Option UInt32}
  {result : Except JournalError AppImport}

theorem uses_loadBegun : loadBegun.run.Uses ReadCall := by
  refine uses_run_bind (uses_run_lift (uses_request trivial)) ?_
  intro loaded
  split
  · exact uses_pure _
  · exact uses_pure _
  · split <;> exact uses_pure _

theorem stored_of_loadBegun
    (run : Executes successorWorld s loadBegun.run events s' (.ok journal)) :
    s' = s ∧ storedJournal s.journal = some journal := by
  obtain ⟨answer, s₁, rest, rfl, load, heeded⟩ := executes_run_call.mp run
  split at heeded
  · cases (executes_run_throw.mp heeded).2.2
  · cases (executes_run_throw.mp heeded).2.2
  · split at heeded
    · rename_i decoded
      obtain ⟨found, rfl⟩ := load
      obtain ⟨rfl, rfl, same⟩ := executes_run_pure.mp heeded
      obtain rfl := Except.ok.inj same
      rw [← found]
      exact ⟨rfl, storedJournal_of_decode decoded⟩
    · cases (executes_run_throw.mp heeded).2.2
    · cases (executes_run_throw.mp heeded).2.2

omit [Ciborium] in
theorem uses_readMarker (query : MarkerQuery) : (readMarker query).run.Uses ReadCall := by
  refine uses_run_bind (uses_run_lift (uses_request trivial)) ?_
  intro answer
  split <;> exact uses_pure _

omit [Ciborium] in
theorem recordIntent_cases
    (run : Executes successorWorld s (recordIntent query).run events s' result) :
    (∀ key, query.predecessor.bytes ≠ key → SameMarker key s s') ∧ s'.journal = s.journal ∧
      ((result = .ok .flagged ∧ s'.marker query = some (.inProgress true)) ∨
        ∃ e, result = .error (.successor e)) := by
  obtain ⟨recorded, s₁, rest, rfl, recording, heeded⟩ := executes_run_call.mp run
  have others : ∀ key, query.predecessor.bytes ≠ key → SameMarker key s s₁ :=
    fun key other => sameMarker_of_call recording other
  have journal : s₁.journal = s.journal :=
    journalKept_successorWorld.reads (fun _ => Request.noConfusion) recording
  split at heeded
  · obtain ⟨rfl, rfl, rfl⟩ := executes_run_throw.mp heeded
    exact ⟨others, journal, .inr ⟨_, rfl⟩⟩
  · obtain ⟨readBack, s₂, more, rfl, reading, answered⟩ := executes_run_call.mp heeded
    have still : s₂ = s₁ := still_of_read reading trivial
    split at answered
    · obtain ⟨rfl, rfl, rfl⟩ := executes_run_pure.mp answered
      rw [still]
      exact ⟨others, journal, .inl ⟨rfl, reading.1.symm⟩⟩
    · obtain ⟨rfl, rfl, rfl⟩ := executes_run_throw.mp answered
      rw [still]
      exact ⟨others, journal, .inr ⟨_, rfl⟩⟩

theorem importable_of_storeMerged {e : JournalError} {after : MigrationJournal}
    (run : Executes successorWorld s (storeMerged journal (some binding) none) events s'
      (.error e, after)) : ∀ why, e ≠ .notImportable why := by
  have secures : (storeMerged journal (some binding) none).Secures successorWorld (fun _ => True)
      fun result => ∀ why, result.1 ≠ .error (.notImportable why) := by
    have store : ∀ merged : MigrationJournal, ((do
        let stored ← storeJournal merged.encode
        return (stored.mapError fun e => .successor s!"journal store failed: {e}", merged)) :
          Migration (Except JournalError Unit × MigrationJournal)).Secures successorWorld
            (fun _ => True) fun result => ∀ why, result.1 ≠ .error (.notImportable why) := by
      intro merged
      refine secures_call fun _ answer _ _ _ => ⟨trivial, secures_pure ?_⟩
      cases answer <;> simp [Except.mapError]
    refine secures_call fun _ loaded _ _ _ => ⟨trivial, ?_⟩
    split
    · exact secures_pure (by simp)
    · exact store _
    · split
      · exact store _
      · exact secures_pure (by simp)
      · exact secures_pure (by simp)
  intro why same
  exact (secures.executes run trivial).2 why (congrArg Except.error same)

/-- What an app's import that was flagged leaves: the import under way in the journal and by its
    own marker, and everything else as it was. -/
structure Flags (s s' : Successor) (held : MigrationJournal) (query : MarkerQuery) : Prop where
  intent : s'.marker query = some (.inProgress true)
  others : ∀ key, query.predecessor.bytes ≠ key → SameMarker key s s'
  stored : ∃ after, storedJournal s'.journal = some after ∧
    (∃ state, after.state query.predecessor.bytes = some state ∧ Underway state) ∧
    ∀ {holds : JournalState → Prop}, Trait holds → ∀ key, query.predecessor.bytes ≠ key →
      HasTrait holds held key → HasTrait holds after key

variable [LawfulCiborium] {held : MigrationJournal}

omit [Ciborium] [LawfulCiborium] in
theorem noData_of_holdsData {key : DelegateKey} (unheld : holdsData journal key = false)
    {state : JournalState} (found : journal.state key.bytes = some state) :
    ∀ resolution, state = .resolved resolution → resolution.isDataBearing = false := by
  rintro resolution rfl
  unfold holdsData at unheld
  rw [entry_state, found] at unheld
  exact unheld

omit [Ciborium] [LawfulCiborium] in
theorem underway_flagState {state : JournalState}
    (noData : ∀ resolution, state = .resolved resolution → resolution.isDataBearing = false) :
    Underway (flagState items state) := by
  cases items with
  | none => exact underway_startImport noData
  | some n => exact underway_raiseCount (underway_startImport noData)

omit [Ciborium] [LawfulCiborium] in
theorem underway_flag {key : DelegateKey} {generation : UInt32}
    (listed : (held.state key.bytes).isSome) (unheld : holdsData (held.rebind binding) key = false) :
    ∃ state, ((⟨held.rebind binding, none⟩ : JournalWatch).flag key generation items).1.state
      key.bytes = some state ∧ Underway state := by
  obtain ⟨state, had⟩ := Option.isSome_iff_exists.mp listed
  have working : (held.rebind binding).state key.bytes = some (effective state binding) := by
    rw [state_rebind, had]
    rfl
  refine ⟨flagState items (effective state binding), ?_, ?_⟩
  · rw [JournalWatch.state_flag, if_pos rfl]
    exact congrArg (fun state => some (flagState items state)) (current_of_state working)
  · exact underway_flagState (noData_of_holdsData unheld working)

omit [Ciborium] [LawfulCiborium] in
theorem unheld_of_underway {key : DelegateKey} {state : JournalState}
    (found : journal.state key.bytes = some state) (underway : Underway state) :
    holdsData journal key = false := by
  unfold holdsData
  rw [entry_state, found]
  cases state with
  | pending => rfl
  | resolved => exact underway.elim

omit [LawfulCiborium] in
theorem flags_of_recordIntent {s₁ : Successor} {after : MigrationJournal} {state : JournalState}
    (others : ∀ key, query.predecessor.bytes ≠ key → SameMarker key s s₁)
    (found : storedJournal s₁.journal = some after)
    (shown : after.state query.predecessor.bytes = some state) (underway : Underway state)
    (kept : ∀ {holds : JournalState → Prop}, Trait holds → ∀ key, query.predecessor.bytes ≠ key →
      HasTrait holds held key → HasTrait holds after key)
    (run : Executes successorWorld s₁ (recordIntent query).run events s' result) :
    (result = .ok .flagged ∧ Flags s s' held query) ∨
      ∃ e, result = .error e ∧ ∀ why, e ≠ .notImportable why := by
  obtain ⟨beside, unmoved, ⟨ok, intent⟩ | ⟨e, failed⟩⟩ := recordIntent_cases run
  · refine .inl ⟨ok, intent, fun key other => (others key other).trans (beside key other), after, ?_,
      ⟨state, shown, underway⟩, kept⟩
    rw [unmoved]
    exact found
  · exact .inr ⟨_, failed, fun _ => JournalError.noConfusion⟩

/-- Once nothing stands in its way an import is flagged, or the successor fails. -/
theorem flags_of_flagAppImport (found : storedJournal s.journal = some held)
    (listed : (held.state query.predecessor.bytes).isSome)
    (unheld : holdsData (held.rebind binding) query.predecessor = false)
    (run : Executes successorWorld s
      (flagAppImport (held.rebind binding) binding query items).run events s' result) :
    (result = .ok .flagged ∧ Flags s s' held query) ∨
      ∃ e, result = .error e ∧ ∀ why, e ≠ .notImportable why := by
  obtain ⟨state, had⟩ := Option.isSome_iff_exists.mp listed
  have working : (held.rebind binding).state query.predecessor.bytes =
      some (effective state binding) := by
    rw [state_rebind, had]
    rfl
  obtain ⟨marked, flagged, underway⟩ :
      ∃ state, ((⟨held.rebind binding, none⟩ : JournalWatch).flag query.predecessor query.generation
        items).1.state query.predecessor.bytes = some state ∧ Underway state :=
    underway_flag listed unheld
  have apart : ∀ key, query.predecessor.bytes ≠ key →
      ((⟨held.rebind binding, none⟩ : JournalWatch).flag query.predecessor query.generation
        items).1.state key = (held.rebind binding).state key := by
    intro key other
    rw [JournalWatch.state_flag, if_neg other]
  unfold flagAppImport at run
  simp only at run
  split at run
  · obtain ⟨storing, s₁, ⟨stored, after⟩, rest, rfl, storeRun, finish⟩ := executes_run_bind_lift.mp run
    cases stored with
    | error e =>
      obtain ⟨rfl, rfl, rfl⟩ := executes_run_throw.mp finish
      exact .inr ⟨e, rfl, importable_of_storeMerged storeRun⟩
    | ok =>
      have stores := stores_of_executes storeRun
      have written := stores.stored_of_ok journalKept_successorWorld
      have merged : after = ((⟨held.rebind binding, none⟩ : JournalWatch).flag query.predecessor
          query.generation items).1.mergeStored held (some binding) := by
        rcases stores.stored_cases journalKept_successorWorld with ⟨-, other⟩ | ⟨-, merges⟩
        · exact absurd rfl other
        · exact merges.of_found journalKept_successorWorld found
      have stays : ∀ key, SameMarker key s s₁ := fun key =>
        sameMarker_of_steps storeRun.steps
          ((storeRun.only (uses_storeMerged ..)).mono fun _ => JournalCall.notMarking)
      have both : ∃ state, after.state query.predecessor.bytes = some state ∧ Underway state := by
        rw [merged, state_mergeStored, had, flagged]
        refine ⟨_, rfl, underway_mergeStates (trait_underway.effective binding underway) ?_⟩
        exact noData_of_holdsData unheld working
      obtain ⟨state, shown, importing⟩ := both
      have unresolved := unheld_of_underway shown importing
      simp only [unresolved, Bool.false_eq_true, if_false] at finish
      refine flags_of_recordIntent (fun key _ => stays key) ?_ shown importing ?_ finish
      · rw [written]
        exact storedJournal_encode after
      · intro holds trait key other has
        rw [merged]
        exact ((has.rebind trait binding).of_state (apart key other)).mergeStored trait has binding
  · rename_i unchanged
    have unmoved := JournalWatch.state_flag_of_unchanged (Bool.not_eq_true _ ▸ unchanged)
      query.predecessor.bytes
    have shown : effective state binding = marked := by
      have same := flagged.symm.trans unmoved
      exact Option.some.inj (working.symm.trans same.symm)
    exact flags_of_recordIntent (fun key _ => .refl key s) found had
      (underway_of_effective (shown ▸ underway)) (fun _ _ _ has => has) run

theorem importUnlessComplete_cases (found : storedJournal s.journal = some held)
    (listed : (held.state query.predecessor.bytes).isSome)
    (run : Executes successorWorld s
      (importUnlessComplete (held.rebind binding) binding query items).run events s' result) :
    (s' = s ∧ result ≠ .ok .flagged) ∨ (result = .ok .flagged ∧ Flags s s' held query) ∨
      ∃ e, result = .error e ∧ ∀ why, e ≠ .notImportable why := by
  unfold importUnlessComplete at run
  split at run
  · obtain ⟨rfl, rfl, rfl⟩ := executes_run_pure.mp run
    exact .inl ⟨rfl, by simp⟩
  · rename_i unheld
    rcases executes_run_bind.mp run with ⟨e, rfl, failing⟩ |
      ⟨reading, s₁, marker, rest, rfl, asked, heeded⟩
    · exact .inl ⟨still_of_reads failing.steps (failing.only (uses_readMarker query)), by simp⟩
    · have still := still_of_reads asked.steps (asked.only (uses_readMarker query))
      rw [still] at heeded
      split at heeded
      · split at heeded
        · rcases executes_run_bind.mp heeded with ⟨e, rfl, failing⟩ |
            ⟨checking, s₂, own, more, rfl, checked, judged⟩
          · exact .inl ⟨still_of_reads failing.steps (failing.only (uses_readMarker _)), by simp⟩
          · have still' := still_of_reads checked.steps (checked.only (uses_readMarker _))
            split at judged
            · obtain ⟨rfl, rfl, rfl⟩ := executes_run_pure.mp judged
              exact .inl ⟨still', by simp⟩
            · obtain ⟨rfl, rfl, rfl⟩ := executes_run_throw.mp judged
              exact .inl ⟨still', by simp⟩
        · obtain ⟨rfl, rfl, rfl⟩ := executes_run_pure.mp heeded
          exact .inl ⟨rfl, by simp⟩
      · exact .inr (flags_of_flagAppImport found listed (Bool.not_eq_true _ ▸ unheld) heeded)

/-- What announcing an import comes to: nothing is written, or nothing newer stands in its way and
    it is flagged, or the successor fails. -/
theorem note_cases {predecessor : DelegateKey} {importRevision : UInt32}
    (run : Executes successorWorld s
      (noteAppImportStarted predecessors predecessor policy importRevision items).run events s'
        result) :
    (s' = s ∧ result ≠ .ok .flagged) ∨
      ∃ e held, (predecessors.find? fun e => decide (lineageKey e = predecessor)) = some e ∧
        storedJournal s.journal = some held ∧
        (isSnapshot policy = true → ∀ newer ∈ predecessors, e.generation < newer.generation →
          holdsSnapshot held newer = false ∧ Passable policy s newer) ∧
        ((result = .ok .flagged ∧ Flags s s' held ⟨predecessor, e.generation, policy.legacyBridge⟩) ∨
          ∃ err, result = .error err ∧ ∀ why, err ≠ .notImportable why) := by
  unfold noteAppImportStarted at run
  split at run
  · obtain ⟨rfl, rfl, rfl⟩ := executes_run_throw.mp run
    exact .inl ⟨rfl, by simp⟩
  · rename_i e among
    rcases executes_run_bind.mp run with ⟨err, rfl, failing⟩ |
      ⟨loading, s₁, held, rest, rfl, loaded, judged⟩
    · exact .inl ⟨still_of_reads failing.steps (failing.only uses_loadBegun), by simp⟩
    · obtain ⟨rfl, found⟩ := stored_of_loadBegun loaded
      split at judged
      · obtain ⟨rfl, rfl, rfl⟩ := executes_run_throw.mp judged
        exact .inl ⟨rfl, by simp⟩
      · rename_i present
        have listed : (held.state predecessor.bytes).isSome := by
          rw [Bool.not_eq_true] at present
          rw [← entry_state, Option.isSome_map, ← Option.not_isNone, present]
          rfl
        rcases executes_run_bind.mp judged with ⟨err, rfl, failing⟩ |
          ⟨checking, s₂, value, more, rfl, checked, imported⟩
        · exact .inl ⟨still_of_reads failing.steps (failing.only (uses_checkNewer ..)), by simp⟩
        · have still := still_of_reads checked.steps (checked.only (uses_checkNewer ..))
          rw [still] at imported
          rcases importUnlessComplete_cases found listed imported with same | done
          · exact .inl same
          · exact .inr ⟨e, held, among, found, passable_of_checkNewer checked, done⟩

end Stages

end FreenetMigrate.Migrate
