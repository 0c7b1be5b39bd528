import FreenetMigrate.Migrate.Storing

namespace FreenetMigrate.Migrate

open Calls Journal MigrationJournal

variable {State : Type} {world : World Request Answer State} {s s' : State} {events : History}
  {predecessors : List DelegateLineageEntry} {policy : SecretSelectionPolicy}

inductive Seeds (world : World Request Answer State) (s : State) (policy : SecretSelectionPolicy)
    (journal : MigrationJournal) (e : DelegateLineageEntry) :
    History → State → MigrationJournal → Prop
  | started {s' : State}
      (read : world s (.migrationMarker ⟨lineageKey e, e.generation, policy.legacyBridge⟩)
        (.ok (some (.inProgress true))) s') :
      Seeds world s policy journal e
        [⟨.migrationMarker ⟨lineageKey e, e.generation, policy.legacyBridge⟩,
          .ok (some (.inProgress true))⟩] s' (journal.markImportStarted (lineageKey e) e.generation).1
  | empty {s' : State}
      (read : world s (.migrationMarker ⟨lineageKey e, e.generation, policy.legacyBridge⟩)
        (.ok (some (.done false))) s') :
      Seeds world s policy journal e
        [⟨.migrationMarker ⟨lineageKey e, e.generation, policy.legacyBridge⟩,
          .ok (some (.done false))⟩] s' (journal.record (lineageKey e) e.generation (.resolved .noData))
  | sealedAbove {marker : Option MigrationMarker} {s₁ s' : State}
      (above : policy.legacyBridge = .atOrAboveGeneration)
      (read : world s (.migrationMarker ⟨lineageKey e, e.generation, policy.legacyBridge⟩)
        (.ok (some (.done true))) s₁)
      (checked : world s₁ (.migrationMarker ⟨lineageKey e, e.generation, .exactGenerationOnly⟩)
        (.ok marker) s') :
      Seeds world s policy journal e
        [⟨.migrationMarker ⟨lineageKey e, e.generation, policy.legacyBridge⟩,
          .ok (some (.done true))⟩,
          ⟨.migrationMarker ⟨lineageKey e, e.generation, .exactGenerationOnly⟩, .ok marker⟩] s'
        (seedSealed journal e marker)
  | sealedExactly {s' : State} (exactly : policy.legacyBridge = .exactGenerationOnly)
      (read : world s (.migrationMarker ⟨lineageKey e, e.generation, policy.legacyBridge⟩)
        (.ok (some (.done true))) s') :
      Seeds world s policy journal e
        [⟨.migrationMarker ⟨lineageKey e, e.generation, policy.legacyBridge⟩,
          .ok (some (.done true))⟩] s'
        (journal.record (lineageKey e) e.generation (.resolved .imported))
  | unsealed {marker : Option MigrationMarker} {s' : State}
      (read : world s (.migrationMarker ⟨lineageKey e, e.generation, policy.legacyBridge⟩)
        (.ok marker) s')
      (nothing : marker = none ∨ marker = some (.inProgress false)) :
      Seeds world s policy journal e
        [⟨.migrationMarker ⟨lineageKey e, e.generation, policy.legacyBridge⟩, .ok marker⟩] s' journal

theorem seeds_of_executes {journal seeded : MigrationJournal} {e : DelegateLineageEntry}
    (run : Executes world s (seedEntry policy journal e).run events s' (.ok seeded)) :
    Seeds world s policy journal e events s' seeded := by
  unfold seedEntry at run
  obtain ⟨first, s₁, found, rest, rfl, reading, heeded⟩ := executes_run_bind_ok run
  obtain ⟨answer, same, asking⟩ := executes_run_lift.mp reading
  obtain rfl := Except.ok.inj same
  obtain ⟨rfl, read⟩ := executes_request.mp asking
  split at heeded
  · obtain ⟨rfl, rfl, same⟩ := executes_run_pure.mp heeded
    obtain rfl := Except.ok.inj same
    exact .started read
  · obtain ⟨rfl, rfl, same⟩ := executes_run_pure.mp heeded
    obtain rfl := Except.ok.inj same
    exact .empty read
  · split at heeded
    · rename_i above
      obtain ⟨second, s₂, checked, more, rfl, checking, sealing⟩ := executes_run_bind_ok heeded
      obtain ⟨answer, same, asking⟩ := executes_run_lift.mp checking
      obtain rfl := Except.ok.inj same
      obtain ⟨rfl, exact'⟩ := executes_request.mp asking
      cases checked with
      | error err =>
        obtain ⟨-, -, failed⟩ := executes_run_throw.mp sealing
        cases failed
      | ok marker =>
        obtain ⟨rfl, rfl, same⟩ := executes_run_pure.mp sealing
        obtain rfl := Except.ok.inj same
        exact .sealedAbove above read exact'
    · rename_i below
      obtain ⟨rfl, rfl, same⟩ := executes_run_pure.mp heeded
      obtain rfl := Except.ok.inj same
      have exactly : policy.legacyBridge = .exactGenerationOnly := by
        cases found : policy.legacyBridge with
        | exactGenerationOnly => rfl
        | atOrAboveGeneration => exact absurd found below
      exact .sealedExactly exactly read
  · rename_i marker notStarted notEmpty notSealed
    obtain ⟨rfl, rfl, same⟩ := executes_run_pure.mp heeded
    obtain rfl := Except.ok.inj same
    refine .unsealed read ?_
    cases marker with
    | none => exact .inl rfl
    | some marker =>
      cases marker with
      | inProgress sawData =>
        cases sawData with
        | false => exact .inr rfl
        | true => exact absurd rfl notStarted
      | done hadData =>
        cases hadData with
        | false => exact absurd rfl notEmpty
        | true => exact absurd rfl notSealed
  · obtain ⟨-, -, failed⟩ := executes_run_throw.mp heeded
    cases failed

inductive Checks (world : World Request Answer State) (s : State) (progress : StartProgress)
    (e : DelegateLineageEntry) : History → State → StartProgress → Prop
  | skipped (stands : resolvedWithoutData progress.journal (lineageKey e) = false) :
      Checks world s progress e [] s progress
  | started {s' : State} (doubted : resolvedWithoutData progress.journal (lineageKey e) = true)
      (read : world s (.migrationMarker ⟨lineageKey e, e.generation, .exactGenerationOnly⟩)
        (.ok (some (.inProgress true))) s') :
      Checks world s progress e
        [⟨.migrationMarker ⟨lineageKey e, e.generation, .exactGenerationOnly⟩,
          .ok (some (.inProgress true))⟩] s'
        ⟨(progress.journal.markImportStarted (lineageKey e) e.generation).1, true,
          { progress.checks with read := progress.checks.read ++ [lineageKey e] }⟩
  | agreed {marker : Option MigrationMarker} {s' : State}
      (doubted : resolvedWithoutData progress.journal (lineageKey e) = true)
      (read : world s (.migrationMarker ⟨lineageKey e, e.generation, .exactGenerationOnly⟩)
        (.ok marker) s')
      (other : marker ≠ some (.inProgress true)) :
      Checks world s progress e
        [⟨.migrationMarker ⟨lineageKey e, e.generation, .exactGenerationOnly⟩, .ok marker⟩] s'
        { progress with
          checks := { progress.checks with read := progress.checks.read ++ [lineageKey e] } }
  | unreadable {err : String} {s' : State}
      (doubted : resolvedWithoutData progress.journal (lineageKey e) = true)
      (failed : world s (.migrationMarker ⟨lineageKey e, e.generation, .exactGenerationOnly⟩)
        (.error err) s') :
      Checks world s progress e
        [⟨.migrationMarker ⟨lineageKey e, e.generation, .exactGenerationOnly⟩, .error err⟩] s'
        { progress with
          checks := { progress.checks with
            unverified := progress.checks.unverified ++ [(lineageKey e, e.generation)] } }

theorem startImport_changed_of_noData {journal : MigrationJournal} {key : DelegateKey}
    (doubted : resolvedWithoutData journal key = true) (generation : UInt32) :
    (journal.markImportStarted key generation).2 = true := by
  rw [markImportStarted_changed]
  unfold resolvedWithoutData at doubted
  rw [entry_state] at doubted
  unfold current
  split at doubted
  · rename_i resolution held
    rw [held]
    have noData : resolution.isDataBearing = false := by simpa using doubted
    simp [startImport, noData]
  · cases doubted

theorem checks_of_executes {progress progress' : StartProgress} {e : DelegateLineageEntry}
    (run : Executes world s (checkEntry progress e) events s' progress') :
    Checks world s progress e events s' progress' := by
  unfold checkEntry at run
  simp only at run
  split at run
  · rename_i doubted
    obtain ⟨answer, s₁, rest, rfl, read, heeded⟩ := executes_call.mp run
    cases answer with
    | error err =>
      obtain ⟨rfl, rfl, rfl⟩ := executes_pure.mp heeded
      exact .unreadable doubted read
    | ok marker =>
      simp only at heeded
      split at heeded
      · rename_i same
        obtain ⟨rfl, rfl, rfl⟩ := executes_pure.mp heeded
        rw [startImport_changed_of_noData doubted, Bool.or_true, same]
        exact .started doubted (same ▸ read)
      · rename_i other
        obtain ⟨rfl, rfl, rfl⟩ := executes_pure.mp heeded
        exact .agreed doubted read other
  · rename_i stands
    obtain ⟨rfl, rfl, rfl⟩ := executes_pure.mp run
    exact .skipped (Bool.not_eq_true _ ▸ stands)

theorem uses_checkEntry (progress : StartProgress) (e : DelegateLineageEntry) :
    (checkEntry progress e).Uses ReadCall := by
  unfold checkEntry
  simp only
  split
  · refine uses_bind (uses_exactMarker ..) ?_
    intro read
    split
    · split <;> exact uses_pure _
    · exact uses_pure _
  · exact uses_pure _

theorem Checks.unchanged {progress progress' : StartProgress} {e : DelegateLineageEntry}
    (checks : Checks world s progress e events s' progress') (same : progress'.changed = false) :
    progress'.journal = progress.journal ∧ progress.changed = false := by
  cases checks with
  | started => cases same
  | skipped | agreed | unreadable => exact ⟨rfl, same⟩

theorem journal_of_unchanged {progress progress' : StartProgress} {rounds : List History}
    (run : Iterates world checkEntry s progress predecessors rounds s' progress')
    (same : progress'.changed = false) :
    progress'.journal = progress.journal ∧ progress.changed = false := by
  induction run with
  | nil => exact ⟨rfl, same⟩
  | cons round _ ih =>
    obtain ⟨later, unchanged⟩ := ih same
    obtain ⟨first, before⟩ := (checks_of_executes round).unchanged unchanged
    exact ⟨later.trans first, before⟩

section Starting

variable [Ciborium] {binding : JournalBinding}

inductive Starts (world : World Request Answer State) (s : State)
    (predecessors : List DelegateLineageEntry) (policy : SecretSelectionPolicy)
    (binding : JournalBinding) : History → State → Started → MarkerChecks → Prop
  | fresh {found : Option Bytes} {seeding : History} {s₁ s' : State} {journal : MigrationJournal}
      (loaded : world s .loadJournal (.ok found) s₁)
      (unreadable : ∀ bytes, found = some bytes → ∃ e, decode bytes = .error (.corrupt e))
      (seeded : Executes world s₁ (freshJournal predecessors policy).run seeding s' (.ok journal)) :
      Starts world s predecessors policy binding (⟨.loadJournal, .ok found⟩ :: seeding) s'
        (.new journal) ⟨predecessors.map lineageKey, []⟩
  | known {bytes : Bytes} {checking : History} {s₁ s' : State} {journal : MigrationJournal}
      {progress : StartProgress} (loaded : world s .loadJournal (.ok (some bytes)) s₁)
      (decoded : decode bytes = .ok journal)
      (checked : Executes world s₁ (predecessors.foldlM checkEntry ⟨journal, false, [], []⟩) checking s'
        progress)
      (allSeen : ∀ e ∈ predecessors, (progress.journal.entry (lineageKey e)).isSome) :
      Starts world s predecessors policy binding (⟨.loadJournal, .ok (some bytes)⟩ :: checking) s'
        (if progress.changed then .new progress.journal else .existing progress.journal)
        progress.checks
  | extended {bytes : Bytes} {checking seeding : History} {s₁ s₂ s' : State}
      {journal seeded : MigrationJournal} {progress : StartProgress}
      (loaded : world s .loadJournal (.ok (some bytes)) s₁) (decoded : decode bytes = .ok journal)
      (checked : Executes world s₁ (predecessors.foldlM checkEntry ⟨journal, false, [], []⟩) checking s₂
        progress)
      (read : Executes world s₂ (freshJournal
        (predecessors.filter fun e => (progress.journal.entry (lineageKey e)).isNone) policy).run seeding
        s' (.ok seeded)) :
      Starts world s predecessors policy binding
        (⟨.loadJournal, .ok (some bytes)⟩ :: (checking ++ seeding)) s'
        (.new (seeded.mergeStored progress.journal (some binding)))
        { progress.checks with
          read := progress.checks.read ++ (predecessors.filter fun e =>
            (progress.journal.entry (lineageKey e)).isNone).map lineageKey }

theorem starts_of_executes {started : Started} {checks : MarkerChecks}
    (run : Executes world s (startJournal predecessors policy binding).run events s'
      (.ok (started, checks))) :
    Starts world s predecessors policy binding events s' started checks := by
  unfold startJournal at run
  obtain ⟨first, s₁, found, rest, rfl, loading, afterLoad⟩ := executes_run_bind_ok run
  obtain ⟨answer, same, reading⟩ := executes_run_lift.mp loading
  obtain rfl := Except.ok.inj same
  obtain ⟨rfl, loaded⟩ := executes_request.mp reading
  have fresh : ∀ found, (∀ bytes, found = some bytes → ∃ e, decode bytes = .error (.corrupt e)) →
      world s .loadJournal (.ok found) s₁ →
      Executes world s₁ (do
        let journal ← freshJournal predecessors policy
        return (Started.new journal, (⟨predecessors.map lineageKey, []⟩ : MarkerChecks)) :
          Fallible (Started × MarkerChecks)).run rest s' (.ok (started, checks)) →
      Starts world s predecessors policy binding (⟨.loadJournal, .ok found⟩ :: rest) s' started checks := by
    intro found unreadable loaded next
    obtain ⟨seeding, s₂, journal, more, rfl, seeded, done⟩ := executes_run_bind_ok next
    obtain ⟨rfl, rfl, same⟩ := executes_run_pure.mp done
    obtain ⟨rfl, rfl⟩ := Prod.mk.inj (Except.ok.inj same)
    rw [List.append_nil]
    exact .fresh loaded unreadable seeded
  cases found with
  | error e =>
    obtain ⟨-, -, failed⟩ := executes_run_throw.mp afterLoad
    cases failed
  | ok found =>
    cases found with
    | none => exact fresh none (by simp) loaded afterLoad
    | some bytes =>
      simp only at afterLoad
      split at afterLoad
      · obtain ⟨-, -, failed⟩ := executes_run_throw.mp afterLoad
        cases failed
      · rename_i e corrupt
        refine fresh (some bytes) ?_ loaded afterLoad
        intro other same
        exact ⟨e, Option.some.inj same ▸ corrupt⟩
      · rename_i journal decoded
        obtain ⟨checking, s₂, progress, later, rfl, lifted, afterChecks⟩ := executes_run_bind_ok afterLoad
        obtain ⟨_, same, checked⟩ := executes_run_lift.mp lifted
        obtain rfl := Except.ok.inj same
        split at afterChecks
        · rename_i allSeen
          obtain ⟨rfl, rfl, same⟩ := executes_run_pure.mp afterChecks
          obtain ⟨rfl, rfl⟩ := Prod.mk.inj (Except.ok.inj same)
          rw [List.append_nil]
          refine .known loaded decoded checked ?_
          intro e member
          have kept := List.filter_eq_nil_iff.mp (List.isEmpty_iff.mp allSeen) e member
          simpa [Option.isSome_iff_ne_none] using kept
        · obtain ⟨seeding, s₃, seeded, more, rfl, read, done⟩ := executes_run_bind_ok afterChecks
          obtain ⟨rfl, rfl, same⟩ := executes_run_pure.mp done
          obtain ⟨rfl, rfl⟩ := Prod.mk.inj (Except.ok.inj same)
          rw [List.append_nil, List.singleton_append]
          exact .extended loaded decoded checked read

theorem uses_startJournal : (startJournal predecessors policy binding).run.Uses ReadCall := by
  have fresh : (do
      let journal ← freshJournal predecessors policy
      return (Started.new journal, (⟨predecessors.map lineageKey, []⟩ : MarkerChecks)) :
        Fallible (Started × MarkerChecks)).run.Uses ReadCall := by
    refine uses_run_bind (uses_freshJournal ..) ?_
    intro journal
    exact uses_pure _
  refine uses_run_bind (uses_run_lift (uses_request trivial)) ?_
  intro loaded
  split
  · exact uses_pure _
  · exact fresh
  · split
    · exact uses_pure _
    · exact fresh
    · refine uses_run_bind (uses_run_lift (uses_foldlM _ _ uses_checkEntry)) ?_
      intro progress
      simp only
      split
      · exact uses_pure _
      · refine uses_run_bind (uses_freshJournal ..) ?_
        intro seeded
        exact uses_pure _

end Starting

end FreenetMigrate.Migrate
