import FreenetMigrate.Migrate.Storing
import FreenetMigrate.Migrate.Walk

namespace FreenetMigrate.Migrate

open Calls Journal

variable {State Observed : Type}

def believed (known : Bool) : Option MigrationMarker → Bool
  | some (.done hadData) => hadData || !known
  | _ => false

def askedOf (known : Bool) (row : DelegateKey × UInt32) (marker : Option MigrationMarker) : Asked :=
  ⟨row.1, row.2, marker, marker.isSome || known, decide (marker = some (.inProgress true)) || known⟩

section Stages

variable (observer : WalkObserver Observed) (policy : SecretSelectionPolicy)
  (world : World Request Answer State) (s : State) (state : WalkState Observed)
  (row : DelegateKey × UInt32)

/-- A row the journal says nothing final of, and whose marker was read. -/
structure Opens (marker : Option MigrationMarker) (s' : State) : Prop where
  live : state.terminated = false
  unresolved : observer.resolvedWithData state.observed row.1 = none
  read : world s (.migrationMarker ⟨row.1, row.2, policy.legacyBridge⟩) (.ok marker) s'

inductive Asks : Asked → History → State → Observed → Prop
  | fresh {marker : Option MigrationMarker} {s' : State}
      (opens : Opens observer policy world s state row marker s')
      (unsealed : believed (knownData observer state row.1) marker = false)
      (noPrior : (askedOf (knownData observer state row.1) row marker).priorSawData = false) :
      Asks (askedOf (knownData observer state row.1) row marker)
        [⟨.migrationMarker ⟨row.1, row.2, policy.legacyBridge⟩, .ok marker⟩] s' state.observed
  | flagged {marker : Option MigrationMarker} {s₁ s' : State} {events : History} {observed : Observed}
      (opens : Opens observer policy world s state row marker s₁)
      (unsealed : believed (knownData observer state row.1) marker = false)
      (prior : (askedOf (knownData observer state row.1) row marker).priorSawData = true)
      (told : Executes world s₁ (observer.beforeImport state.observed row.1 row.2 none) events s'
        (.ok (), observed)) :
      Asks (askedOf (knownData observer state row.1) row marker)
        (⟨.migrationMarker ⟨row.1, row.2, policy.legacyBridge⟩, .ok marker⟩ :: events) s' observed

inductive Exports : Asked → List SecretPair → History → State → Observed → Prop
  | mk {asked : Asked} {secrets : List SecretPair} {events : History} {s₁ s₂ s' : State}
      {observed : Observed} (asks : Asks observer policy world s state row asked events s₁ observed)
      (probed : world s₁ (.probeVerdict asked.key) (.ok .executable) s₂)
      (fetched : world s₂ (.fetchSecrets asked.key) (.ok secrets) s') :
      Exports asked secrets
        (events ++ [⟨.probeVerdict asked.key, .ok .executable⟩,
          ⟨.fetchSecrets asked.key, .ok secrets⟩]) s' observed

/-- An export that is gone on with: nothing where nothing was known, or data that is flagged. -/
inductive Engages : Asked → List SecretPair → Bool → History → State → Observed → Prop
  | nothing {asked : Asked} {secrets : List SecretPair} {events : History} {s' : State}
      {observed : Observed}
      (exports : Exports observer policy world s state row asked secrets events s' observed)
      (empty : offerable observer secrets = []) (noPrior : asked.priorSawData = false) :
      Engages asked [] false events s' observed
  | data {asked : Asked} {secrets : List SecretPair} {events flagEvents : History} {s₁ s' : State}
      {before observed : Observed}
      (exports : Exports observer policy world s state row asked secrets events s₁ before)
      (nonempty : offerable observer secrets ≠ [])
      (told : Executes world s₁ (observer.beforeImport before asked.key asked.generation
        (some (distinctKeys (offerable observer secrets)))) flagEvents s' (.ok (), observed))
      (enough : ¬ distinctKeys (offerable observer secrets) < observer.itemsSeen observed asked.key) :
      Engages asked (offerable observer secrets) true (events ++ flagEvents) s' observed

/-- An import that was begun: its marker recorded, and read back over an empty seal. -/
inductive Begins : Asked → List SecretPair → Bool → History → State → Observed → Prop
  | unsealed {asked : Asked} {items : List SecretPair} {sawData : Bool} {events : History}
      {s₁ s' : State} {observed : Observed}
      (engages : Engages observer policy world s state row asked items sawData events s₁ observed)
      (begun : world s₁ (.recordMarker asked.key (.inProgress sawData)) (.ok ()) s')
      (noSeal : asked.marker ≠ some (.done false)) :
      Begins asked items sawData
        (events ++ [⟨.recordMarker asked.key (.inProgress sawData), .ok ()⟩]) s' observed
  | overSeal {asked : Asked} {items : List SecretPair} {sawData : Bool} {events : History}
      {s₁ s₂ s' : State} {observed : Observed}
      (engages : Engages observer policy world s state row asked items sawData events s₁ observed)
      (begun : world s₁ (.recordMarker asked.key (.inProgress sawData)) (.ok ()) s₂)
      (emptySeal : asked.marker = some (.done false))
      (readBack : world s₂ (.migrationMarker ⟨asked.key, asked.generation, policy.legacyBridge⟩)
        (.ok (some (.inProgress true))) s') :
      Begins asked items sawData
        (events ++ [⟨.recordMarker asked.key (.inProgress sawData), .ok ()⟩,
          ⟨.migrationMarker ⟨asked.key, asked.generation, policy.legacyBridge⟩,
            .ok (some (.inProgress true))⟩]) s' observed

end Stages

inductive Completes (policy : SecretSelectionPolicy) (world : World Request Answer State) (s : State)
    (state : WalkState Observed) (asked : Asked) (sawData : Bool) (offering : Offering) :
    History → State → WalkState Observed → Prop
  | flushFailed {e : String} {s' : State}
      (flushed : world s (.flushPredecessor asked.key) (.error e) s') :
      Completes policy world s state asked sawData offering
        [⟨.flushPredecessor asked.key, .error e⟩] s'
        ({ state with
          withheldKeys := state.withheldKeys ++ offering.newlyWithheld ++ offering.unflushed }.push
          (.incomplete asked.key asked.generation (offering.unflush e).tally
            (offering.unflush e).failure) (policy.dataBearingIsAuthoritative sawData))
  | unclean {s' : State} (flushed : world s (.flushPredecessor asked.key) (.ok ()) s')
      (unclean : (offering.tally.isClean && offering.failure.isNone) = false) :
      Completes policy world s state asked sawData offering
        [⟨.flushPredecessor asked.key, .ok ()⟩] s'
        ({ state with withheldKeys := state.withheldKeys ++ offering.newlyWithheld }.push
          (.incomplete asked.key asked.generation offering.tally offering.failure)
          (policy.dataBearingIsAuthoritative sawData))
  | sealRefused {e : String} {s₁ s' : State}
      (flushed : world s (.flushPredecessor asked.key) (.ok ()) s₁)
      (clean : (offering.tally.isClean && offering.failure.isNone) = true)
      (refused : world s₁ (.recordMarker asked.key (.done sawData)) (.error e) s') :
      Completes policy world s state asked sawData offering
        [⟨.flushPredecessor asked.key, .ok ()⟩, ⟨.recordMarker asked.key (.done sawData), .error e⟩] s'
        ({ state with withheldKeys := state.withheldKeys ++ offering.newlyWithheld }.push
          (.incomplete asked.key asked.generation offering.tally (some ⟨.completeMarker, e⟩))
          (policy.dataBearingIsAuthoritative sawData))
  | completed {s₁ s' : State} (flushed : world s (.flushPredecessor asked.key) (.ok ()) s₁)
      (clean : (offering.tally.isClean && offering.failure.isNone) = true)
      (recorded : world s₁ (.recordMarker asked.key (.done sawData)) (.ok ()) s') :
      Completes policy world s state asked sawData offering
        [⟨.flushPredecessor asked.key, .ok ()⟩, ⟨.recordMarker asked.key (.done sawData), .ok ()⟩] s'
        ({ state with withheldKeys := state.withheldKeys ++ offering.newlyWithheld }.push
          (if sawData then .imported asked.key asked.generation offering.tally
            else .noData asked.key asked.generation) (policy.dataBearingIsAuthoritative sawData))

inductive Silent (world : World Request Answer State) (s : State) (asked : Asked) :
    Option String → Bool → History → State → Prop
  | notInstalled {s' : State} (probed : world s (.probeVerdict asked.key) (.ok .notInstalled) s') :
      Silent world s asked (some "not installed on this node") true
        [⟨.probeVerdict asked.key, .ok .notInstalled⟩] s'
  | noReply {s' : State} (probed : world s (.probeVerdict asked.key) (.ok .noReply) s') :
      Silent world s asked none false [⟨.probeVerdict asked.key, .ok .noReply⟩] s'
  | probeFailed {e : String} {s' : State}
      (probed : world s (.probeVerdict asked.key) (.error e) s') :
      Silent world s asked (some e) false [⟨.probeVerdict asked.key, .error e⟩] s'
  | fetchFailed {e : String} {s₁ s' : State}
      (probed : world s (.probeVerdict asked.key) (.ok .executable) s₁)
      (fetched : world s₁ (.fetchSecrets asked.key) (.error e) s') :
      Silent world s asked (some e) false
        [⟨.probeVerdict asked.key, .ok .executable⟩, ⟨.fetchSecrets asked.key, .error e⟩] s'

/-- Everything one iteration of the walk can do, with the calls it makes. -/
inductive RowRuns (observer : WalkObserver Observed) (policy : SecretSelectionPolicy)
    (world : World Request Answer State) (s : State) (state : WalkState Observed)
    (row : DelegateKey × UInt32) : History → State → WalkState Observed → Prop
  | superseded (terminated : state.terminated = true) :
      RowRuns observer policy world s state row [] s (state.push (.superseded row.1 row.2) true)
  | journalResolved {resolution : JournalResolution} (live : state.terminated = false)
      (resolved : observer.resolvedWithData state.observed row.1 = some resolution) :
      RowRuns observer policy world s state row [] s
        ({ state with
          journalResolved := (row.1.bytes, resolution) :: state.journalResolved }.push
          (.alreadyMigrated row.1 row.2) (policy.dataBearingIsAuthoritative true))
  | unreadable {e : String} {s' : State} (live : state.terminated = false)
      (unresolved : observer.resolvedWithData state.observed row.1 = none)
      (failed : world s (.migrationMarker ⟨row.1, row.2, policy.legacyBridge⟩) (.error e) s') :
      RowRuns observer policy world s state row
        [⟨.migrationMarker ⟨row.1, row.2, policy.legacyBridge⟩, .error e⟩] s'
        (state.push (.writerUnavailable row.1 row.2 ⟨.readMarker, e⟩) true)
  | emptySeal {s' : State} (opens : Opens observer policy world s state row (some (.done false)) s')
      (unknown : knownData observer state row.1 = false) :
      RowRuns observer policy world s state row
        [⟨.migrationMarker ⟨row.1, row.2, policy.legacyBridge⟩, .ok (some (.done false))⟩] s'
        (state.push (.alreadyMigrated row.1 row.2) (policy.dataBearingIsAuthoritative false))
  | dataSeal {bridged : Bool} {events : History} {s₁ s' : State}
      (opens : Opens observer policy world s state row (some (.done true)) s₁)
      (checked : Executes world s₁
        (if observer.journaled then sealIsBridged row.1 row.2 policy else pure false) events s' bridged) :
      RowRuns observer policy world s state row
        (⟨.migrationMarker ⟨row.1, row.2, policy.legacyBridge⟩, .ok (some (.done true))⟩ :: events) s'
        ((if bridged then { state with bridged := row.1.bytes :: state.bridged }
          else { state with doneWithData := row.1.bytes :: state.doneWithData }).push
          (.alreadyMigrated row.1 row.2) (policy.dataBearingIsAuthoritative true))
  | flagRefused {marker : Option MigrationMarker} {e : String} {events : History} {s₁ s' : State}
      {observed : Observed} (opens : Opens observer policy world s state row marker s₁)
      (unsealed : believed (knownData observer state row.1) marker = false)
      (prior : (askedOf (knownData observer state row.1) row marker).priorSawData = true)
      (told : Executes world s₁ (observer.beforeImport state.observed row.1 row.2 none) events s'
        (.error e, observed)) :
      RowRuns observer policy world s state row
        (⟨.migrationMarker ⟨row.1, row.2, policy.legacyBridge⟩, .ok marker⟩ :: events) s'
        ({ state with observed }.push (.writerUnavailable row.1 row.2 ⟨.journalFlag, e⟩) true)
  | silent {asked : Asked} {error : Option String} {absent : Bool} {events answers : History}
      {s₁ s' : State} {observed : Observed}
      (asks : Asks observer policy world s state row asked events s₁ observed)
      (gaveNone : Silent world s₁ asked error absent answers s') :
      RowRuns observer policy world s state row (events ++ answers) s'
        ({ state with
          observed
          notInstalled := if absent then asked.key.bytes :: state.notInstalled
            else state.notInstalled }.push (asked.unresponsive error)
          (policy.unresponsiveTerminates asked.priorSawData))
  | short {asked : Asked} {secrets : List SecretPair} {error : String} {events : History} {s' : State}
      {observed : Observed}
      (exports : Exports observer policy world s state row asked secrets events s' observed)
      (prior : asked.priorSawData = true)
      (fewer : offerable observer secrets = [] ∨
        distinctKeys (offerable observer secrets) < observer.itemsSeen observed asked.key) :
      RowRuns observer policy world s state row events s'
        ({ state with observed }.push (asked.unresponsive (some error))
          (policy.unresponsiveTerminates true))
  | importFlagRefused {asked : Asked} {secrets : List SecretPair} {e : String}
      {events flagEvents : History} {s₁ s' : State} {before observed : Observed}
      (exports : Exports observer policy world s state row asked secrets events s₁ before)
      (nonempty : offerable observer secrets ≠ [])
      (told : Executes world s₁ (observer.beforeImport before asked.key asked.generation
        (some (distinctKeys (offerable observer secrets)))) flagEvents s' (.error e, observed)) :
      RowRuns observer policy world s state row (events ++ flagEvents) s'
        ({ state with observed }.push (asked.writerUnavailable .journalFlag e) true)
  | shortAfterFlag {asked : Asked} {secrets : List SecretPair} {error : String}
      {events flagEvents : History} {s₁ s' : State} {before observed : Observed}
      (exports : Exports observer policy world s state row asked secrets events s₁ before)
      (nonempty : offerable observer secrets ≠ [])
      (told : Executes world s₁ (observer.beforeImport before asked.key asked.generation
        (some (distinctKeys (offerable observer secrets)))) flagEvents s' (.ok (), observed))
      (fewer : distinctKeys (offerable observer secrets) < observer.itemsSeen observed asked.key) :
      RowRuns observer policy world s state row (events ++ flagEvents) s'
        ({ state with observed }.push (asked.unresponsive (some error))
          (policy.unresponsiveTerminates true))
  | beginRefused {asked : Asked} {items : List SecretPair} {sawData : Bool} {e : String}
      {events : History} {s₁ s' : State} {observed : Observed}
      (engages : Engages observer policy world s state row asked items sawData events s₁ observed)
      (refused : world s₁ (.recordMarker asked.key (.inProgress sawData)) (.error e) s') :
      RowRuns observer policy world s state row
        (events ++ [⟨.recordMarker asked.key (.inProgress sawData), .error e⟩]) s'
        ({ state with observed }.push (asked.writerUnavailable .beginMarker e) true)
  | notReadBack {asked : Asked} {items : List SecretPair} {sawData : Bool} {error : String}
      {read : Except String (Option MigrationMarker)} {events : History} {s₁ s₂ s' : State}
      {observed : Observed}
      (engages : Engages observer policy world s state row asked items sawData events s₁ observed)
      (begun : world s₁ (.recordMarker asked.key (.inProgress sawData)) (.ok ()) s₂)
      (emptySeal : asked.marker = some (.done false))
      (readBack : world s₂ (.migrationMarker ⟨asked.key, asked.generation, policy.legacyBridge⟩)
        read s')
      (other : read ≠ .ok (some (.inProgress true))) :
      RowRuns observer policy world s state row
        (events ++ [⟨.recordMarker asked.key (.inProgress sawData), .ok ()⟩,
          ⟨.migrationMarker ⟨asked.key, asked.generation, policy.legacyBridge⟩, read⟩]) s'
        ({ state with observed }.push (asked.writerUnavailable .beginMarker error) true)
  | offered {asked : Asked} {items : List SecretPair} {sawData : Bool} {offering : Offering}
      {events ending : History} {rounds : List History} {s₁ s₂ s' : State}
      {observed : Observed} {state' : WalkState Observed}
      (begins : Begins observer policy world s state row asked items sawData events s₁ observed)
      (offers : Iterates world (offerItem asked state.withheldKeys) s₁ .start items rounds s₂ offering)
      (completes : Completes policy world s₂ { state with observed } asked sawData offering ending s'
        state') :
      RowRuns observer policy world s state row (events ++ rounds.flatten ++ ending) s' state'

section Inversion

variable {observer : WalkObserver Observed} {policy : SecretSelectionPolicy}
  {world : World Request Answer State} {s s₁ s' : State} {state state' : WalkState Observed}
  {row : DelegateKey × UInt32} {asked : Asked} {items : List SecretPair} {sawData : Bool}
  {events remaining : History} {observed : Observed}

theorem completes_of_executes {offering : Offering}
    (run : Executes world s (completeImport policy state asked sawData offering) events s' state') :
    Completes policy world s state asked sawData offering events s' state' := by
  obtain ⟨answer, s₁, rest, rfl, flushed, run⟩ := executes_call.mp run
  cases answer with
  | error e =>
    obtain ⟨rfl, rfl, rfl⟩ := executes_pure.mp run
    exact .flushFailed flushed
  | ok answer =>
    simp only at run
    split at run
    · rename_i clean
      obtain ⟨answer, s₂, rest, rfl, recorded, run⟩ := executes_call.mp run
      cases answer with
      | error e =>
        obtain ⟨rfl, rfl, rfl⟩ := executes_pure.mp run
        exact .sealRefused flushed clean recorded
      | ok answer =>
        cases sawData with
        | true =>
          obtain ⟨rfl, rfl, rfl⟩ := executes_pure.mp run
          exact .completed flushed clean recorded
        | false =>
          obtain ⟨rfl, rfl, rfl⟩ := executes_pure.mp run
          exact .completed flushed clean recorded
    · rename_i unclean
      obtain ⟨rfl, rfl, rfl⟩ := executes_pure.mp run
      exact .unclean flushed (Bool.not_eq_true _ ▸ unclean)

theorem rowRuns_importItems
    (begins : Begins observer policy world s state row asked items sawData events s₁ observed)
    (run : Executes world s₁ (importItems policy { state with observed } asked items sawData)
      remaining s' state') :
    RowRuns observer policy world s state row (events ++ remaining) s' state' := by
  obtain ⟨first, s₂, offering, ending, rfl, loop, finish⟩ := executes_bind.mp run
  obtain ⟨rounds, rfl, offers⟩ := executes_foldlM.mp loop
  rw [← List.append_assoc]
  exact .offered begins offers (completes_of_executes finish)

theorem rowRuns_beginImport
    (engages : Engages observer policy world s state row asked items sawData events s₁ observed)
    (run : Executes world s₁ (beginImport policy { state with observed } asked items sawData)
      remaining s' state') :
    RowRuns observer policy world s state row (events ++ remaining) s' state' := by
  obtain ⟨answer, s₂, rest, rfl, begun, intent⟩ := executes_call.mp run
  cases answer with
  | error e =>
    obtain ⟨rfl, rfl, rfl⟩ := executes_pure.mp intent
    exact .beginRefused engages begun
  | ok answer =>
    simp only at intent
    split at intent
    · rename_i emptySeal
      obtain ⟨read, s₃, rest, rfl, readBack, heeded⟩ := executes_call.mp intent
      split at heeded
      · have begins := Begins.overSeal engages begun emptySeal readBack
        have runs := rowRuns_importItems begins heeded
        simpa using runs
      · rename_i other
        obtain ⟨rfl, rfl, rfl⟩ := executes_pure.mp heeded
        exact .notReadBack engages begun emptySeal readBack (fun same => other same)
    · rename_i noSeal
      have begins := Begins.unsealed engages begun noSeal
      have runs := rowRuns_importItems begins intent
      simpa using runs

theorem rowRuns_flagImport {secrets : List SecretPair}
    (exports : Exports observer policy world s state row asked secrets events s₁ observed)
    (nonempty : offerable observer secrets ≠ [])
    (run : Executes world s₁ (flagImport observer policy { state with observed } asked
      (offerable observer secrets) (distinctKeys (offerable observer secrets))) remaining s' state') :
    RowRuns observer policy world s state row (events ++ remaining) s' state' := by
  obtain ⟨flagEvents, s₂, ⟨flagged, seen⟩, rest, rfl, told, next⟩ := executes_bind.mp run
  cases flagged with
  | error e =>
    obtain ⟨rfl, rfl, rfl⟩ := executes_pure.mp next
    rw [List.append_nil]
    exact .importFlagRefused exports nonempty told
  | ok answer =>
    simp only at next
    split at next
    · rename_i fewer
      obtain ⟨rfl, rfl, rfl⟩ := executes_pure.mp next
      rw [List.append_nil]
      exact .shortAfterFlag exports nonempty told fewer
    · rename_i enough
      have engages := Engages.data exports nonempty told enough
      rw [← List.append_assoc]
      exact rowRuns_beginImport engages next

theorem rowRuns_judgeExport {secrets : List SecretPair}
    (exports : Exports observer policy world s state row asked secrets events s₁ observed)
    (run : Executes world s₁ (judgeExport observer policy { state with observed } asked secrets)
      remaining s' state') :
    RowRuns observer policy world s state row (events ++ remaining) s' state' := by
  unfold judgeExport at run
  simp only at run
  split at run
  · rename_i refused
    obtain ⟨rfl, rfl, rfl⟩ := executes_pure.mp run
    obtain ⟨prior, fewer⟩ := Bool.and_eq_true_iff.mp refused
    rw [List.append_nil, prior]
    refine .short exports prior ?_
    simpa using fewer
  · rename_i accepted
    split at run
    · rename_i data
      have nonempty : offerable observer secrets ≠ [] := by
        intro empty
        rw [empty] at accepted data
        simp at accepted data
        rw [data] at accepted
        cases accepted
      exact rowRuns_flagImport exports nonempty run
    · rename_i nothing
      have engages : Engages observer policy world s state row asked [] false events s₁ observed := by
        refine .nothing exports ?_ ?_
        · simp at nothing
          exact nothing.2
        · simp at nothing
          exact nothing.1
      have empty : offerable observer secrets = [] := by
        simp at nothing
        exact nothing.2
      rw [empty] at run
      exact rowRuns_beginImport engages run

theorem rowRuns_askPredecessor
    (asks : Asks observer policy world s state row asked events s₁ observed)
    (run : Executes world s₁ (askPredecessor observer policy { state with observed } asked)
      remaining s' state') :
    RowRuns observer policy world s state row (events ++ remaining) s' state' := by
  obtain ⟨verdict, s₂, rest, rfl, probed, next⟩ := executes_call.mp run
  cases verdict with
  | error e =>
    obtain ⟨rfl, rfl, rfl⟩ := executes_pure.mp next
    exact .silent asks (.probeFailed probed)
  | ok verdict =>
    cases verdict with
    | noReply =>
      obtain ⟨rfl, rfl, rfl⟩ := executes_pure.mp next
      exact .silent asks (.noReply probed)
    | notInstalled =>
      obtain ⟨rfl, rfl, rfl⟩ := executes_pure.mp next
      exact .silent asks (.notInstalled probed)
    | executable =>
      obtain ⟨answer, s₃, rest, rfl, fetched, answered⟩ := executes_call.mp next
      cases answer with
      | error e =>
        obtain ⟨rfl, rfl, rfl⟩ := executes_pure.mp answered
        exact .silent asks (.fetchFailed probed fetched)
      | ok secrets =>
        have runs := rowRuns_judgeExport (.mk asks probed fetched) answered
        simpa using runs

theorem rowRuns_flagKnownData {marker : Option MigrationMarker}
    (opens : Opens observer policy world s state row marker s₁)
    (unsealed : believed (knownData observer state row.1) marker = false)
    (run : Executes world s₁ (flagKnownData observer policy state
      (askedOf (knownData observer state row.1) row marker)) remaining s' state') :
    RowRuns observer policy world s state row
      (⟨.migrationMarker ⟨row.1, row.2, policy.legacyBridge⟩, .ok marker⟩ :: remaining) s' state' := by
  unfold flagKnownData at run
  split at run
  · rename_i prior
    obtain ⟨flagEvents, s₂, ⟨flagged, observed⟩, rest, rfl, told, next⟩ := executes_bind.mp run
    cases flagged with
    | error e =>
      obtain ⟨rfl, rfl, rfl⟩ := executes_pure.mp next
      rw [List.append_nil]
      exact .flagRefused opens unsealed prior told
    | ok answer => exact rowRuns_askPredecessor (.flagged opens unsealed prior told) next
  · rename_i noPrior
    exact rowRuns_askPredecessor (.fresh opens unsealed (Bool.not_eq_true _ ▸ noPrior)) run

theorem rowRuns_alreadyMigrated
    (opens : Opens observer policy world s state row (some (.done true)) s₁)
    (run : Executes world s₁ (alreadyMigrated observer policy state row.1 row.2 true)
      remaining s' state') :
    RowRuns observer policy world s state row
      (⟨.migrationMarker ⟨row.1, row.2, policy.legacyBridge⟩, .ok (some (.done true))⟩ :: remaining)
      s' state' := by
  simp only [alreadyMigrated, if_true] at run
  split at run
  · rename_i journaled
    obtain ⟨events, s₂, bridged, rest, rfl, read, next⟩ := executes_bind.mp run
    have checked : Executes world s₁ (if observer.journaled then sealIsBridged row.1 row.2 policy
        else pure false) events s₂ bridged := by
      rw [if_pos journaled]
      exact read
    cases bridged with
    | true =>
      obtain ⟨rfl, rfl, rfl⟩ := executes_pure.mp next
      rw [List.append_nil]
      exact .dataSeal opens checked
    | false =>
      obtain ⟨rfl, rfl, rfl⟩ := executes_pure.mp next
      rw [List.append_nil]
      exact .dataSeal opens checked
  · rename_i plain
    obtain ⟨rfl, rfl, rfl⟩ := executes_pure.mp run
    have checked : Executes world s' (if observer.journaled then sealIsBridged row.1 row.2 policy
        else pure false) [] s' false := by
      rw [if_neg plain]
      exact .done _ _
    exact .dataSeal opens checked

theorem rowRuns_heedMarker {marker : Option MigrationMarker}
    (opens : Opens observer policy world s state row marker s₁)
    (run : Executes world s₁ (heedMarker observer policy state row.1 row.2 marker)
      remaining s' state') :
    RowRuns observer policy world s state row
      (⟨.migrationMarker ⟨row.1, row.2, policy.legacyBridge⟩, .ok marker⟩ :: remaining) s' state' := by
  cases marker with
  | none => exact rowRuns_flagKnownData opens rfl run
  | some marker =>
    cases marker with
    | inProgress sawData =>
      refine rowRuns_flagKnownData opens rfl ?_
      have asked : askedOf (knownData observer state row.1) row (some (.inProgress sawData)) =
          ⟨row.1, row.2, some (.inProgress sawData), true,
            sawData || knownData observer state row.1⟩ := by
        simp [askedOf]
      rw [asked]
      exact run
    | done hadData =>
      cases hadData with
      | true => exact rowRuns_alreadyMigrated opens run
      | false =>
        cases known : knownData observer state row.1 with
        | false =>
          simp only [heedMarker, known] at run
          obtain ⟨rfl, rfl, rfl⟩ := executes_pure.mp run
          exact .emptySeal opens known
        | true =>
          simp only [heedMarker, known] at run
          refine rowRuns_flagKnownData opens (by simp [believed, known]) ?_
          rw [known]
          exact run

/-- The walk's iteration does one of the things listed, and nothing else. -/
theorem rowRuns_of_executes
    (run : Executes world s (walkRow observer policy state row) events s' state') :
    RowRuns observer policy world s state row events s' state' := by
  obtain ⟨key, generation⟩ := row
  unfold walkRow at run
  simp only at run
  split at run
  · rename_i terminated
    obtain ⟨rfl, rfl, rfl⟩ := executes_pure.mp run
    exact .superseded terminated
  · rename_i running
    have live : state.terminated = false := Bool.not_eq_true _ ▸ running
    split at run
    · rename_i resolution resolved
      obtain ⟨rfl, rfl, rfl⟩ := executes_pure.mp run
      exact .journalResolved live resolved
    · rename_i unresolved
      obtain ⟨answer, s₁, rest, rfl, read, next⟩ := executes_call.mp run
      cases answer with
      | error e =>
        obtain ⟨rfl, rfl, rfl⟩ := executes_pure.mp next
        exact .unreadable live unresolved read
      | ok marker => exact rowRuns_heedMarker ⟨live, unresolved, read⟩ next

end Inversion

structure Visit where
  row : DelegateKey × UInt32
  calls : History
  report : PredecessorMigration

theorem mem_visitCalls {visits : List Visit} {event : Event Request Answer} :
    event ∈ (visits.map Visit.calls).flatten ↔ ∃ visit ∈ visits, event ∈ visit.calls := by
  rw [← List.flatMap_def, List.mem_flatMap]

inductive Visits (observer : WalkObserver Observed) (policy : SecretSelectionPolicy)
    (world : World Request Answer State) :
    State → WalkState Observed → List Visit → State → WalkState Observed → Prop
  | nil (s : State) (state : WalkState Observed) : Visits observer policy world s state [] s state
  | cons {s s₁ s' : State} {state state₁ state' : WalkState Observed} {visit : Visit}
      {visits : List Visit}
      (round : Executes world s (walkRow observer policy state visit.row) visit.calls s₁ state₁)
      (pushed : state₁.results = state.results ++ [visit.report])
      (rest : Visits observer policy world s₁ state₁ visits s' state') :
      Visits observer policy world s state (visit :: visits) s' state'

section Facts

variable {observer : WalkObserver Observed} {policy : SecretSelectionPolicy}
  {world : World Request Answer State} {s s' : State} {state state' : WalkState Observed}
  {row : DelegateKey × UInt32} {asked : Asked} {items : List SecretPair} {sawData : Bool}
  {events : History} {observed : Observed}

def itemOf (asked : Asked) (pair : SecretPair) : RecoveredSecret :=
  ⟨asked.key, asked.generation, pair.1, pair.2, asked.retry⟩

def Offering.answered (offering : Offering) (key : Bytes) : ItemWrite → Offering
  | .written =>
    { offering with
      tally := { offering.tally with written := offering.tally.written + 1 }
      unflushed := offering.unflushed ++ [key] }
  | .alreadyAuthoritative =>
    { offering with
      tally := { offering.tally with skipped := offering.tally.skipped + 1 }
      unflushed := offering.unflushed ++ [key] }
  | .failed error .retryable =>
    { offering with
      tally := { offering.tally with failed := offering.tally.failed + 1 }
      newlyWithheld := offering.newlyWithheld ++ [key]
      failure := offering.failure.or (some ⟨.item, error⟩) }
  | .failed error .permanent =>
    { offering with
      tally := { offering.tally with rejected := offering.tally.rejected + 1 }
      failure := offering.failure.or (some ⟨.item, error⟩) }

theorem offerItem_cases {withheldKeys : List Bytes} {offering next : Offering} {pair : SecretPair}
    (run : Executes world s (offerItem asked withheldKeys offering pair) events s' next) :
    (pair.1 ∈ withheldKeys ∧ events = [] ∧ s' = s ∧
      next = { offering with tally := { offering.tally with withheld := offering.tally.withheld + 1 } }) ∨
    (pair.1 ∉ withheldKeys ∧ ∃ answer, events = [⟨.writeSecret (itemOf asked pair), answer⟩] ∧
      world s (.writeSecret (itemOf asked pair)) answer s' ∧
      next = offering.answered pair.1 answer) := by
  unfold offerItem at run
  simp only at run
  split at run
  · rename_i withheld
    obtain ⟨rfl, rfl, rfl⟩ := executes_pure.mp run
    exact .inl ⟨withheld, rfl, rfl, rfl⟩
  · rename_i open'
    obtain ⟨answer, s₁, rest, rfl, wrote, counted⟩ := executes_call.mp run
    refine .inr ⟨open', answer, ?_⟩
    cases answer with
    | written =>
      obtain ⟨rfl, rfl, rfl⟩ := executes_pure.mp counted
      exact ⟨rfl, wrote, rfl⟩
    | alreadyAuthoritative =>
      obtain ⟨rfl, rfl, rfl⟩ := executes_pure.mp counted
      exact ⟨rfl, wrote, rfl⟩
    | failed error retry =>
      cases retry with
      | retryable =>
        obtain ⟨rfl, rfl, rfl⟩ := executes_pure.mp counted
        exact ⟨rfl, wrote, rfl⟩
      | permanent =>
        obtain ⟨rfl, rfl, rfl⟩ := executes_pure.mp counted
        exact ⟨rfl, wrote, rfl⟩

theorem event_of_offers {withheldKeys : List Bytes} {offering result : Offering}
    {rounds : List History}
    (run : Iterates world (offerItem asked withheldKeys) s offering items rounds s' result) :
    ∀ event ∈ rounds.flatten, ∃ pair ∈ items, ∃ answer,
      event = ⟨.writeSecret (itemOf asked pair), answer⟩ := by
  induction run with
  | nil => simp
  | @cons _ _ _ _ _ _ pair _ _ _ round rest ih =>
    intro event member
    rw [List.flatten_cons, List.mem_append] at member
    rcases member with now | later
    · rcases offerItem_cases round with ⟨-, rfl, -, -⟩ | ⟨-, answer, rfl, -, -⟩
      · cases now
      · exact ⟨pair, List.mem_cons_self .., answer, List.mem_singleton.mp now⟩
    · obtain ⟨pair, member, answer, same⟩ := ih event later
      exact ⟨pair, List.mem_cons_of_mem _ member, answer, same⟩

structure AskedOn (observer : WalkObserver Observed) (policy : SecretSelectionPolicy)
    (world : World Request Answer State) (s : State) (state : WalkState Observed)
    (row : DelegateKey × UInt32) (calls : History) (asked : Asked) : Prop where
  opened : ∃ s₁, Opens observer policy world s state row asked.marker s₁
  same : asked = askedOf (knownData observer state row.1) row asked.marker
  unsealed : believed (knownData observer state row.1) asked.marker = false
  read : ⟨.migrationMarker ⟨row.1, row.2, policy.legacyBridge⟩, .ok asked.marker⟩ ∈ calls

theorem AskedOn.live {calls : History}
    (on : AskedOn observer policy world s state row calls asked) : state.terminated = false := by
  obtain ⟨s₁, opens⟩ := on.opened
  exact opens.live

theorem AskedOn.mono {calls more : History}
    (on : AskedOn observer policy world s state row calls asked) (among : calls ⊆ more) :
    AskedOn observer policy world s state row more asked :=
  ⟨on.opened, on.same, on.unsealed, among on.read⟩

theorem Asks.on (asks : Asks observer policy world s state row asked events s' observed) :
    AskedOn observer policy world s state row events asked := by
  cases asks with
  | fresh opens unsealed noPrior =>
    exact ⟨⟨_, opens⟩, rfl, unsealed, List.mem_cons_self ..⟩
  | flagged opens unsealed prior told =>
    exact ⟨⟨_, opens⟩, rfl, unsealed, List.mem_cons_self ..⟩

theorem Exports.on {secrets : List SecretPair}
    (exports : Exports observer policy world s state row asked secrets events s' observed) :
    AskedOn observer policy world s state row events asked := by
  cases exports with
  | mk asks probed fetched => exact asks.on.mono (List.subset_append_left ..)

theorem Exports.fetched {secrets : List SecretPair}
    (exports : Exports observer policy world s state row asked secrets events s' observed) :
    ⟨.fetchSecrets asked.key, .ok secrets⟩ ∈ events := by
  cases exports with
  | mk asks probed fetched => simp

theorem Engages.on
    (engages : Engages observer policy world s state row asked items sawData events s' observed) :
    AskedOn observer policy world s state row events asked := by
  cases engages with
  | nothing exports empty noPrior => exact exports.on
  | data exports nonempty told enough => exact exports.on.mono (List.subset_append_left ..)

theorem Begins.on
    (begins : Begins observer policy world s state row asked items sawData events s' observed) :
    AskedOn observer policy world s state row events asked := by
  cases begins with
  | unsealed engages begun noSeal => exact engages.on.mono (List.subset_append_left ..)
  | overSeal engages begun emptySeal readBack => exact engages.on.mono (List.subset_append_left ..)

theorem Begins.engages
    (begins : Begins observer policy world s state row asked items sawData events s' observed) :
    ∃ first s₁, first ⊆ events ∧
      Engages observer policy world s state row asked items sawData first s₁ observed := by
  cases begins with
  | unsealed engages begun noSeal => exact ⟨_, _, List.subset_append_left .., engages⟩
  | overSeal engages begun emptySeal readBack => exact ⟨_, _, List.subset_append_left .., engages⟩

theorem Completes.terminated {offering : Offering}
    (completes : Completes policy world s state asked sawData offering events s' state') :
    state'.terminated = policy.dataBearingIsAuthoritative sawData := by
  cases completes <;> rfl

theorem AskedOn.key {calls : History} (on : AskedOn observer policy world s state row calls asked) :
    asked.key = row.1 := by
  rw [on.same]
  rfl

theorem AskedOn.generation {calls : History} (on : AskedOn observer policy world s state row calls asked) :
    asked.generation = row.2 := by
  rw [on.same]
  rfl

/-- A hook that keeps to the journal's bookkeeping. -/
def WalkObserver.Quiet (observer : WalkObserver Observed) : Prop :=
  ∀ observed key generation items,
    (observer.beforeImport observed key generation items).Uses JournalCall

theorem quiet_noObserver : noObserver.Quiet := fun _ _ _ _ => uses_pure _

def AskingCall (key : DelegateKey) : Request → Prop
  | .probeVerdict predecessor => predecessor = key
  | .fetchSecrets predecessor => predecessor = key
  | request => JournalCall request

def PreparingCall (key : DelegateKey) : Request → Prop
  | .recordMarker predecessor (.inProgress _) => predecessor = key
  | .probeVerdict predecessor => predecessor = key
  | .fetchSecrets predecessor => predecessor = key
  | request => JournalCall request

def RowCall (key : DelegateKey) : Request → Prop
  | .recordMarker predecessor _ => predecessor = key
  | .writeSecret item => item.predecessor = key ∧ isMarker item.key = false
  | .flushPredecessor predecessor => predecessor = key
  | .probeVerdict predecessor => predecessor = key
  | .fetchSecrets predecessor => predecessor = key
  | request => JournalCall request

theorem JournalCall.asking {key : DelegateKey} {request : Request} (call : JournalCall request) :
    AskingCall key request := by
  cases request <;> first | exact call | exact call.elim

theorem AskingCall.preparing {key : DelegateKey} {request : Request} (call : AskingCall key request) :
    PreparingCall key request := by
  cases request <;> first | exact call | exact call.elim

theorem JournalCall.preparing {key : DelegateKey} {request : Request} (call : JournalCall request) :
    PreparingCall key request := call.asking.preparing

theorem PreparingCall.rowCall {key : DelegateKey} {request : Request}
    (call : PreparingCall key request) : RowCall key request := by
  cases request with
  | recordMarker predecessor marker =>
    cases marker with
    | inProgress => exact call
    | done => exact call.elim
  | writeSecret | flushPredecessor => exact call.elim
  | _ => exact call

theorem RowCall.own {key : DelegateKey} {request : Request} (call : RowCall key request) :
    ∀ item, request = .writeSecret item → isMarker item.key = false := by
  rintro item rfl
  exact call.2

theorem WalkObserver.Quiet.asking (quiet : observer.Quiet) {before after : Observed}
    {key asked : DelegateKey} {generation : UInt32} {count : Option UInt32}
    {answer : Except String Unit}
    (told : Executes world s (observer.beforeImport before asked generation count) events s'
      (answer, after)) : Only (AskingCall key) events :=
  (told.only (quiet ..)).mono fun _ => JournalCall.asking

theorem Asks.asking (quiet : observer.Quiet)
    (asks : Asks observer policy world s state row asked events s' observed) :
    Only (AskingCall row.1) events := by
  cases asks with
  | fresh => simp [AskingCall, JournalCall]
  | flagged opens unsealed prior told =>
    exact only_cons.mpr ⟨trivial, quiet.asking told⟩

theorem Exports.asking {secrets : List SecretPair} (quiet : observer.Quiet)
    (exports : Exports observer policy world s state row asked secrets events s' observed) :
    Only (AskingCall row.1) events := by
  cases exports with
  | mk asks =>
    have first := asks.asking quiet
    simp [first, AskingCall, asks.on.key]

theorem Engages.asking (quiet : observer.Quiet)
    (engages : Engages observer policy world s state row asked items sawData events s' observed) :
    Only (AskingCall row.1) events := by
  cases engages with
  | nothing exports => exact exports.asking quiet
  | data exports nonempty told =>
    exact only_append.mpr ⟨exports.asking quiet, quiet.asking told⟩

theorem Begins.prepares (quiet : observer.Quiet)
    (begins : Begins observer policy world s state row asked items sawData events s' observed) :
    Only (PreparingCall row.1) events := by
  cases begins with
  | unsealed engages | overSeal engages =>
    have first := (engages.asking quiet).mono fun _ => AskingCall.preparing
    simp [first, PreparingCall, JournalCall, engages.on.key]

theorem Silent.asking {error : Option String} {absent : Bool}
    (silent : Silent world s asked error absent events s') :
    Only (AskingCall asked.key) events := by
  cases silent <;> simp [AskingCall]

theorem Completes.calls {offering : Offering}
    (completes : Completes policy world s state asked sawData offering events s' state') :
    Only (RowCall asked.key) events ∧
      Only (fun request => ∀ item, request ≠ .writeSecret item) events := by
  cases completes <;> simp [RowCall]

theorem Engages.offered
    (engages : Engages observer policy world s state row asked items sawData events s' observed) :
    ∀ pair ∈ items, isMarker pair.1 = false ∧ observer.withholds pair.1 = false := by
  intro pair member
  cases engages with
  | nothing => cases member
  | data =>
    have kept := (List.mem_filter.mp member).2
    simpa using kept

theorem RowRuns.reads_or_asks (runs : RowRuns observer policy world s state row events s' state') :
    Only JournalCall events ∨
      ∃ asked, AskedOn observer policy world s state row events asked := by
  cases runs with
  | superseded | journalResolved => exact .inl only_nil
  | unreadable | emptySeal => exact .inl (by simp [JournalCall])
  | dataSeal opens checked =>
    refine .inl (only_cons.mpr ⟨trivial, checked.only ?_⟩)
    split
    · exact (uses_sealIsBridged ..).mono fun _ => ReadCall.journalCall
    · exact uses_pure _
  | @flagRefused marker _ _ _ _ _ opens unsealed prior told =>
    exact .inr ⟨askedOf (knownData observer state row.1) row marker, ⟨_, opens⟩, rfl, unsealed,
      List.mem_cons_self ..⟩
  | silent asks => exact .inr ⟨_, asks.on.mono (List.subset_append_left ..)⟩
  | short exports => exact .inr ⟨_, exports.on⟩
  | importFlagRefused exports | shortAfterFlag exports =>
    exact .inr ⟨_, exports.on.mono (List.subset_append_left ..)⟩
  | beginRefused engages | notReadBack engages =>
    exact .inr ⟨_, engages.on.mono (List.subset_append_left ..)⟩
  | offered begins =>
    rw [List.append_assoc]
    exact .inr ⟨_, begins.on.mono (List.subset_append_left ..)⟩

theorem RowRuns.asks_or_begins (quiet : observer.Quiet)
    (runs : RowRuns observer policy world s state row events s' state') :
    (Only (AskingCall row.1) events ∧ state'.withheldKeys = state.withheldKeys) ∨
      (∃ asked items sawData first s₁ observed e,
        events = first ++ [⟨.recordMarker asked.key (.inProgress sawData), .error e⟩] ∧
        state' = { state with observed }.push (asked.writerUnavailable .beginMarker e) true ∧
        Engages observer policy world s state row asked items sawData first s₁ observed) ∨
      (∃ asked items sawData first s₁ observed read error,
        events = first ++ [⟨.recordMarker asked.key (.inProgress sawData), .ok ()⟩,
          ⟨.migrationMarker ⟨asked.key, asked.generation, policy.legacyBridge⟩, read⟩] ∧
        state' = { state with observed }.push (asked.writerUnavailable .beginMarker error) true ∧
        asked.marker = some (.done false) ∧
        Engages observer policy world s state row asked items sawData first s₁ observed) ∨
      ∃ asked items sawData begun s₁ s₂ observed rounds offering ending,
        events = begun ++ rounds.flatten ++ ending ∧
        Begins observer policy world s state row asked items sawData begun s₁ observed ∧
        Iterates world (offerItem asked state.withheldKeys) s₁ .start items rounds s₂ offering ∧
        Completes policy world s₂ { state with observed } asked sawData offering ending s' state' := by
  cases runs with
  | superseded | journalResolved => exact .inl ⟨only_nil, rfl⟩
  | unreadable | emptySeal => exact .inl ⟨by simp [AskingCall, JournalCall], rfl⟩
  | @dataSeal bridged _ _ _ opens checked =>
    refine .inl ⟨only_cons.mpr ⟨trivial, ?_⟩, ?_⟩
    · refine (checked.only ?_).mono fun _ => JournalCall.asking
      split
      · exact (uses_sealIsBridged ..).mono fun _ => ReadCall.journalCall
      · exact uses_pure _
    · cases bridged <;> rfl
  | flagRefused opens unsealed prior told =>
    exact .inl ⟨only_cons.mpr ⟨trivial, quiet.asking told⟩, rfl⟩
  | silent asks gaveNone =>
    refine .inl ⟨only_append.mpr ⟨asks.asking quiet, ?_⟩, ?_⟩
    · rw [← asks.on.key]
      exact gaveNone.asking
    · cases gaveNone <;> rfl
  | short exports => exact .inl ⟨exports.asking quiet, rfl⟩
  | importFlagRefused exports nonempty told | shortAfterFlag exports nonempty told =>
    exact .inl ⟨only_append.mpr ⟨exports.asking quiet, quiet.asking told⟩, rfl⟩
  | beginRefused engages => exact .inr (.inl ⟨_, _, _, _, _, _, _, rfl, rfl, engages⟩)
  | notReadBack engages begun emptySeal =>
    exact .inr (.inr (.inl ⟨_, _, _, _, _, _, _, _, rfl, rfl, emptySeal, engages⟩))
  | offered begins offers completes =>
    exact .inr (.inr (.inr ⟨_, _, _, _, _, _, _, _, _, _, rfl, begins, offers, completes⟩))

theorem RowRuns.prepares_or_offers (quiet : observer.Quiet)
    (runs : RowRuns observer policy world s state row events s' state') :
    Only (PreparingCall row.1) events ∨
      ∃ asked items sawData begun s₁ s₂ observed rounds offering ending,
        events = begun ++ rounds.flatten ++ ending ∧
        Begins observer policy world s state row asked items sawData begun s₁ observed ∧
        Iterates world (offerItem asked state.withheldKeys) s₁ .start items rounds s₂ offering ∧
        Completes policy world s₂ { state with observed } asked sawData offering ending s' state' := by
  rcases runs.asks_or_begins quiet with ⟨asking, -⟩ | ⟨asked, items, sawData, first, s₁, observed, e, rfl,
    -, engages⟩ | ⟨asked, items, sawData, first, s₁, observed, read, error, rfl, -, -, engages⟩ | offers
  · exact .inl (asking.mono fun _ => AskingCall.preparing)
  · have before := (engages.asking quiet).mono fun _ => AskingCall.preparing
    exact .inl (by simp [before, PreparingCall, engages.on.key])
  · have before := (engages.asking quiet).mono fun _ => AskingCall.preparing
    exact .inl (by simp [before, PreparingCall, JournalCall, engages.on.key])
  · exact .inr offers

theorem RowRuns.written (quiet : observer.Quiet) {item : RecoveredSecret} {answer : ItemWrite}
    (runs : RowRuns observer policy world s state row events s' state')
    (written : ⟨.writeSecret item, answer⟩ ∈ events) :
    ∃ asked items sawData begun s₁ observed, begun ⊆ events ∧
      Begins observer policy world s state row asked items sawData begun s₁ observed ∧
      ∃ pair ∈ items, item = itemOf asked pair := by
  rcases runs.prepares_or_offers quiet with
    only | ⟨asked, items, sawData, begun, s₁, s₂, observed, rounds, offering, ending, rfl, begins,
      offers, completes⟩
  · exact (only _ written).elim
  · rw [List.mem_append, List.mem_append] at written
    rcases written with (before | during) | after
    · exact (begins.prepares quiet _ before).elim
    · obtain ⟨pair, member, _, same⟩ := event_of_offers offers _ during
      injection same with same
      injection same with same
      refine ⟨asked, items, sawData, begun, s₁, observed, ?_, begins, pair, member, same⟩
      rw [List.append_assoc]
      exact List.subset_append_left ..
    · exact absurd rfl (completes.calls.2 _ after item)

theorem RowRuns.calls (quiet : observer.Quiet)
    (runs : RowRuns observer policy world s state row events s' state') :
    Only (RowCall row.1) events := by
  rcases runs.prepares_or_offers quiet with
    only | ⟨asked, items, sawData, begun, s₁, s₂, observed, rounds, offering, ending, rfl, begins,
      offers, completes⟩
  · exact only.mono fun _ => PreparingCall.rowCall
  · have before := (begins.prepares quiet).mono fun _ => PreparingCall.rowCall
    have after := completes.calls.1
    rw [begins.on.key] at after
    refine only_append.mpr ⟨only_append.mpr ⟨before, ?_⟩, after⟩
    intro event member
    obtain ⟨pair, among, answer, rfl⟩ := event_of_offers offers event member
    obtain ⟨first, s₃, -, engages⟩ := begins.engages
    exact ⟨begins.on.key, (engages.offered pair among).1⟩

structure Carries (observer : WalkObserver Observed) (world : World Request Answer State)
    (row : DelegateKey × UInt32) (holds : State → Observed → Prop) : Prop where
  call : ∀ {s request answer s' observed}, world s request answer s' → holds s observed →
    (∀ bytes, request ≠ .storeJournal bytes) → holds s' observed
  tell : ∀ {s observed items events s' answer after}, Executes world s
    (observer.beforeImport observed row.1 row.2 items) events s' (answer, after) →
    holds s observed → holds s' after

section Carries

variable {holds : State → Observed → Prop}

theorem Asks.carries (carries : Carries observer world row holds)
    (asks : Asks observer policy world s state row asked events s' observed)
    (start : holds s state.observed) : holds s' observed := by
  cases asks with
  | fresh opens => exact carries.call opens.read start nofun
  | flagged opens unsealed prior told => exact carries.tell told (carries.call opens.read start nofun)

theorem Exports.carries {secrets : List SecretPair} (carries : Carries observer world row holds)
    (exports : Exports observer policy world s state row asked secrets events s' observed)
    (start : holds s state.observed) : holds s' observed := by
  cases exports with
  | mk asks probed fetched =>
    exact carries.call fetched (carries.call probed (asks.carries carries start) nofun) nofun

theorem Exports.tells {secrets : List SecretPair} {s₁ : State} {after : Observed} {count : Option UInt32}
    {flagEvents : History} {answer : Except String Unit} (carries : Carries observer world row holds)
    (exports : Exports observer policy world s state row asked secrets events s₁ observed)
    (told : Executes world s₁ (observer.beforeImport observed asked.key asked.generation count)
      flagEvents s' (answer, after)) (start : holds s state.observed) : holds s' after := by
  rw [exports.on.key, exports.on.generation] at told
  exact carries.tell told (exports.carries carries start)

theorem Engages.carries (carries : Carries observer world row holds)
    (engages : Engages observer policy world s state row asked items sawData events s' observed)
    (start : holds s state.observed) : holds s' observed := by
  cases engages with
  | nothing exports => exact exports.carries carries start
  | data exports nonempty told => exact exports.tells carries told start

theorem Begins.carries (carries : Carries observer world row holds)
    (begins : Begins observer policy world s state row asked items sawData events s' observed)
    (start : holds s state.observed) : holds s' observed := by
  cases begins with
  | unsealed engages begun => exact carries.call begun (engages.carries carries start) nofun
  | overSeal engages begun emptySeal readBack =>
    have first := carries.call begun (engages.carries carries start) nofun
    exact carries.call readBack first nofun

theorem Silent.carries {error : Option String} {absent : Bool}
    (carries : Carries observer world row holds)
    (silent : Silent world s asked error absent events s') (start : holds s observed) :
    holds s' observed := by
  cases silent with
  | notInstalled probed | noReply probed | probeFailed probed => exact carries.call probed start nofun
  | fetchFailed probed fetched => exact carries.call fetched (carries.call probed start nofun) nofun

theorem Completes.carries {offering : Offering} (carries : Carries observer world row holds)
    (completes : Completes policy world s state asked sawData offering events s' state')
    (start : holds s state.observed) : holds s' state'.observed := by
  cases completes with
  | flushFailed flushed | unclean flushed => exact carries.call flushed start nofun
  | sealRefused flushed clean recorded | completed flushed clean recorded =>
    exact carries.call recorded (carries.call flushed start nofun) nofun

theorem carries_offers {withheldKeys : List Bytes} {offering result : Offering}
    {rounds : List History} (carries : Carries observer world row holds)
    (offers : Iterates world (offerItem asked withheldKeys) s offering items rounds s' result)
    (start : holds s observed) : holds s' observed := by
  induction offers with
  | nil => exact start
  | cons round _ ih =>
    rcases offerItem_cases round with ⟨-, -, rfl, -⟩ | ⟨-, answer, -, wrote, -⟩
    · exact ih start
    · exact ih (carries.call wrote start nofun)

/-- What every call and the hook keep, an iteration keeps. -/
theorem RowRuns.carries (carries : Carries observer world row holds)
    (runs : RowRuns observer policy world s state row events s' state')
    (start : holds s state.observed) : holds s' state'.observed := by
  cases runs with
  | superseded | journalResolved => exact start
  | unreadable live unresolved failed => exact carries.call failed start nofun
  | emptySeal opens => exact carries.call opens.read start nofun
  | @dataSeal bridged _ _ _ opens checked =>
    have reads : Only ReadCall _ := checked.only (by
      split
      · exact uses_sealIsBridged ..
      · exact uses_pure _)
    have kept := checked.steps.frame (reads.mono fun _ => ReadCall.notStore)
      (fun _ _ _ _ notStore made start => carries.call made start notStore)
      (carries.call opens.read start nofun)
    cases bridged <;> exact kept
  | flagRefused opens unsealed prior told => exact carries.tell told (carries.call opens.read start nofun)
  | silent asks gaveNone => exact gaveNone.carries carries (asks.carries carries start)
  | short exports => exact exports.carries carries start
  | importFlagRefused exports nonempty told | shortAfterFlag exports nonempty told =>
    exact exports.tells carries told start
  | beginRefused engages refused => exact carries.call refused (engages.carries carries start) nofun
  | notReadBack engages begun emptySeal readBack =>
    have first := carries.call begun (engages.carries carries start) nofun
    exact carries.call readBack first nofun
  | offered begins offers completes =>
    exact completes.carries carries (carries_offers carries offers (begins.carries carries start))

end Carries

/-- Every iteration adds one row to the report, about its own predecessor. -/
theorem RowRuns.reports (runs : RowRuns observer policy world s state row events s' state') :
    ∃ report, state'.results = state.results ++ [report] ∧ report.key = row.1 ∧
      report.generation = row.2 := by
  cases runs with
  | superseded | journalResolved | unreadable | emptySeal | flagRefused =>
    exact ⟨_, rfl, rfl, rfl⟩
  | @dataSeal bridged =>
    cases bridged <;> exact ⟨_, rfl, rfl, rfl⟩
  | silent asks => exact ⟨_, rfl, asks.on.key, asks.on.generation⟩
  | short exports | importFlagRefused exports | shortAfterFlag exports =>
    exact ⟨_, rfl, exports.on.key, exports.on.generation⟩
  | beginRefused engages | notReadBack engages =>
    exact ⟨_, rfl, engages.on.key, engages.on.generation⟩
  | @offered _ _ sawData _ _ _ _ _ _ _ _ _ begins offers completes =>
    have key := begins.on.key
    have generation := begins.on.generation
    cases completes with
    | flushFailed | unclean | sealRefused => exact ⟨_, rfl, key, generation⟩
    | completed => cases sawData <;> exact ⟨_, rfl, key, generation⟩

theorem report_unique {results before : List PredecessorMigration} {one other : PredecessorMigration}
    (pushed : results = before ++ [one]) (also : results = before ++ [other]) : one = other :=
  List.singleton_inj.mp (List.append_cancel_left (pushed.symm.trans also))

theorem RowRuns.imported {key : DelegateKey} {generation : UInt32} {tally : ImportTally}
    (runs : RowRuns observer policy world s state row events s' state')
    (pushed : state'.results = state.results ++ [.imported key generation tally]) :
    ⟨.recordMarker key (.done true), .ok ()⟩ ∈ events := by
  have reported : ∀ {other}, state'.results = state.results ++ [other] →
      other = .imported key generation tally := fun also => report_unique also pushed
  cases runs with
  | @dataSeal bridged =>
    cases bridged <;> cases reported rfl
  | @offered _ _ sawData _ _ _ _ _ _ _ _ _ begins offers completes =>
    cases completes with
    | flushFailed | unclean | sealRefused => cases reported rfl
    | completed =>
      cases sawData with
      | false => cases reported rfl
      | true =>
        cases reported rfl
        simp
  | _ => cases reported rfl

theorem RowRuns.ended_of_superseded {key : DelegateKey} {generation : UInt32}
    (runs : RowRuns observer policy world s state row events s' state')
    (pushed : state'.results = state.results ++ [.superseded key generation]) :
    state.terminated = true := by
  have reported : ∀ {other}, state'.results = state.results ++ [other] →
      other = .superseded key generation := fun also => report_unique also pushed
  cases runs with
  | superseded terminated => exact terminated
  | @dataSeal bridged =>
    cases bridged <;> cases reported rfl
  | @offered _ _ sawData _ _ _ _ _ _ _ _ _ begins offers completes =>
    cases completes with
    | flushFailed | unclean | sealRefused => cases reported rfl
    | completed => cases sawData <;> cases reported rfl
  | _ => cases reported rfl

theorem RowRuns.after_end (runs : RowRuns observer policy world s state row events s' state')
    (ended : state.terminated = true) : events = [] ∧ state'.terminated = true := by
  have running : state.terminated = false → events = [] ∧ state'.terminated = true := by
    intro live
    rw [ended] at live
    cases live
  cases runs with
  | superseded => exact ⟨rfl, rfl⟩
  | journalResolved live | unreadable live => exact running live
  | emptySeal opens | dataSeal opens | flagRefused opens => exact running opens.live
  | silent asks => exact running asks.on.live
  | short exports | importFlagRefused exports | shortAfterFlag exports =>
    exact running exports.on.live
  | beginRefused engages | notReadBack engages => exact running engages.on.live
  | offered begins => exact running begins.on.live

theorem visits_of_iterates {rows : List (DelegateKey × UInt32)} {rounds : List History}
    (run : Iterates world (walkRow observer policy) s state rows rounds s' state') :
    ∃ visits : List Visit, visits.map Visit.row = rows ∧ visits.map Visit.calls = rounds ∧
      state'.results = state.results ++ visits.map Visit.report ∧
      Visits observer policy world s state visits s' state' := by
  induction run with
  | nil s state => exact ⟨[], rfl, rfl, by simp, .nil s state⟩
  | @cons _ _ _ _ _ _ row rows calls rounds round _ ih =>
    have runs := rowRuns_of_executes round
    obtain ⟨report, pushed, -⟩ := runs.reports
    obtain ⟨visits, sameRows, sameCalls, results, rest⟩ := ih
    refine ⟨⟨row, calls, report⟩ :: visits, ?_, ?_, ?_, .cons round pushed rest⟩
    · rw [List.map_cons, sameRows]
    · rw [List.map_cons, sameCalls]
    · rw [results, pushed, List.map_cons, List.append_assoc, List.singleton_append]

theorem visits_of_walk {predecessors : List DelegateLineageEntry}
    (run : Executes world s (walk observer policy predecessors observed) events s' state') :
    ∃ visits : List Visit, visits.map Visit.row = newestFirst predecessors ∧
      events = (visits.map Visit.calls).flatten ∧ state'.results = visits.map Visit.report ∧
      Visits observer policy world s (.start observed) visits s' state' := by
  obtain ⟨rounds, rfl, loop⟩ := executes_foldlM.mp run
  obtain ⟨visits, rows, calls, results, visited⟩ := visits_of_iterates loop
  exact ⟨visits, rows, by rw [calls], results, visited⟩

theorem Visits.invariant {visits : List Visit} (holds : State → WalkState Observed → Prop)
    (walked : Visits observer policy world s state visits s' state')
    (each : ∀ {s₁ s₂ : State} {state₁ state₂ : WalkState Observed}, ∀ visit ∈ visits,
      Executes world s₁ (walkRow observer policy state₁ visit.row) visit.calls s₂ state₂ →
      holds s₁ state₁ → holds s₂ state₂) (start : holds s state) : holds s' state' := by
  induction walked with
  | nil => exact start
  | cons round _ _ ih =>
    have now := each _ (List.mem_cons_self ..) round start
    exact ih (fun visit member => each visit (List.mem_cons_of_mem _ member)) now

theorem Visits.split {newer older : List Visit} {visit : Visit}
    (walked : Visits observer policy world s state (newer ++ visit :: older) s' state') :
    ∃ s₁ state₁ s₂ state₂, Visits observer policy world s state newer s₁ state₁ ∧
      Executes world s₁ (walkRow observer policy state₁ visit.row) visit.calls s₂ state₂ ∧
      state₂.results = state₁.results ++ [visit.report] ∧
      Visits observer policy world s₂ state₂ older s' state' := by
  induction newer generalizing s state with
  | nil =>
    cases walked with
    | cons round pushed rest => exact ⟨_, _, _, _, .nil s state, round, pushed, rest⟩
  | cons first newer ih =>
    cases walked with
    | cons round pushed rest =>
      obtain ⟨s₁, state₁, s₂, state₂, before, now, reported, after⟩ := ih rest
      exact ⟨s₁, state₁, s₂, state₂, .cons round pushed before, now, reported, after⟩

theorem Visits.visited {visits : List Visit} {visit : Visit}
    (walked : Visits observer policy world s state visits s' state') (member : visit ∈ visits) :
    ∃ s₁ state₁ s₂ state₂, RowRuns observer policy world s₁ state₁ visit.row visit.calls s₂ state₂ ∧
      state₂.results = state₁.results ++ [visit.report] := by
  obtain ⟨newer, older, rfl⟩ := List.append_of_mem member
  obtain ⟨s₁, state₁, s₂, state₂, -, round, pushed, -⟩ := walked.split
  exact ⟨s₁, state₁, s₂, state₂, rowRuns_of_executes round, pushed⟩

theorem visits_after_end {visits : List Visit}
    (walked : Visits observer policy world s state visits s' state')
    (ended : state.terminated = true) : ∀ visit ∈ visits, visit.calls = [] := by
  induction walked with
  | nil => simp
  | @cons _ _ _ _ _ _ visit visits round pushed rest ih =>
    obtain ⟨noCalls, still⟩ := (rowRuns_of_executes round).after_end ended
    intro other member
    rcases List.mem_cons.mp member with rfl | member
    · exact noCalls
    · exact ih still other member

theorem visits_calls (quiet : observer.Quiet) {visits : List Visit}
    (walked : Visits observer policy world s state visits s' state') :
    ∀ visit ∈ visits, Only (RowCall visit.row.1) visit.calls := by
  intro visit member
  obtain ⟨s₁, state₁, s₂, state₂, runs, -⟩ := walked.visited member
  exact runs.calls quiet

end Facts

end FreenetMigrate.Migrate
