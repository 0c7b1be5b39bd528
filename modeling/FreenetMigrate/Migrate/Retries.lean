import FreenetMigrate.Calls.Crash
import FreenetMigrate.Migrate.Selection

namespace FreenetMigrate.Migrate

open Calls SecretStore

def Truthful (exports : Fixed 32 → List SecretPair) : Event Request Answer → Prop
  | ⟨.fetchSecrets predecessor, answer⟩ =>
    ∀ secrets, answer = .ok secrets → secrets = exports predecessor.bytes
  | _ => True

variable {Store : Type} [SecretStore Store] {exports : Fixed 32 → List SecretPair}
  {chosen items secrets : List SecretPair} {start store final : Store} {p : DelegateKey}

theorem Granted.truthful {event : Event Request Answer} (granted : Granted exports event) :
    Truthful exports event := by
  obtain ⟨request, answer⟩ := event
  cases request with
  | fetchSecrets predecessor =>
    intro secrets answered
    exact Except.ok.inj (answered.symm.trans granted)
  | _ => trivial

/-- What attempts at one migration make of a store: beyond what it held at the start it holds of the
    chosen export only, what is sealed as complete is, and what is flagged as holding data does. -/
structure Underway (exports : Fixed 32 → List SecretPair) (chosen : List SecretPair)
    (start store : Store) : Prop where
  older : ∀ name, DONE_PREFIX <+: name → getSecret store name = none
  contents : ∀ key, isMarker key = false → getSecret store key = getSecret start key ∨
    (getSecret start key = none ∧ ∃ value, getSecret store key = some value ∧ (key, value) ∈ chosen)
  sealed' : ∀ predecessor value, getSecret store (predDoneMarker predecessor) = some value →
    (value != PRED_DONE_MARKER_VALUE_EMPTY) = hasData (exports predecessor.bytes) ∧
      ∀ pair ∈ exports predecessor.bytes, isMarker pair.1 = false →
        (getSecret store pair.1).isSome = true
  begun : ∀ predecessor, SawData predecessor store → hasData (exports predecessor.bytes) = true

theorem underway_start (unmarked : ∀ key, isMarker key = true → getSecret start key = none) :
    Underway exports chosen start start where
  older name starts := unmarked name (isMarker_of_done starts)
  contents key _ := .inl rfl
  sealed' predecessor value found := by
    have none : getSecret start (predDoneMarker predecessor) = none :=
      unmarked _ (isMarker_markerKey predecessor (.done true))
    rw [none] at found
    cases found
  begun predecessor saw := by
    obtain ⟨value, found, -⟩ := saw
    have none : getSecret start (predWipMarker predecessor) = none :=
      unmarked _ (isMarker_markerKey predecessor (.inProgress true))
    rw [none] at found
    cases found

namespace Underway

/-- What is read of a predecessor is what its export is, as far as attempts have come. -/
theorem reads [SoundSecretStore Store] (underway : Underway exports chosen start store)
    (generation : UInt32) :
    (SecretStoreIo.migrationMarker store ⟨p, generation, .atOrAboveGeneration⟩ =
        some (.done (hasData (exports p.bytes))) ∧
      ∀ pair ∈ exports p.bytes, isMarker pair.1 = false → (getSecret store pair.1).isSome = true) ∨
    (∃ sawData, SecretStoreIo.migrationMarker store ⟨p, generation, .atOrAboveGeneration⟩ =
        some (.inProgress sawData) ∧ (sawData = true → hasData (exports p.bytes) = true)) ∨
    SecretStoreIo.migrationMarker store ⟨p, generation, .atOrAboveGeneration⟩ = none := by
  have unlisted : legacyGenerationMigrated store generation = false := by
    have nothing : listSecrets store DONE_PREFIX = [] := by
      rw [List.eq_nil_iff_forall_not_mem]
      intro name listed
      obtain ⟨starts, held⟩ := SoundSecretStore.held_of_listed store DONE_PREFIX name listed
      rw [underway.older name starts] at held
      cases held
    unfold legacyGenerationMigrated newestCompletedGeneration completedGenerations
    rw [nothing]
    rfl
  cases done : getSecret store (predDoneMarker p) with
  | some value =>
    obtain ⟨data, held⟩ := underway.sealed' p value done
    have upheld : emptySealContradicted store p = false := by
      rw [Bool.eq_false_iff]
      intro contradicted
      rw [emptySealContradicted, Bool.and_eq_true, beq_iff_eq, ← sawData_iff, done,
        Option.some.injEq] at contradicted
      obtain ⟨rfl, saw⟩ := contradicted
      rw [underway.begun p saw] at data
      cases data
    refine .inl ⟨?_, held⟩
    unfold SecretStoreIo.migrationMarker
    simp only [upheld, Bool.false_eq_true, if_false, done, data]
  | none =>
    have upheld : emptySealContradicted store p = false := by
      rw [emptySealContradicted, done]
      rfl
    right
    have read : SecretStoreIo.migrationMarker store ⟨p, generation, .atOrAboveGeneration⟩ =
        (getSecret store (predWipMarker p)).map fun value =>
          .inProgress (value != PRED_DONE_MARKER_VALUE_EMPTY) := by
      unfold SecretStoreIo.migrationMarker
      simp only [upheld, Bool.false_eq_true, if_false, done, unlisted]
    rw [read]
    cases wip : getSecret store (predWipMarker p) with
    | none => exact .inr rfl
    | some value =>
      refine .inl ⟨_, rfl, ?_⟩
      intro full
      exact underway.begun p ⟨value, wip, bne_iff_ne.mp full⟩

variable [ExactSecretStore Store]

theorem writeSecret {item : RecoveredSecret} {answer : ItemWrite}
    (underway : Underway exports chosen start store) (own : isMarker item.key = false)
    (among : (item.key, item.value) ∈ chosen)
    (wrote : (answer, final) = SecretStoreIo.writeSecret store item) :
    Underway exports chosen start final ∧
      (∀ key, (getSecret store key).isSome = true → (getSecret final key).isSome = true) ∧
      (answer.Landed → (getSecret final item.key).isSome = true) := by
  have left := congrArg Prod.snd wrote
  simp only at left
  rcases writeSecret_cases wrote with ⟨-, rfl, held⟩ | ⟨free, others, outcome⟩
  · exact ⟨underway, fun _ => id, fun _ => held⟩
  · have stays (key : Bytes) (held : (getSecret store key).isSome = true) :
        (getSecret final key).isSome = true := by
      rw [others key]
      · exact held
      · rintro rfl
        rw [free] at held
        cases held
    have keeps (q : DelegateKey) : Keeps q.bytes store final := by
      rw [left]
      exact keeps_of_writeSecret own
    refine ⟨⟨?_, ?_, ?_, ?_⟩, stays, ?_⟩
    · intro name starts
      rw [(keeps item.predecessor).older name starts]
      exact underway.older name starts
    · intro key unreserved
      by_cases same : key = item.key
      · subst same
        have before : getSecret start item.key = none := by
          rcases underway.contents item.key own with unchanged | ⟨none, -⟩
          · exact unchanged.symm.trans free
          · exact none
        have now : getSecret final item.key = none ∨ getSecret final item.key = some item.value := by
          rcases outcome with ⟨-, now⟩ | ⟨-, now⟩
          · exact .inr now
          · exact now
        rcases now with still | now
        · exact .inl (still.trans before.symm)
        · exact .inr ⟨before, item.value, now, among⟩
      · rw [others key same]
        exact underway.contents key unreserved
    · intro q value found
      rw [(keeps q).done q rfl] at found
      obtain ⟨data, held⟩ := underway.sealed' q value found
      exact ⟨data, fun pair member unreserved => stays pair.1 (held pair member unreserved)⟩
    · intro q saw
      exact underway.begun q (saw.same ((keeps q).wip q rfl).symm)
    · intro landed
      rcases outcome with ⟨-, now⟩ | ⟨⟨error, rfl⟩, -⟩
      · rw [now]
        rfl
      · rcases landed with other | other <;> cases other

theorem recorded_value {marker : MigrationMarker} {answer : Except String Unit}
    (recorded : (answer, final) = SecretStoreIo.recordMarker store p marker) :
    getSecret final (SecretStoreIo.markerKey p marker) =
        some (SecretStoreIo.markerValue marker) ∨
      getSecret final (SecretStoreIo.markerKey p marker) =
        getSecret store (SecretStoreIo.markerKey p marker) := by
  have left := congrArg Prod.snd recorded
  unfold SecretStoreIo.recordMarker at left
  simp only at left
  rw [left]
  split
  · exact .inr rfl
  · rcases getSecret_setSecret_cases store (SecretStoreIo.markerKey p marker)
      (SecretStoreIo.markerValue marker) with now | ⟨-, before⟩
    · exact .inl now
    · exact .inr before

theorem recordBegun {sawData : Bool} {answer : Except String Unit}
    (underway : Underway exports chosen start store)
    (data : sawData = true → hasData (exports p.bytes) = true)
    (recorded : (answer, final) = SecretStoreIo.recordMarker store p (.inProgress sawData)) :
    Underway exports chosen start final := by
  have others (key : Bytes) (apart : key ≠ SecretStoreIo.markerKey p (.inProgress sawData)) :
      getSecret final key = getSecret store key := getSecret_recordMarker apart recorded
  have own (key : Bytes) (unreserved : isMarker key = false) :
      getSecret final key = getSecret store key := others key (ne_markerKey unreserved)
  constructor
  · intro name starts
    rw [others name]
    · exact underway.older name starts
    · rintro rfl
      exact not_done_prefix_predWipMarker p starts
  · intro key unreserved
    rw [own key unreserved]
    exact underway.contents key unreserved
  · intro q value found
    rw [others _ (predDoneMarker_ne_predWipMarker q p)] at found
    obtain ⟨same, held⟩ := underway.sealed' q value found
    refine ⟨same, ?_⟩
    intro pair member unreserved
    rw [own pair.1 unreserved]
    exact held pair member unreserved
  · intro q saw
    by_cases same : q.bytes = p.bytes
    · obtain ⟨value, found, full⟩ := saw
      rw [predWipMarker_eq_iff.mpr same] at found
      rw [same]
      rcases recorded_value recorded with now | before
      · change getSecret final (predWipMarker p) = _ at now
        rw [now] at found
        obtain rfl := Option.some.inj found
        cases sawData with
        | true => exact data rfl
        | false => exact absurd rfl full
      · exact underway.begun p ⟨value, before.symm.trans found, full⟩
    · apply underway.begun q
      exact saw.same (others _ fun equal => same (predWipMarker_eq_iff.mp equal)).symm

theorem recordDone {answer : Except String Unit}
    (underway : Underway exports chosen start store)
    (held : ∀ pair ∈ exports p.bytes, isMarker pair.1 = false → (getSecret store pair.1).isSome = true)
    (recorded : (answer, final) =
      SecretStoreIo.recordMarker store p (.done (hasData (exports p.bytes)))) :
    Underway exports chosen start final := by
  have others (key : Bytes)
      (apart : key ≠ SecretStoreIo.markerKey p (.done (hasData (exports p.bytes)))) :
      getSecret final key = getSecret store key := getSecret_recordMarker apart recorded
  have own (key : Bytes) (unreserved : isMarker key = false) :
      getSecret final key = getSecret store key := others key (ne_markerKey unreserved)
  constructor
  · intro name starts
    rw [others name]
    · exact underway.older name starts
    · rintro rfl
      exact not_done_prefix_predDoneMarker p starts
  · intro key unreserved
    rw [own key unreserved]
    exact underway.contents key unreserved
  · intro q value found
    have still (pair : SecretPair) (unreserved : isMarker pair.1 = false)
        (before : (getSecret store pair.1).isSome = true) :
        (getSecret final pair.1).isSome = true := by
      rw [own pair.1 unreserved]
      exact before
    have unchanged (before : getSecret store (predDoneMarker q) = some value) :
        (value != PRED_DONE_MARKER_VALUE_EMPTY) = hasData (exports q.bytes) ∧
          ∀ pair ∈ exports q.bytes, isMarker pair.1 = false →
            (getSecret final pair.1).isSome = true := by
      obtain ⟨same, held⟩ := underway.sealed' q value before
      exact ⟨same, fun pair member unreserved => still pair unreserved (held pair member unreserved)⟩
    by_cases same : q.bytes = p.bytes
    · rw [predDoneMarker_eq_iff.mpr same] at found
      rcases recorded_value recorded with now | before
      · change getSecret final (predDoneMarker p) = _ at now
        rw [now] at found
        obtain rfl := Option.some.inj found
        rw [same]
        refine ⟨?_, fun pair member unreserved => still pair unreserved (held pair member unreserved)⟩
        cases hasData (exports p.bytes) <;> rfl
      · apply unchanged
        rw [predDoneMarker_eq_iff.mpr same]
        exact before.symm.trans found
    · apply unchanged
      rw [← others _ fun equal => same (predDoneMarker_eq_iff.mp equal)]
      exact found
  · intro q saw
    apply underway.begun q
    exact saw.same (others _ (predDoneMarker_ne_predWipMarker p q).symm).symm

end Underway

section Walk

variable {allowed : Event Request Answer → Prop} {fine : Prop} {asked : Asked}
  {withheldKeys : List Bytes} {state : WalkState Unit} {offering : Offering} {sawData : Bool}
  {row : DelegateKey × UInt32}

/-- How the items offered so far came out: what nothing troubled is held, and where all is fine
    nothing was troubled. -/
structure Offered (fine : Prop) (items : List SecretPair) (store : Store) (offering : Offering) :
    Prop where
  held : offering.tally.isClean = true → offering.failure = none →
    ∀ pair ∈ items, (getSecret store pair.1).isSome = true
  untroubled : fine → offering.tally.isClean = true ∧ offering.failure = none ∧
    offering.newlyWithheld = []

/-- How a row came out: a predecessor with data ends the walk, and where all is fine the row leaves
    nothing to be done. -/
structure Passed (exports : Fixed 32 → List SecretPair) (fine : Prop) (row : DelegateKey × UInt32)
    (state state' : WalkState Unit) : Prop where
  ended : state'.terminated = true ∨ hasData (exports row.1.bytes) = false
  finished : fine → state'.withheldKeys = [] ∧
    ∃ report, state'.results = state.results ++ [report] ∧ report.pending = false

omit [SecretStore Store] in
theorem flagImport_unobserved {policy : SecretSelectionPolicy} (exported : UInt32) :
    flagImport noObserver policy state asked items exported =
      beginImport policy state asked items true := by
  calc flagImport noObserver policy state asked items exported
    _ = if exported < 0 then pure (state.push (asked.unresponsive (some (exportedFewer exported 0)))
          (policy.unresponsiveTerminates true))
        else beginImport policy state asked items true := rfl
    _ = beginImport policy state asked items true := if_neg UInt32.not_lt_zero

omit [SecretStore Store] in
theorem flagKnownData_unobserved {policy : SecretSelectionPolicy} :
    flagKnownData noObserver policy state asked = askPredecessor noObserver policy state asked := by
  unfold flagKnownData
  split <;> rfl

variable [ExactSecretStore Store]

theorem wp_offers (granted : fine → ∀ event, allowed event → Granted exports event)
    (underway : Underway exports chosen start store) (own : ∀ pair ∈ items, isMarker pair.1 = false)
    (among : items ⊆ chosen) (unheld : fine → withheldKeys = []) :
    (items.foldlM (offerItem asked withheldKeys) .start).wp (soleWorld.within allowed)
      (Underway exports chosen start) (Offered fine items) store := by
  refine wp_foldlM (Offered fine) items [] underway ?_ ?_
  · exact ⟨fun _ _ pair member => absurd member List.not_mem_nil, fun _ => ⟨rfl, rfl, rfl⟩⟩
  · intro past pair rest s offering split underway offered
    have member : pair ∈ items := by
      rw [List.nil_append] at split
      rw [split]
      exact List.mem_append_right _ List.mem_cons_self
    unfold offerItem
    simp only
    split
    · rename_i withheld
      refine wp_pure underway ⟨?_, ?_⟩
      · intro clean
        simp [ImportTally.isClean] at clean
      · intro well
        rw [unheld well] at withheld
        cases withheld
    · refine wp_call underway ?_
      rintro answer s' ⟨wrote, permitted⟩
      obtain ⟨underway', stays, lands⟩ :=
        underway.writeSecret (own pair member) (among member) wrote
      have landed (now : answer.Landed) (clean : offering.tally.isClean = true)
          (untroubled : offering.failure = none) :
          ∀ other ∈ past ++ [pair], (getSecret s' other.1).isSome = true := by
        intro other earlier
        rcases List.mem_append.mp earlier with before | last
        · exact stays _ (offered.held clean untroubled other before)
        · rw [List.mem_singleton.mp last]
          exact lands now
      have refused (troubled : ¬ answer.Landed) : ¬ fine := fun well =>
        troubled (granted well _ permitted)
      cases answer with
      | written => exact wp_pure underway' ⟨landed (.inl rfl), offered.untroubled⟩
      | alreadyAuthoritative => exact wp_pure underway' ⟨landed (.inr rfl), offered.untroubled⟩
      | failed error retry =>
        have troubled : ¬ (ItemWrite.failed error retry).Landed := by
          rintro (other | other) <;> cases other
        cases retry with
        | retryable | permanent =>
          refine wp_pure underway' ⟨?_, fun well => absurd well (refused troubled)⟩
          intro clean
          simp [ImportTally.isClean] at clean

theorem wp_completeImport (granted : fine → ∀ event, allowed event → Granted exports event)
    (underway : Underway exports chosen start store)
    (offered : Offered fine (offerable noObserver (exports asked.key.bytes)) store offering)
    (unheld : fine → state.withheldKeys = []) :
    (completeImport .newestSnapshotWins state asked (hasData (exports asked.key.bytes))
      offering).wp (soleWorld.within allowed) (Underway exports chosen start)
        (fun _ state' => Passed exports fine (asked.key, asked.generation) state state') store := by
  have closed (state' : WalkState Unit)
      (ends : state'.terminated = hasData (exports asked.key.bytes)) :
      state'.terminated = true ∨ hasData (exports asked.key.bytes) = false := by
    rw [ends]
    exact Bool.eq_false_or_eq_true _
  refine wp_call underway ?_
  rintro answer s' ⟨⟨rfl, rfl⟩, -⟩
  simp only
  split
  · rename_i clean
    rw [Bool.and_eq_true, Option.isNone_iff_eq_none] at clean
    refine wp_call underway ?_
    rintro answer s'' ⟨recorded, permitted⟩
    have held := offered.held clean.1 clean.2
    rw [offerable_eq] at held
    have underway' := underway.recordDone (fun pair member own =>
      held pair (List.mem_filter.mpr ⟨member, by rw [own]; rfl⟩)) recorded
    have finished (well : fine) : state.withheldKeys ++ offering.newlyWithheld = [] := by
      rw [unheld well, (offered.untroubled well).2.2, List.append_nil]
    cases answer with
    | error e =>
      refine wp_pure underway' ⟨closed _ rfl, ?_⟩
      intro well
      cases granted well _ permitted
    | ok =>
      simp only
      split
      · exact wp_pure underway' ⟨closed _ rfl, fun well => ⟨finished well, _, rfl, rfl⟩⟩
      · exact wp_pure underway' ⟨closed _ rfl, fun well => ⟨finished well, _, rfl, rfl⟩⟩
  · rename_i troubled
    refine wp_pure underway ⟨closed _ rfl, ?_⟩
    intro well
    obtain ⟨clean, failure, -⟩ := offered.untroubled well
    rw [clean, failure] at troubled
    exact absurd rfl troubled

theorem wp_beginImport (granted : fine → ∀ event, allowed event → Granted exports event)
    (underway : Underway exports chosen start store)
    (among : hasData (exports asked.key.bytes) = true → exports asked.key.bytes ⊆ chosen)
    (unsealed : asked.marker ≠ some (.done false)) (unheld : fine → state.withheldKeys = []) :
    (beginImport .newestSnapshotWins state asked (offerable noObserver (exports asked.key.bytes))
      (hasData (exports asked.key.bytes))).wp (soleWorld.within allowed)
        (Underway exports chosen start)
        (fun _ state' => Passed exports fine (asked.key, asked.generation) state state') store := by
  refine wp_call underway ?_
  rintro answer s' ⟨recorded, permitted⟩
  have underway' := underway.recordBegun id recorded
  cases answer with
  | error e =>
    refine wp_pure underway' ⟨.inl rfl, ?_⟩
    intro well
    cases granted well _ permitted
  | ok =>
    simp only
    rw [if_neg unsealed]
    rw [offerable_eq]
    refine wp_bind (wp_offers granted underway' ?_ ?_ unheld) ?_
    · intro pair member
      simpa using (List.mem_filter.mp member).2
    · intro pair member
      obtain ⟨inside, own⟩ := List.mem_filter.mp member
      exact among (hasData_iff.mpr ⟨pair, inside, by simpa using own⟩) inside
    · intro s'' offering underway'' offered
      rw [← offerable_eq] at offered
      exact wp_completeImport granted underway'' offered unheld

theorem wp_judgeExport (granted : fine → ∀ event, allowed event → Granted exports event)
    (underway : Underway exports chosen start store)
    (among : hasData (exports asked.key.bytes) = true → exports asked.key.bytes ⊆ chosen)
    (unsealed : asked.marker ≠ some (.done false))
    (prior : asked.priorSawData = true → hasData (exports asked.key.bytes) = true)
    (unheld : fine → state.withheldKeys = []) :
    (judgeExport noObserver .newestSnapshotWins state asked (exports asked.key.bytes)).wp
      (soleWorld.within allowed) (Underway exports chosen start)
        (fun _ state' => Passed exports fine (asked.key, asked.generation) state state') store := by
  have empty : (offerable noObserver (exports asked.key.bytes)).isEmpty =
      !hasData (exports asked.key.bytes) := by
    rw [Bool.eq_iff_iff, List.isEmpty_iff, offerable_plain, Bool.not_eq_true', hasData]
    simp
  have imports := wp_beginImport granted underway among unsealed unheld
  unfold judgeExport
  simp only [empty, flagImport_unobserved]
  cases data : hasData (exports asked.key.bytes) with
  | true =>
    rw [data] at imports
    rw [if_neg (by simp [noObserver]), if_pos (by simp)]
    exact imports
  | false =>
    rw [data] at imports
    have unflagged : asked.priorSawData = false := by
      rw [Bool.eq_false_iff]
      intro saw
      rw [prior saw] at data
      cases data
    rw [if_neg (by simp [unflagged]), if_neg (by simp [unflagged])]
    exact imports

theorem wp_askPredecessor (truthful : ∀ event, allowed event → Truthful exports event)
    (granted : fine → ∀ event, allowed event → Granted exports event)
    (underway : Underway exports chosen start store)
    (among : hasData (exports asked.key.bytes) = true → exports asked.key.bytes ⊆ chosen)
    (unsealed : asked.marker ≠ some (.done false))
    (prior : asked.priorSawData = true → hasData (exports asked.key.bytes) = true)
    (unheld : fine → state.withheldKeys = []) :
    (askPredecessor noObserver .newestSnapshotWins state asked).wp (soleWorld.within allowed)
      (Underway exports chosen start)
        (fun _ state' => Passed exports fine (asked.key, asked.generation) state state') store := by
  have silent {event : Event Request Answer} (permitted : allowed event)
      (refused : ¬ Granted exports event) (state' : WalkState Unit) (closed : state'.terminated = true) :
      Passed exports fine (asked.key, asked.generation) state state' :=
    ⟨.inl closed, fun well => absurd (granted well event permitted) refused⟩
  refine wp_call underway ?_
  rintro verdict s' ⟨rfl, permitted⟩
  split
  · exact wp_pure underway (silent permitted (by rintro ⟨⟩) _ rfl)
  · exact wp_pure underway (silent permitted (by rintro ⟨⟩) _ rfl)
  · exact wp_pure underway (silent permitted (by rintro ⟨⟩) _ rfl)
  · refine wp_call underway ?_
    rintro fetched s'' ⟨rfl, permitted⟩
    split
    · exact wp_pure underway (silent permitted (by rintro ⟨⟩) _ rfl)
    · rename_i secrets
      rw [truthful _ permitted secrets rfl]
      exact wp_judgeExport granted underway among unsealed prior unheld

end Walk

section Attempts

variable [SoundSecretStore Store] {allowed : Event Request Answer → Prop} {fine : Prop}
  {state : WalkState Unit} {row : DelegateKey × UInt32} {predecessors : List DelegateLineageEntry}

theorem wp_walkRow (truthful : ∀ event, allowed event → Truthful exports event)
    (granted : fine → ∀ event, allowed event → Granted exports event)
    (underway : Underway exports chosen start store)
    (among : state.terminated = false → hasData (exports row.1.bytes) = true →
      exports row.1.bytes ⊆ chosen)
    (unheld : fine → state.withheldKeys = []) :
    (walkRow noObserver .newestSnapshotWins state row).wp (soleWorld.within allowed)
      (Underway exports chosen start)
        (fun _ state' => Passed exports fine row state state' ∧
          (state.terminated = true → state'.terminated = true)) store := by
  obtain ⟨key, generation⟩ := row
  unfold walkRow
  simp only
  split
  · exact wp_pure underway ⟨⟨.inl rfl, fun well => ⟨unheld well, _, rfl, rfl⟩⟩, fun _ => rfl⟩
  · rename_i live
    have among := among (Bool.eq_false_iff.mpr live)
    refine Program.wp.mono ?_ fun _ _ _ passed => ⟨passed, fun ended => absurd ended live⟩
    refine wp_call underway ?_
    rintro read s' ⟨⟨rfl, rfl⟩, -⟩
    change Program.wp _ _ _ (heedMarker noObserver .newestSnapshotWins state key generation
      (SecretStoreIo.migrationMarker _ ⟨key, generation, .atOrAboveGeneration⟩)) _
    rcases underway.reads (p := key) generation with ⟨read, -⟩ | ⟨sawData, read, flagged⟩ | read
    · rw [read]
      change Program.wp _ _ _ (if (_ || true) = true then alreadyMigrated noObserver
        .newestSnapshotWins state key generation (hasData (exports key.bytes)) else _) _
      rw [if_pos (Bool.or_true _)]
      cases data : hasData (exports key.bytes) with
      | true => exact wp_pure underway ⟨.inl rfl, fun well => ⟨unheld well, _, rfl, rfl⟩⟩
      | false => exact wp_pure underway ⟨.inr data, fun well => ⟨unheld well, _, rfl, rfl⟩⟩
    · rw [read]
      unfold heedMarker
      simp only [flagKnownData_unobserved]
      refine wp_askPredecessor truthful granted underway among (by simp) ?_ unheld
      intro prior
      exact flagged (by simpa [knownData, noObserver] using prior)
    · rw [read]
      unfold heedMarker
      simp only [flagKnownData_unobserved]
      refine wp_askPredecessor truthful granted underway among (by simp) ?_ unheld
      intro prior
      simp [knownData, noObserver] at prior

omit [SecretStore Store] [SoundSecretStore Store] in
theorem selected_newest {past rest : List (DelegateKey × UInt32)}
    (without : ∀ earlier ∈ past, hasData (exports earlier.1.bytes) = false)
    (data : hasData (exports row.1.bytes) = true) :
    selected .newestSnapshotWins exports (past ++ row :: rest) = exports row.1.bytes := by
  have snapshot : SecretSelectionPolicy.newestSnapshotWins ≠ .unionAllGenerations := by decide
  induction past with
  | nil => rw [List.nil_append, selected_snapshot snapshot, if_pos data]
  | cons earlier past ih =>
    obtain ⟨first, others⟩ := List.forall_mem_cons.mp without
    rw [List.cons_append, selected_snapshot snapshot, first, if_neg Bool.false_ne_true]
    exact ih others

theorem wp_migrate (fine : Prop) (truthful : ∀ event, allowed event → Truthful exports event)
    (granted : fine → ∀ event, allowed event → Granted exports event)
    (underway : Underway exports
      (selected .newestSnapshotWins exports (newestFirst predecessors)) start store) :
    (migrateDelegateSecrets predecessors .newestSnapshotWins).wp (soleWorld.within allowed)
      (Underway exports (selected .newestSnapshotWins exports (newestFirst predecessors)) start)
        (fun _ report => fine → isComplete report = true) store := by
  refine wp_bind (wp_foldlM (fun past _ state =>
    (state.terminated = true ∨ ∀ row ∈ past, hasData (exports row.1.bytes) = false) ∧
      (fine → state.withheldKeys = [] ∧ ∀ report ∈ state.results, report.pending = false))
    (newestFirst predecessors) [] underway ?_ ?_) ?_
  · exact ⟨.inr fun row member => absurd member List.not_mem_nil,
      fun _ => ⟨rfl, fun report member => absurd member List.not_mem_nil⟩⟩
  · intro past row rest s state split underway held
    rw [List.nil_append] at split
    refine (wp_walkRow truthful granted underway ?_ fun well => (held.2 well).1).mono ?_
    · intro live data
      rcases held.1 with ended | without
      · rw [live] at ended
        cases ended
      · rw [split, selected_newest without data]
        exact List.Subset.refl _
    · rintro s' state' _ ⟨passed, ends⟩
      constructor
      · rcases passed.ended with closed | nothing
        · exact .inl closed
        · rcases held.1 with ended | without
          · exact .inl (ends ended)
          · right
            intro other member
            rcases List.mem_append.mp member with before | last
            · exact without other before
            · rw [List.mem_singleton.mp last]
              exact nothing
      · intro well
        obtain ⟨unheld, report, pushed, finished⟩ := passed.finished well
        refine ⟨unheld, ?_⟩
        intro other member
        rw [pushed] at member
        rcases List.mem_append.mp member with before | last
        · exact (held.2 well).2 other before
        · rw [List.mem_singleton.mp last]
          exact finished
  · intro s state underway held
    exact wp_pure underway fun well => isComplete_iff.mpr (held.2 well).2

/-- An attempt at a migration from predecessors that nothing changes: it may be stopped anywhere, and
    predecessors and writes may fail it. -/
def Attempted (exports : Fixed 32 → List SecretPair) (predecessors : List DelegateLineageEntry)
    (before after : Store) : Prop :=
  ∃ events, Reaches (soleWorld.within (Truthful exports)) before
    (migrateDelegateSecrets predecessors .newestSnapshotWins) events after

theorem attempts_underway (unmarked : ∀ key, isMarker key = true → getSecret start key = none)
    (attempts : Relation.ReflTransGen (Attempted exports predecessors) start store) :
    Underway exports (selected .newestSnapshotWins exports (newestFirst predecessors)) start store := by
  induction attempts with
  | refl => exact underway_start unmarked
  | tail _ attempt ih =>
    obtain ⟨events, attempt⟩ := attempt
    exact (wp_migrate False (fun _ => id) False.elim ih).reaches attempt

/-- Where every row of the markers is read as complete as far as the data goes, all of it is held. -/
theorem Underway.held_of_replays (underway : Underway exports chosen start store)
    {rows : List (DelegateKey × UInt32)} (replays : Replays .newestSnapshotWins store false rows) :
    ∀ pair ∈ selected .newestSnapshotWins exports rows, isMarker pair.1 = false →
      (getSecret store pair.1).isSome = true := by
  have snapshot : SecretSelectionPolicy.newestSnapshotWins ≠ .unionAllGenerations := by decide
  induction rows with
  | nil =>
    intro pair member
    cases member
  | cons row rest ih =>
    obtain ⟨data, read, replays⟩ := replays
    rcases underway.reads (p := row.1) row.2 with ⟨done, held⟩ | ⟨sawData, other, -⟩ | other
    · obtain rfl : hasData (exports row.1.bytes) = data := by
        have same := done.symm.trans read
        injection same with same
        injection same
      rw [selected_snapshot snapshot]
      cases data : hasData (exports row.1.bytes) with
      | true =>
        rw [if_pos rfl]
        exact held
      | false =>
        rw [data] at replays
        rw [if_neg Bool.false_ne_true]
        exact ih replays
    · cases other.symm.trans read
    · cases other.symm.trans read

theorem Underway.complete {events : History} {report : List PredecessorMigration}
    (underway : Underway exports
      (selected .newestSnapshotWins exports (newestFirst predecessors)) start store)
    (run : Executes (soleWorld.within (Truthful exports)) store
      (migrateDelegateSecrets predecessors .newestSnapshotWins) events final report)
    (complete : isComplete report = true) :
    Underway exports (selected .newestSnapshotWins exports (newestFirst predecessors)) start final ∧
      ∀ pair ∈ selected .newestSnapshotWins exports (newestFirst predecessors),
        isMarker pair.1 = false → (getSecret final pair.1).isSome = true := by
  have underway' := (wp_migrate False (fun _ => id) False.elim underway).executes run
  refine ⟨underway'.1, ?_⟩
  obtain ⟨visits, state', rows, -, rfl, visited⟩ := visits_of_migrate (executes_within.mp run).1
  have replays := (replays_of_visits visited fun visit member =>
    isComplete_iff.mp complete _ (List.mem_map_of_mem member)).2.2
  rw [rows] at replays
  exact underway'.1.held_of_replays replays

/-- However often attempts at a migration were stopped, refused or left unanswered, the store has
    gained keys of the newest export with data only. Once an attempt reports completion all of that
    export is held, as one undisturbed run leaves it; and an attempt that is granted everything
    reports completion. -/
theorem retries_settle (unmarked : ∀ key, isMarker key = true → getSecret start key = none)
    (attempts : Relation.ReflTransGen (Attempted exports predecessors) start store) :
    let chosen := selected .newestSnapshotWins exports (newestFirst predecessors)
    (∀ key, isMarker key = false → getSecret store key = getSecret start key ∨
      (getSecret start key = none ∧
        ∃ value, getSecret store key = some value ∧ (key, value) ∈ chosen)) ∧
    ∀ events final report, Executes (soleWorld.within (Truthful exports)) store
        (migrateDelegateSecrets predecessors .newestSnapshotWins) events final report →
      (isComplete report = true →
        (∀ pair ∈ chosen, isMarker pair.1 = false → (getSecret final pair.1).isSome = true) ∧
        ((chosen.map Prod.fst).Nodup → ∀ key, isMarker key = false →
          getSecret final key = (getSecret start key).or (chosen.lookup key))) ∧
      ((∀ event ∈ events, Granted exports event) → isComplete report = true) := by
  intro chosen
  have underway := attempts_underway unmarked attempts
  refine ⟨underway.contents, ?_⟩
  intro events final report run
  constructor
  · intro complete
    obtain ⟨underway', held⟩ := underway.complete run complete
    refine ⟨held, ?_⟩
    intro distinct key own
    rcases underway'.contents key own with same | ⟨absent, value, now, member⟩
    · rw [same]
      cases before : getSecret start key with
      | some value => rfl
      | none =>
        rw [Option.none_or, eq_comm, List.lookup_eq_none_iff]
        intro pair member
        apply bne_iff_ne.mpr
        rintro rfl
        have present := held pair member own
        rw [same, before] at present
        cases present
    · rw [absent, Option.none_or, now]
      have found : (chosen.lookup key).isSome = true :=
        List.lookup_isSome_iff.mpr ⟨_, member, beq_self_eq_true key⟩
      obtain ⟨other, found⟩ := Option.isSome_iff_exists.mp found
      obtain ⟨before, after, split, -⟩ := List.lookup_eq_some_iff.mp found
      have among : (key, other) ∈ chosen := split ▸ List.mem_append_right _ List.mem_cons_self
      rw [found, (Prod.mk.inj (List.inj_on_of_nodup_map distinct member among rfl)).2]
  · intro granted
    have answered := executes_within.mpr ⟨(executes_within.mp run).1, granted⟩
    exact ((wp_migrate True (fun _ => Granted.truthful) (fun _ _ => id) underway).executes
      answered).2 trivial

end Attempts

def silentHandler {Store : Type} [SecretStore Store] :
    Store → (request : Request) → Answer request × Store
  | store, .probeVerdict _ => (.ok .noReply, store)
  | store, request => storeHandler sampleExports store request

theorem retries_settle_sample :
    let waiting : MemStore := (sampleRerun.run silentHandler ⟨[], []⟩).2.1
    let run := sampleRerun.run (storeHandler sampleExports) waiting
    isComplete run.2.2 = true ∧ getSecret run.2.1 [1] = some [2] := by
  intro waiting run
  have unmarked : ∀ key, isMarker key = true → getSecret (⟨[], []⟩ : MemStore) key = none :=
    fun _ _ => rfl
  have silent (store : MemStore) (request : Request) :
      soleWorld.within (Truthful fun _ => [([1], [2])]) store request
        (silentHandler store request).1 (silentHandler store request).2 := by
    cases request with
    | migrationMarker | flushPredecessor => exact ⟨⟨rfl, rfl⟩, trivial⟩
    | fetchSecrets =>
      refine ⟨rfl, ?_⟩
      rintro secrets ⟨⟩
      rfl
    | _ => exact ⟨rfl, trivial⟩
  have attempt : Attempted (fun _ => [([1], [2])]) [sampleEntry 1, sampleEntry 2] (⟨[], []⟩ : MemStore)
      waiting := ⟨_, (executes_run silent _).reaches⟩
  have again : Executes (soleWorld.within (Truthful fun _ => [([1], [2])])) waiting sampleRerun run.1
      run.2.1 run.2.2 := by
    apply executes_within.mpr
    exact ⟨executes_run (soleWorld_storeHandler sampleExports) waiting,
      fun event member => Granted.truthful ((by decide +kernel :
        ∀ event ∈ run.1, Granted (fun _ => [([1], [2])]) event) event member)⟩
  have facts := (retries_settle unmarked (.single attempt)).2 _ _ _ again
  have complete := facts.2 (by decide +kernel)
  exact ⟨complete, ((facts.1 complete).2 (by decide +kernel) [1] (by decide)).trans (by decide +kernel)⟩

end FreenetMigrate.Migrate
