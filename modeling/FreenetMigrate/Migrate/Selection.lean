import FreenetMigrate.Migrate.FixedPoint
import FreenetMigrate.Migrate.Withholding

namespace FreenetMigrate.Migrate

open Calls SecretStore

variable {Store : Type} [SecretStore Store] {s s₁ s' store final : Store} {p : DelegateKey}
  {policy : SecretSelectionPolicy} {state state' : WalkState Unit} {row : DelegateKey × UInt32}
  {asked : Asked} {items secrets : List SecretPair} {sawData : Bool} {events more : History}
  {observed : Unit} {withheldKeys : List Bytes} {offering result : Offering} {rounds : List History}
  {key value : Bytes}

theorem RowRuns.sole (runs : RowRuns noObserver policy soleWorld s state row events s' state') :
    (s' = s ∧ state'.withheldKeys = state.withheldKeys ∧ exportOf events = []) ∨
      (∃ items sawData e, ((.error e : Except String Unit), s') =
          SecretStoreIo.recordMarker s row.1 (.inProgress sawData) ∧
        state'.withheldKeys = state.withheldKeys ∧ state'.terminated = true ∧
        exportOf events = items) ∨
      ∃ asked items secrets sawData s₁ s₂ rounds offering ending first,
        Engaged policy row asked items secrets sawData first ∧
        exportOf events = items ∧
        ((.ok () : Except String Unit), s₁) =
          SecretStoreIo.recordMarker s row.1 (.inProgress sawData) ∧
        Iterates soleWorld (offerItem asked state.withheldKeys) s₁ .start items rounds s₂ offering ∧
        rounds.flatten ++ ending ⊆ events ∧
        Completes policy soleWorld s₂ state asked sawData offering ending s' state' := by
  -- Without a journal no count is known that an export could be short of.
  have enough : ∀ (secrets : List SecretPair) (observed : Unit) (key : DelegateKey),
      ¬ distinctKeys (offerable noObserver secrets) < noObserver.itemsSeen observed key :=
    fun secrets _ _ => UInt32.not_lt_zero
  cases runs with
  | superseded => exact .inl ⟨rfl, rfl, rfl⟩
  | journalResolved live resolved => cases resolved
  | unreadable live unresolved failed => cases failed.1
  | emptySeal opens => exact .inl ⟨opens.read.2, rfl, rfl⟩
  | dataSeal opens checked =>
    obtain ⟨rfl, rfl, rfl⟩ := executes_pure.mp checked
    exact .inl ⟨opens.read.2, rfl, rfl⟩
  | flagRefused opens unsealed prior told =>
    obtain ⟨-, -, other⟩ := told_plain told
    cases other
  | silent asks gaveNone =>
    refine .inl ⟨?_, rfl, ?_⟩
    · rw [← asks.still]
      cases gaveNone with
      | notInstalled probed | noReply probed | probeFailed probed => exact probed
      | fetchFailed probed fetched => exact Eq.trans fetched probed
    · rw [asks.plain]
      cases gaveNone <;> rfl
  | short exports prior fewer =>
    refine .inl ⟨exports.still, rfl, ?_⟩
    rcases fewer with empty | fewer
    · rw [exports.plain]
      rw [offerable_eq] at empty
      exact empty
    · exact absurd fewer (enough _ _ _)
  | importFlagRefused exports nonempty told =>
    obtain ⟨-, -, other⟩ := told_plain told
    cases other
  | shortAfterFlag exports nonempty told fewer => exact absurd fewer (enough _ _ _)
  | beginRefused engages refused =>
    obtain ⟨secrets, engaged⟩ := engages.plain
    rw [engages.still, engaged.key] at refused
    exact .inr (.inl ⟨_, _, _, refused, rfl, rfl, engaged.exportOf⟩)
  | notReadBack engages begun emptySeal =>
    exact absurd emptySeal (engages.on.unsealed_plain false)
  | offered begins offers completes =>
    cases begins with
    | unsealed engages begun =>
      obtain ⟨secrets, engaged⟩ := engages.plain
      rw [engages.still, engaged.key] at begun
      refine .inr (.inr ⟨_, _, _, _, _, _, _, _, _, _, engaged, ?_, begun, offers, ?_, completes⟩)
      · rw [List.append_assoc, List.append_assoc]
        exact engaged.exportOf
      · rw [List.append_assoc]
        exact List.subset_append_right ..
    | overSeal engages begun emptySeal => exact absurd emptySeal (engages.on.unsealed_plain false)

section Offers

variable [ExactSecretStore Store]

omit [SecretStore Store] [ExactSecretStore Store] in
theorem ne_markerKey {marker : MigrationMarker} (own : isMarker key = false) :
    key ≠ SecretStoreIo.markerKey p marker := by
  intro marked
  have reserved := isMarker_markerKey p marker
  rw [← marked, own] at reserved
  cases reserved

theorem getSecret_recordMarker {marker : MigrationMarker} {answer : Except String Unit}
    (apart : key ≠ SecretStoreIo.markerKey p marker)
    (recorded : (answer, final) = SecretStoreIo.recordMarker store p marker) :
    getSecret final key = getSecret store key := by
  have same := congrArg Prod.snd recorded
  unfold SecretStoreIo.recordMarker at same
  simp only at same
  rw [same]
  split
  · rfl
  · exact ExactSecretStore.getSecret_other _ _ _ _ apart

/-- An item's key was held and is left, or was free: then it holds the item's value, or the write was
    refused and it may. -/
theorem writeSecret_cases {item : RecoveredSecret} {answer : ItemWrite}
    (wrote : (answer, final) = SecretStoreIo.writeSecret store item) :
    (answer = .alreadyAuthoritative ∧ final = store ∧ (getSecret store item.key).isSome = true) ∨
      (getSecret store item.key = none ∧
        (∀ other, other ≠ item.key → getSecret final other = getSecret store other) ∧
        ((answer = .written ∧ getSecret final item.key = some item.value) ∨
          ((∃ error, answer = .failed error .retryable) ∧
            (getSecret final item.key = none ∨ getSecret final item.key = some item.value)))) := by
  have answered := congrArg Prod.fst wrote
  have left := congrArg Prod.snd wrote
  unfold SecretStoreIo.writeSecret at answered left
  simp only at answered left
  split at answered
  · rename_i held
    rw [if_pos held] at left
    rw [ExactSecretStore.hasSecret_eq] at held
    exact .inl ⟨answered, left, held⟩
  · rename_i free
    rw [if_neg free] at left
    simp only at answered left
    rw [ExactSecretStore.hasSecret_eq, Bool.not_eq_true, Option.isSome_eq_false_iff,
      Option.isNone_iff_eq_none] at free
    refine .inr ⟨free, ?_, ?_⟩
    · intro other differs
      rw [left]
      exact ExactSecretStore.getSecret_other _ _ _ _ differs
    · split at answered
      · rename_i stored
        rw [left]
        exact .inl ⟨answered, ExactSecretStore.getSecret_set _ _ _ stored⟩
      · refine .inr ⟨⟨_, answered⟩, ?_⟩
        rw [left]
        rcases getSecret_setSecret_cases store item.key item.value with now | ⟨-, before⟩
        · exact .inr now
        · exact .inl (before.trans free)

theorem held_of_offers
    (offers : Iterates soleWorld (offerItem asked withheldKeys) s offering items rounds s' result)
    (held : getSecret s key = some value) : getSecret s' key = some value := by
  induction offers with
  | nil => exact held
  | cons round _ ih =>
    rcases offerItem_cases round with ⟨-, -, rfl, -⟩ | ⟨-, answer, -, wrote, -⟩
    · exact ih held
    · refine ih ?_
      rcases writeSecret_cases wrote with ⟨-, rfl, -⟩ | ⟨free, others, -⟩
      · exact held
      · rw [others _ ?_]
        · exact held
        · rintro rfl
          rw [free] at held
          cases held

theorem getSecret_of_offers
    (offers : Iterates soleWorld (offerItem asked withheldKeys) s offering items rounds s' result)
    (apart : ∀ pair ∈ items, pair.1 ≠ key) : getSecret s' key = getSecret s key := by
  induction offers with
  | nil => rfl
  | @cons s middle s' _ _ _ pair items _ _ round _ ih =>
    have rest := ih fun other member => apart other (List.mem_cons_of_mem _ member)
    have first := apart pair (List.mem_cons_self ..)
    rcases offerItem_cases round with ⟨-, -, rfl, -⟩ | ⟨-, answer, -, wrote, -⟩
    · exact rest
    · rcases writeSecret_cases wrote with ⟨-, rfl, -⟩ | ⟨-, others, -⟩
      · exact rest
      · exact rest.trans (others key (Ne.symm first))

/-- What appears under a key while items are offered was offered for it, and the key was not
    withheld. -/
theorem source_of_offers
    (offers : Iterates soleWorld (offerItem asked withheldKeys) s offering items rounds s' result)
    (absent : getSecret s key = none) :
    getSecret s' key = none ∨
      ∃ value, getSecret s' key = some value ∧ (key, value) ∈ items ∧ key ∉ withheldKeys := by
  induction offers with
  | nil => exact .inl absent
  | @cons s middle s' _ _ _ pair items _ _ round rest ih =>
    have onward : getSecret middle key = none →
        getSecret s' key = none ∨ ∃ value, getSecret s' key = some value ∧
          (key, value) ∈ pair :: items ∧ key ∉ withheldKeys := by
      intro still
      rcases ih still with none | ⟨value, now, member, offered⟩
      · exact .inl none
      · exact .inr ⟨value, now, List.mem_cons_of_mem _ member, offered⟩
    rcases offerItem_cases round with ⟨-, -, rfl, -⟩ | ⟨offered, answer, -, wrote, -⟩
    · exact onward absent
    · rcases writeSecret_cases wrote with ⟨-, rfl, -⟩ | ⟨-, others, outcome⟩
      · exact onward absent
      · by_cases same : key = pair.1
        · subst same
          have landed : getSecret middle pair.1 = none ∨ getSecret middle pair.1 = some pair.2 := by
            rcases outcome with ⟨-, now⟩ | ⟨-, now⟩
            · exact .inr now
            · exact now
          rcases landed with still | now
          · exact onward still
          · exact .inr ⟨pair.2, held_of_offers rest now, List.mem_cons_self .., offered⟩
        · exact onward ((others key same).trans absent)

/-- A key of the export that is still free was withheld, or is from now on. -/
theorem withheld_of_absent
    (offers : Iterates soleWorld (offerItem asked withheldKeys) s offering items rounds s' result)
    (exported : ∃ pair ∈ items, pair.1 = key) (absent : getSecret s' key = none) :
    key ∈ withheldKeys ∨ key ∈ result.newlyWithheld := by
  induction offers with
  | nil =>
    obtain ⟨pair, member, -⟩ := exported
    cases member
  | @cons s middle s' _ _ _ first items _ _ round rest ih =>
    obtain ⟨pair, member, same⟩ := exported
    rcases List.mem_cons.mp member with rfl | later
    · rcases offerItem_cases round with ⟨withheld, -, -, -⟩ | ⟨-, answer, -, wrote, rfl⟩
      · exact .inl (same ▸ withheld)
      · have free : getSecret middle pair.1 = none := by
          cases held : getSecret middle pair.1 with
          | none => rfl
          | some value =>
            have kept := held_of_offers rest held
            rw [same, absent] at kept
            cases kept
        rcases writeSecret_cases wrote with ⟨-, rfl, held⟩ | ⟨-, -, ⟨-, now⟩ | ⟨⟨error, rfl⟩, -⟩⟩
        · rw [show (itemOf asked pair).key = pair.1 from rfl, free] at held
          cases held
        · rw [show (itemOf asked pair).key = pair.1 from rfl, free] at now
          cases now
        · refine .inr (((tells_of_offers rest).newlyWithheld key).mpr (.inl ?_))
          rw [← same]
          exact List.mem_append_right _ (List.mem_singleton_self _)
    · exact ih ⟨pair, later, same⟩ absent

end Offers

section Rows

variable [ExactSecretStore Store]

/-- How an import ends changes none of the app's keys, and withholds what was newly withheld. -/
theorem Completes.sole {ending : History}
    (completes : Completes policy soleWorld s state asked sawData offering ending s' state') :
    state'.withheldKeys = state.withheldKeys ++ offering.newlyWithheld ∧
      ∀ key, isMarker key = false → getSecret s' key = getSecret s key := by
  cases completes with
  | flushFailed flushed => cases flushed.1
  | unclean flushed =>
    obtain ⟨-, rfl⟩ := flushed
    exact ⟨rfl, fun _ _ => rfl⟩
  | sealRefused flushed clean recorded | completed flushed clean recorded =>
    obtain ⟨-, rfl⟩ := flushed
    exact ⟨rfl, fun _ own => getSecret_recordMarker (ne_markerKey own) recorded⟩

structure RowSelects (key : Bytes) (exported : List SecretPair) (s s' : Store)
    (state state' : WalkState Unit) : Prop where
  held : ∀ value, getSecret s key = some value → getSecret s' key = some value
  source : getSecret s key = none → getSecret s' key = none ∨
    ∃ value, getSecret s' key = some value ∧ (key, value) ∈ exported ∧ key ∉ state.withheldKeys
  withholds : state.withheldKeys ⊆ state'.withheldKeys
  absent : getSecret s' key = none → (∃ pair ∈ exported, pair.1 = key) →
    key ∈ state'.withheldKeys ∨ state'.terminated = true

theorem RowRuns.selects (runs : RowRuns noObserver policy soleWorld s state row events s' state')
    (own : isMarker key = false) : RowSelects key (exportOf events) s s' state state' := by
  rcases runs.sole with ⟨rfl, same, nothing⟩ | ⟨items, sawData, e, refused, same, ended, exported⟩ |
    ⟨asked, items, secrets, sawData, s₁, s₂, rounds, offering, ending, first, engaged, exported, begun,
      offers, -, completes⟩
  · rw [nothing]
    refine ⟨fun _ => id, .inl, ?_, ?_⟩
    · rw [same]
      exact List.Subset.refl _
    · rintro - ⟨pair, member, -⟩
      cases member
  · have kept := getSecret_recordMarker (ne_markerKey own) refused
    refine ⟨?_, ?_, ?_, fun _ _ => .inr ended⟩
    · rw [kept]
      exact fun _ => id
    · rw [kept]
      exact .inl
    · rw [same]
      exact List.Subset.refl _
  · have started := getSecret_recordMarker (ne_markerKey own) begun
    obtain ⟨withheld, finished⟩ := completes.sole
    have finished := finished key own
    rw [exported]
    refine ⟨?_, ?_, ?_, ?_⟩
    · intro value held
      rw [finished]
      exact held_of_offers offers (started.trans held)
    · intro absent
      rw [finished]
      exact source_of_offers offers (started.trans absent)
    · rw [withheld]
      exact List.subset_append_left ..
    · intro absent among
      rw [finished] at absent
      rw [withheld, List.mem_append]
      exact .inl (withheld_of_absent offers among absent)

omit [ExactSecretStore Store] in
/-- A snapshot walk ends with the first predecessor that exported data. -/
theorem RowRuns.snapshot_ends (runs : RowRuns noObserver policy soleWorld s state row events s' state')
    (snapshot : policy ≠ .unionAllGenerations) (data : exportOf events ≠ []) :
    state'.terminated = true := by
  rcases runs.sole with ⟨-, -, nothing⟩ | ⟨items, sawData, e, -, -, ended, -⟩ |
    ⟨asked, items, secrets, sawData, s₁, s₂, rounds, offering, ending, first, engaged, exported, -, -, -,
      completes⟩
  · exact absurd nothing data
  · exact ended
  · rw [exported] at data
    rw [completes.terminated, authoritative_of_snapshot snapshot, engaged.data.mpr data]

variable {visits : List Visit}

theorem visits_hold (run : Visits noObserver policy soleWorld s state visits s' state')
    (own : isMarker key = false) (held : getSecret s key = some value) :
    getSecret s' key = some value :=
  run.invariant (fun s _ => getSecret s key = some value)
    (fun _ _ round held => ((rowRuns_of_executes round).selects own).held value held) held

omit [ExactSecretStore Store] in
theorem visits_ended (run : Visits noObserver policy soleWorld s state visits s' state')
    (ended : state.terminated = true) : s' = s := by
  induction run with
  | nil => rfl
  | cons round pushed _ ih =>
    obtain ⟨-, rfl, -, still⟩ := row_ended ended round pushed
    exact ih still

theorem visits_withhold (run : Visits noObserver policy soleWorld s state visits s' state')
    (own : isMarker key = false) (absent : getSecret s key = none)
    (withheld : key ∈ state.withheldKeys) : getSecret s' key = none := by
  refine (run.invariant (fun s state => getSecret s key = none ∧ key ∈ state.withheldKeys) ?_
    ⟨absent, withheld⟩).1
  intro s₁ s₂ state₁ state₂ visit member round free
  have selects := (rowRuns_of_executes round).selects own
  rcases selects.source free.1 with still | ⟨value, -, -, offered⟩
  · exact ⟨still, selects.withholds free.2⟩
  · exact absurd free.2 offered

def FromNewest (key value : Bytes) (visits : List Visit) : Prop :=
  ∃ before visit after, visits = before ++ visit :: after ∧
    (∀ earlier ∈ before, ∀ pair ∈ exportOf earlier.calls, pair.1 ≠ key) ∧
    (key, value) ∈ exportOf visit.calls

theorem FromNewest.cons {visit : Visit} (from' : FromNewest key value visits)
    (without : ∀ pair ∈ exportOf visit.calls, pair.1 ≠ key) :
    FromNewest key value (visit :: visits) := by
  obtain ⟨before, newest, after, rfl, earlier, member⟩ := from'
  refine ⟨visit :: before, newest, after, rfl, ?_, member⟩
  intro other among
  rcases List.mem_cons.mp among with rfl | later
  · exact without
  · exact earlier other later

/-- A key that a walk adds holds a value of the newest predecessor whose export held it. -/
theorem visits_select (run : Visits noObserver policy soleWorld s state visits s' state')
    (own : isMarker key = false) (absent : getSecret s key = none) :
    getSecret s' key = none ∨ ∃ value, getSecret s' key = some value ∧ FromNewest key value visits := by
  induction run with
  | nil => exact .inl absent
  | @cons s s₁ s' state state₁ state' visit visits round pushed rest ih =>
    have selects := (rowRuns_of_executes round).selects own
    by_cases exported : ∃ pair ∈ exportOf visit.calls, pair.1 = key
    · -- The newest predecessor with the key decides: older ones add nothing to what it left.
      cases left : getSecret s₁ key with
      | none =>
        left
        rcases selects.absent left exported with withheld | ended
        · exact visits_withhold rest own left withheld
        · rw [visits_ended rest ended]
          exact left
      | some value =>
        right
        refine ⟨value, visits_hold rest own left, [], visit, visits, rfl, by simp, ?_⟩
        rcases selects.source absent with none | ⟨found, now, member, -⟩
        · rw [none] at left
          cases left
        · rw [now] at left
          rw [← Option.some.inj left]
          exact member
    · have without : ∀ pair ∈ exportOf visit.calls, pair.1 ≠ key :=
        fun pair member same => exported ⟨pair, member, same⟩
      have still : getSecret s₁ key = none := by
        rcases selects.source absent with none | ⟨value, -, member, -⟩
        · exact none
        · exact absurd rfl (without _ member)
      rcases ih still with none | ⟨value, now, from'⟩
      · exact .inl none
      · exact .inr ⟨value, now, from'.cons without⟩

def FromSnapshot (key value : Bytes) (visits : List Visit) : Prop :=
  ∃ before visit after, visits = before ++ visit :: after ∧
    (∀ earlier ∈ before, exportOf earlier.calls = []) ∧ (key, value) ∈ exportOf visit.calls

theorem visits_snapshot (run : Visits noObserver policy soleWorld s state visits s' state')
    (snapshot : policy ≠ .unionAllGenerations) (own : isMarker key = false)
    (absent : getSecret s key = none) (added : getSecret s' key = some value) :
    FromSnapshot key value visits := by
  induction run with
  | nil =>
    rw [absent] at added
    cases added
  | @cons s s₁ s' state state₁ state' visit visits round pushed rest ih =>
    have runs := rowRuns_of_executes round
    by_cases data : exportOf visit.calls = []
    · have still : getSecret s₁ key = none := by
        rcases (runs.selects own).source absent with none | ⟨value, -, member, -⟩
        · exact none
        · rw [data] at member
          cases member
      obtain ⟨before, newest, after, rfl, earlier, member⟩ := ih still added
      refine ⟨visit :: before, newest, after, rfl, ?_, member⟩
      intro other among
      rcases List.mem_cons.mp among with rfl | later
      · exact data
      · exact earlier other later
    · rw [visits_ended rest (runs.snapshot_ends snapshot data)] at added
      refine ⟨[], visit, visits, rfl, by simp, ?_⟩
      rcases (runs.selects own).source absent with none | ⟨found, now, member, -⟩
      · rw [none] at added
        cases added
      · rw [now] at added
        rw [← Option.some.inj added]
        exact member

end Rows

/-- An answer of a predecessor, which its key's bytes name, that answers with its export, and of a
    successor that refuses nothing. -/
def Granted (exports : Fixed 32 → List SecretPair) : Event Request Answer → Prop
  | ⟨.probeVerdict _, answer⟩ => answer = .ok .executable
  | ⟨.fetchSecrets predecessor, answer⟩ => answer = .ok (exports predecessor.bytes)
  | ⟨.recordMarker _ _, answer⟩ => answer = .ok ()
  | ⟨.writeSecret _, answer⟩ => answer.Landed
  | _ => True

instance (exports : Fixed 32 → List SecretPair) :
    ∀ event : Event Request Answer, Decidable (Granted exports event)
  | ⟨.probeVerdict _, answer⟩ => inferInstanceAs (Decidable (answer = .ok .executable))
  | ⟨.fetchSecrets predecessor, answer⟩ =>
    inferInstanceAs (Decidable (answer = .ok (exports predecessor.bytes)))
  | ⟨.recordMarker _ _, answer⟩ => inferInstanceAs (Decidable (answer = .ok ()))
  | ⟨.writeSecret _, answer⟩ =>
    inferInstanceAs (Decidable (answer = .written ∨ answer = .alreadyAuthoritative))
  | ⟨.migrationMarker _, _⟩ | ⟨.flushPredecessor _, _⟩ | ⟨.loadJournal, _⟩ | ⟨.storeJournal _, _⟩ =>
    inferInstanceAs (Decidable True)

def hasData (secrets : List SecretPair) : Bool := secrets.any fun pair => !isMarker pair.1

/-- What a run that is granted everything imports: the union of all exports with the newest first, or
    the newest that holds data. -/
def selected (policy : SecretSelectionPolicy) (exports : Fixed 32 → List SecretPair)
    (rows : List (DelegateKey × UInt32)) : List SecretPair :=
  match policy with
  | .unionAllGenerations => rows.flatMap fun row => exports row.1.bytes
  | _ => ((rows.map fun row => exports row.1.bytes).find? hasData).getD []

section Granted

variable {exports : Fixed 32 → List SecretPair}

theorem lookup_filter_own (own : isMarker key = false) (secrets : List SecretPair) :
    (secrets.filter fun pair => !isMarker pair.1).lookup key = secrets.lookup key := by
  induction secrets with
  | nil => rfl
  | cons pair rest ih =>
    obtain ⟨name, value⟩ := pair
    by_cases same : key = name
    · subst same
      rw [List.filter_cons_of_pos (by simp [own]), List.lookup_cons_self, List.lookup_cons_self]
    · rw [List.lookup_cons, beq_false_of_ne same, List.filter_cons]
      split
      · rw [List.lookup_cons, beq_false_of_ne same]
        exact ih
      · exact ih

theorem hasData_iff : hasData secrets = true ↔ ∃ pair ∈ secrets, isMarker pair.1 = false := by
  simp [hasData]

theorem lookup_of_no_data (own : isMarker key = false) (empty : hasData secrets = false) :
    secrets.lookup key = none := by
  rw [← lookup_filter_own own, List.lookup_eq_none_iff]
  intro pair member
  have data := List.any_eq_false.mp empty pair (List.mem_filter.mp member).1
  exact absurd (List.mem_filter.mp member).2 data

variable [SoundSecretStore Store]

/-- Each predecessor is unmarked, or marked as what its export is with every key of it held, and the
    older import left no marker. -/
structure Known (exports : Fixed 32 → List SecretPair) (store : Store) : Prop where
  older : ∀ name, DONE_PREFIX <+: name → getSecret store name = none
  marked : ∀ predecessor : DelegateKey,
    (getSecret store (predDoneMarker predecessor) = none ∧
      getSecret store (predWipMarker predecessor) = none) ∨
    (predecessorMigrationHadData store predecessor = some (hasData (exports predecessor.bytes)) ∧
      ∀ pair ∈ exports predecessor.bytes, isMarker pair.1 = false →
        (getSecret store pair.1).isSome = true)

theorem Known.unmarked (known : Known exports store)
    (done : getSecret store (predDoneMarker row.1) = none)
    (wip : getSecret store (predWipMarker row.1) = none) :
    SecretStoreIo.migrationMarker store (queryOf policy row) = none := by
  have unlisted : completedGenerations store = [] := by
    have nothing : listSecrets store DONE_PREFIX = [] := by
      rw [List.eq_nil_iff_forall_not_mem]
      intro name listed
      obtain ⟨starts, held⟩ := SoundSecretStore.held_of_listed store DONE_PREFIX name listed
      rw [known.older name starts] at held
      cases held
    unfold completedGenerations
    rw [nothing]
    rfl
  have above : ∀ generation, legacyGenerationMigrated store generation = false := by
    intro generation
    unfold legacyGenerationMigrated newestCompletedGeneration
    rw [unlisted]
    rfl
  have exact' : ∀ generation, legacyGenerationMigratedExact store generation = false := by
    intro generation
    unfold legacyGenerationMigratedExact
    rw [ExactSecretStore.hasSecret_eq, known.older (doneMarker generation) (List.prefix_append DONE_PREFIX _)]
    rfl
  unfold SecretStoreIo.migrationMarker queryOf emptySealContradicted
  rw [done, wip, above, exact']
  cases policy.legacyBridge <;> rfl

omit [SoundSecretStore Store] in
theorem offered_granted [ExactSecretStore Store] {pair : SecretPair} {answer : ItemWrite}
    (landed : answer.Landed)
    (wrote : (answer, final) = SecretStoreIo.writeSecret store (itemOf asked pair)) (key : Bytes) :
    getSecret final key = (getSecret store key).or ([pair].lookup key) := by
  obtain ⟨name, content⟩ := pair
  rcases writeSecret_cases wrote with ⟨-, rfl, held⟩ | ⟨free, others, outcome⟩
  · by_cases same : key = name
    · subst same
      obtain ⟨value, found⟩ := Option.isSome_iff_exists.mp held
      change getSecret final key = some value at found
      rw [found]
      rfl
    · rw [List.lookup_cons, beq_false_of_ne same, List.lookup_nil, Option.or_none]
  · by_cases same : key = name
    · subst same
      change getSecret store key = none at free
      rw [free, List.lookup_cons_self]
      rcases outcome with ⟨-, now⟩ | ⟨⟨error, rfl⟩, -⟩
      · exact now
      · rcases landed with other | other <;> cases other
    · rw [List.lookup_cons, beq_false_of_ne same, List.lookup_nil, Option.or_none]
      exact others key same

/-- Where nothing is refused or withheld, offering adds what the items hold first. -/
theorem offers_granted
    (offers : Iterates soleWorld (offerItem asked []) s offering items rounds s' result)
    (granted : ∀ event ∈ rounds.flatten, Granted exports event) :
    result.tally.isClean = offering.tally.isClean ∧ result.failure = offering.failure ∧
      result.newlyWithheld = offering.newlyWithheld ∧
      ∀ key, getSecret s' key = (getSecret s key).or (items.lookup key) := by
  induction offers with
  | nil => simp
  | @cons s middle s' offering _ _ pair items _ _ round rest ih =>
    obtain ⟨clean, failure, withheld, contents⟩ :=
      ih fun event member => granted event (List.mem_append_right _ member)
    rcases offerItem_cases round with ⟨absurd', -, -, -⟩ | ⟨-, answer, rfl, wrote, rfl⟩
    · cases absurd'
    · have landed : answer.Landed := granted _ (List.mem_append_left _ (List.mem_singleton_self _))
      have same : (offering.answered pair.1 answer).tally.isClean = offering.tally.isClean ∧
          (offering.answered pair.1 answer).failure = offering.failure ∧
          (offering.answered pair.1 answer).newlyWithheld = offering.newlyWithheld := by
        rcases landed with rfl | rfl <;> exact ⟨rfl, rfl, rfl⟩
      refine ⟨clean.trans same.1, failure.trans same.2.1, withheld.trans same.2.2, ?_⟩
      intro key
      rw [contents key, offered_granted landed wrote key, Option.or_assoc, ← List.lookup_append,
        List.singleton_append]

theorem completed_of_granted {begun ending : History} {s₂ : Store}
    (open' : state.withheldKeys = [])
    (begins : Begins noObserver policy soleWorld s state row asked items sawData begun s₁ observed)
    (offers : Iterates soleWorld (offerItem asked state.withheldKeys) s₁ .start items rounds s₂ offering)
    (completes : Completes policy soleWorld s₂ state asked sawData offering ending s' state')
    (granted : ∀ event ∈ begun ++ rounds.flatten ++ ending, Granted exports event) :
    state'.withheldKeys = [] ∧
      state'.terminated = policy.dataBearingIsAuthoritative (hasData (exports row.1.bytes)) ∧
      predecessorMigrationHadData s' row.1 = some (hasData (exports row.1.bytes)) ∧
      (∀ name, DONE_PREFIX <+: name → getSecret s' name = getSecret s name) ∧
      ∀ key, isMarker key = false →
        getSecret s' key = (getSecret s key).or ((exports row.1.bytes).lookup key) := by
  rw [open'] at offers
  obtain ⟨clean, failure, withheld, contents⟩ := offers_granted offers fun event member =>
    granted event (List.mem_append_left _ (List.mem_append_right _ member))
  cases begins with
  | overSeal engages begun emptySeal => exact absurd emptySeal (engages.on.unsealed_plain false)
  | unsealed engages intent noSeal =>
    obtain ⟨fetched, engaged⟩ := engages.plain
    have exported : fetched = exports row.1.bytes := by
      have member : (⟨.fetchSecrets row.1, .ok fetched⟩ : Event Request Answer) ∈
          exportCalls policy row asked.marker fetched := by simp [exportCalls]
      rw [← engaged.calls] at member
      have answered := granted _ (List.mem_append_left _ (List.mem_append_left _
        (List.mem_append_left _ member)))
      exact Except.ok.inj answered
    have data : sawData = hasData (exports row.1.bytes) := by
      rw [Bool.eq_iff_iff, engaged.exported, hasData_iff, exported]
    have begins := Begins.unsealed engages intent noSeal
    rw [engages.still, engaged.key] at intent
    have own : ∀ name, DONE_PREFIX <+: name → ∀ pair ∈ items, pair.1 ≠ name := by
      rintro name starts pair member rfl
      rw [engaged.own, offerable_eq] at member
      have unreserved := (List.mem_filter.mp member).2
      rw [isMarker_of_done starts] at unreserved
      cases unreserved
    have marks : ∀ name marker, DONE_PREFIX <+: name →
        name ≠ SecretStoreIo.markerKey row.1 marker := by
      rintro name marker starts rfl
      cases marker with
      | inProgress => exact not_done_prefix_predWipMarker row.1 starts
      | done => exact not_done_prefix_predDoneMarker row.1 starts
    cases completes with
    | flushFailed flushed => cases flushed.1
    | unclean flushed unclean =>
      rw [clean, failure] at unclean
      cases unclean
    | sealRefused flushed finished refused =>
      cases granted _ (List.mem_append_right _ (List.mem_cons_of_mem _ (List.mem_singleton_self _)))
    | completed flushed finished recorded =>
      have kept := hadData_of_completed begins offers flushed recorded
      obtain ⟨-, rfl⟩ := flushed
      rw [engaged.key] at recorded
      refine ⟨?_, congrArg policy.dataBearingIsAuthoritative data, data ▸ kept, ?_, ?_⟩
      · exact (congrArg₂ List.append open' withheld).trans rfl
      · intro name starts
        rw [getSecret_recordMarker (marks name _ starts) recorded,
          getSecret_of_offers offers (own name starts),
          getSecret_recordMarker (marks name _ starts) intent]
      · intro key unreserved
        rw [getSecret_recordMarker (ne_markerKey unreserved) recorded, contents key,
          getSecret_recordMarker (ne_markerKey unreserved) intent, engaged.own, offerable_eq,
          lookup_filter_own unreserved, exported]

theorem imported_of_unmarked (live : state.terminated = false) (open' : state.withheldKeys = [])
    (runs : RowRuns noObserver policy soleWorld s state row events s' state')
    (granted : ∀ event ∈ events, Granted exports event)
    (unread : SecretStoreIo.migrationMarker s (queryOf policy row) = none) :
    state'.withheldKeys = [] ∧
      state'.terminated = policy.dataBearingIsAuthoritative (hasData (exports row.1.bytes)) ∧
      predecessorMigrationHadData s' row.1 = some (hasData (exports row.1.bytes)) ∧
      (∀ name, DONE_PREFIX <+: name → getSecret s' name = getSecret s name) ∧
      ∀ key, isMarker key = false →
        getSecret s' key = (getSecret s key).or ((exports row.1.bytes).lookup key) := by
  have other : ∀ {found s₁}, Opens noObserver policy soleWorld s state row found s₁ → found = none :=
    fun opens => (Except.ok.inj opens.read.1).trans unread
  have fresh : ∀ {asked calls}, AskedOn noObserver policy soleWorld s state row calls asked →
      asked.priorSawData = false := by
    intro asked calls on
    rw [on.prior_plain, on.marker_sole, unread]
    rfl
  cases runs with
  | superseded terminated =>
    rw [live] at terminated
    cases terminated
  | journalResolved live resolved => cases resolved
  | unreadable live unresolved failed => cases failed.1
  | emptySeal opens => cases other opens
  | dataSeal opens => cases other opens
  | flagRefused opens unsealed prior told =>
    obtain ⟨-, -, refused⟩ := told_plain told
    cases refused
  | silent asks gaveNone =>
    cases gaveNone with
    | notInstalled probed | noReply probed | probeFailed probed =>
      cases granted _ (List.mem_append_right _ (List.mem_singleton_self _))
    | fetchFailed probed fetched =>
      cases granted _ (List.mem_append_right _ (List.mem_cons_of_mem _ (List.mem_singleton_self _)))
  | short exports' prior =>
    rw [fresh exports'.on] at prior
    cases prior
  | importFlagRefused exports' nonempty told =>
    obtain ⟨-, -, refused⟩ := told_plain told
    cases refused
  | shortAfterFlag exports' nonempty told fewer => exact absurd fewer UInt32.not_lt_zero
  | beginRefused engages refused =>
    cases granted _ (List.mem_append_right _ (List.mem_singleton_self _))
  | notReadBack engages begun emptySeal =>
    exact absurd emptySeal (engages.on.unsealed_plain false)
  | offered begins offers completes => exact completed_of_granted open' begins offers completes granted

omit [SoundSecretStore Store] in
theorem hadData_bytes {q : DelegateKey} (same : q.bytes = p.bytes) :
    predecessorMigrationHadData store q = predecessorMigrationHadData store p := by
  unfold predecessorMigrationHadData emptySealContradicted
  rw [predDoneMarker_eq_iff.mpr same, predWipMarker_eq_iff.mpr same]

theorem Known.imported (known : Known exports s)
    (round : Executes soleWorld s (walkRow noObserver policy state row) events s' state')
    (imported : predecessorMigrationHadData s' row.1 = some (hasData (exports row.1.bytes)))
    (older : ∀ name, DONE_PREFIX <+: name → getSecret s' name = getSecret s name)
    (contents : ∀ key, isMarker key = false →
      getSecret s' key = (getSecret s key).or ((exports row.1.bytes).lookup key)) :
    Known exports s' := by
  constructor
  · exact fun name starts => (older name starts).trans (known.older name starts)
  · intro q
    by_cases same : q.bytes = row.1.bytes
    · right
      rw [hadData_bytes same, same]
      refine ⟨imported, ?_⟩
      intro pair member own
      have found : ((exports row.1.bytes).lookup pair.1).isSome = true := by
        rw [List.lookup_isSome_iff]
        exact ⟨pair, member, beq_self_eq_true _⟩
      rw [contents pair.1 own, Option.isSome_or, found, Bool.or_true]
    · have keeps : Keeps q.bytes s s' := keeps_others round (Ne.symm same)
      rcases known.marked q with ⟨done, wip⟩ | ⟨had, held⟩
      · exact .inl ⟨(keeps.done q rfl).trans done, (keeps.wip q rfl).trans wip⟩
      · refine .inr ⟨keeps.hadData.trans had, ?_⟩
        intro pair member own
        rw [contents pair.1 own, Option.isSome_or, held pair member own, Bool.true_or]

theorem row_granted {report : PredecessorMigration} (known : Known exports s)
    (live : state.terminated = false) (open' : state.withheldKeys = [])
    (round : Executes soleWorld s (walkRow noObserver policy state row) events s' state')
    (pushed : state'.results = state.results ++ [report])
    (granted : ∀ event ∈ events, Granted exports event) :
    Known exports s' ∧ state'.withheldKeys = [] ∧
      state'.terminated = policy.dataBearingIsAuthoritative (hasData (exports row.1.bytes)) ∧
      ∀ key, isMarker key = false →
        getSecret s' key = (getSecret s key).or ((exports row.1.bytes).lookup key) := by
  have runs := rowRuns_of_executes round
  rcases known.marked row.1 with ⟨done, wip⟩ | ⟨had, held⟩
  · obtain ⟨withheld, terminated, imported, older, contents⟩ :=
      imported_of_unmarked live open' runs granted (known.unmarked done wip)
    exact ⟨known.imported round imported older contents, withheld, terminated, contents⟩
  · obtain ⟨-, rfl, -, withheld, terminated⟩ :=
      row_replays live (reads_of_hadData had rfl) runs pushed
    refine ⟨known, withheld.trans open', terminated, ?_⟩
    intro key own
    cases found : getSecret s' key with
    | some value => rfl
    | none =>
      rw [Option.none_or, eq_comm, List.lookup_eq_none_iff]
      intro pair member
      apply bne_iff_ne.mpr
      intro same
      subst same
      have present := held pair member own
      rw [found] at present
      cases present

theorem selected_union (row : DelegateKey × UInt32) (rows : List (DelegateKey × UInt32)) :
    selected .unionAllGenerations exports (row :: rows) =
      exports row.1.bytes ++ selected .unionAllGenerations exports rows := List.flatMap_cons

theorem selected_snapshot (snapshot : policy ≠ .unionAllGenerations) (row : DelegateKey × UInt32)
    (rows : List (DelegateKey × UInt32)) :
    selected policy exports (row :: rows) =
      if hasData (exports row.1.bytes) then exports row.1.bytes else selected policy exports rows := by
  cases policy with
  | unionAllGenerations => exact absurd rfl snapshot
  | _ =>
    cases data : hasData (exports row.1.bytes) <;> simp [selected, data]

theorem visits_granted {visits : List Visit} (known : Known exports s)
    (live : state.terminated = false) (open' : state.withheldKeys = [])
    (run : Visits noObserver policy soleWorld s state visits s' state')
    (granted : ∀ visit ∈ visits, ∀ event ∈ visit.calls, Granted exports event)
    (own : isMarker key = false) :
    getSecret s' key =
      (getSecret s key).or ((selected policy exports (visits.map Visit.row)).lookup key) := by
  induction run with
  | nil s state =>
    have nothing : selected policy exports [] = [] := by cases policy <;> rfl
    rw [List.map_nil, nothing, List.lookup_nil, Option.or_none]
  | @cons s s₁ s' state state₁ state' visit visits round pushed rest ih =>
    obtain ⟨known', withheld, terminated, contents⟩ := row_granted known live open' round pushed
      (granted visit (List.mem_cons_self ..))
    have later := fun other member => granted other (List.mem_cons_of_mem visit member)
    rw [List.map_cons]
    by_cases union : policy = .unionAllGenerations
    · subst union
      rw [ih known' terminated withheld later, contents key own, selected_union, List.lookup_append,
        Option.or_assoc]
    · rw [authoritative_of_snapshot union] at terminated
      rw [selected_snapshot union]
      cases data : hasData (exports visit.row.1.bytes) with
      | true =>
        rw [data] at terminated
        rw [visits_ended rest terminated, contents key own, if_pos rfl]
      | false =>
        rw [data] at terminated
        rw [ih known' terminated withheld later, contents key own, lookup_of_no_data own data,
          Option.or_none, if_neg Bool.false_ne_true]

end Granted

/-- The raw-pair writer over a whole run: what was held keeps its value, what is added is of the newest
    predecessor whose export held the key, or under a snapshot policy of the newest with data, and a
    run that is granted everything ends with exactly what there was and what the policy selects. -/
theorem secret_selection [SoundSecretStore Store] {predecessors : List DelegateLineageEntry}
    {start : Store} {report : List PredecessorMigration}
    (run : Executes soleWorld start (migrateDelegateSecrets predecessors policy) events final report) :
    ∃ visits : List Visit, ∃ outcome : WalkState Unit,
      Visits noObserver policy soleWorld start (.start ()) visits final outcome ∧
      visits.map Visit.row = newestFirst predecessors ∧
      events = (visits.map Visit.calls).flatten ∧ report = visits.map Visit.report ∧
      (∀ key value, isMarker key = false → getSecret start key = some value →
        getSecret final key = some value) ∧
      (∀ key value, isMarker key = false → getSecret start key = none →
        getSecret final key = some value → FromNewest key value visits ∧
          (policy ≠ .unionAllGenerations → FromSnapshot key value visits)) ∧
      ∀ exports : Fixed 32 → List SecretPair,
        (∀ key, isMarker key = true → getSecret start key = none) →
        (∀ event ∈ events, Granted exports event) →
        ∀ key, isMarker key = false → getSecret final key =
          (getSecret start key).or ((selected policy exports (newestFirst predecessors)).lookup key) := by
  obtain ⟨visits, outcome, rows, rfl, results, visited⟩ := visits_of_migrate run
  refine ⟨visits, outcome, visited, rows, rfl, results,
    fun key value own held => visits_hold visited own held, ?_, ?_⟩
  · intro key value own absent added
    refine ⟨?_, fun snapshot => visits_snapshot visited snapshot own absent added⟩
    rcases visits_select visited own absent with none | ⟨found, now, from'⟩
    · rw [none] at added
      cases added
    · rw [now] at added
      rw [← Option.some.inj added]
      exact from'
  · intro exports unmarked granted key own
    have known : Known exports start := by
      constructor
      · exact fun name starts => unmarked name (isMarker_of_done starts)
      · intro p
        exact .inl ⟨unmarked _ (isMarker_markerKey p (.done true)),
          unmarked _ (isMarker_markerKey p (.inProgress true))⟩
    rw [← rows]
    refine visits_granted known rfl rfl visited ?_ own
    intro visit member event within
    exact granted event (mem_visitCalls.mpr ⟨visit, member, within⟩)

def sampleHolding : MemStore := ⟨[([7], [8])], []⟩

theorem secret_selection_sample :
    let run := sampleRerun.run (storeHandler sampleExports) sampleHolding
    getSecret run.2.1 [1] = some [2] ∧ getSecret run.2.1 [7] = some [8] ∧
      ∃ visits : List Visit, ∃ outcome : WalkState Unit,
        Visits noObserver .newestSnapshotWins soleWorld sampleHolding (.start ()) visits run.2.1
          outcome ∧
        run.1 = (visits.map Visit.calls).flatten ∧ FromNewest [1] [2] visits ∧
        FromSnapshot [1] [2] visits := by
  have unmarked : ∀ key, isMarker key = true → getSecret sampleHolding key = none := by
    intro key reserved
    change List.lookup key [([7], [8])] = none
    rw [List.lookup_cons, beq_false_of_ne ?_, List.lookup_nil]
    rintro rfl
    exact absurd reserved (by decide)
  have run : Executes soleWorld sampleHolding
      (migrateDelegateSecrets [sampleEntry 1, sampleEntry 2] .newestSnapshotWins)
      (sampleRerun.run (storeHandler sampleExports) sampleHolding).1
      (sampleRerun.run (storeHandler sampleExports) sampleHolding).2.1
      (sampleRerun.run (storeHandler sampleExports) sampleHolding).2.2 :=
    executes_run (soleWorld_storeHandler sampleExports) sampleHolding
  obtain ⟨visits, outcome, visited, -, calls, -, held, added, contents⟩ := secret_selection run
  have granted := contents (fun _ => [([1], [2])]) unmarked (by decide +kernel) [1] (by decide)
  have now : getSecret (sampleRerun.run (storeHandler sampleExports) sampleHolding).2.1 [1] =
      some [2] := granted.trans (by decide +kernel)
  obtain ⟨newest, snapshot⟩ := added [1] [2] (by decide) (by decide) now
  exact ⟨now, held [7] [8] (by decide) (by decide), visits, outcome, visited, calls, newest,
    snapshot (by decide)⟩

end FreenetMigrate.Migrate
