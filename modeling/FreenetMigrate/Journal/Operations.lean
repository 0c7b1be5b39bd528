import FreenetMigrate.Journal.Journal

namespace FreenetMigrate.Journal.MigrationJournal

open Migrate

@[simp] theorem getElem?_insert (journal : MigrationJournal) (key other : Fixed 32)
    (entry : JournalEntry) : (journal.insert key entry).entries[other]? =
      if key = other then some entry else journal.entries[other]? := by
  simp only [insert, Std.ExtTreeMap.getElem?_insert, compare_eq_iff_eq]

theorem state_insert (journal : MigrationJournal) (key other : Fixed 32) (entry : JournalEntry) :
    (journal.insert key entry).state other =
      if key = other then some entry.state else journal.state other := by
  unfold state
  rw [getElem?_insert]
  split <;> rfl

@[simp] theorem state_empty (key : Fixed 32) : empty.state key = none := by
  simp [state, empty]

theorem state_newPending {predecessors : List DelegateLineageEntry} {key : Fixed 32}
    {state : JournalState} (found : (newPending predecessors).state key = some state) :
    state = .fresh ∧ ∃ e ∈ predecessors, e.delegateKey = key := by
  have listed : ∀ (entries : List DelegateLineageEntry) (journal : MigrationJournal),
      (∀ state, journal.state key = some state → state = .fresh ∧
        ∃ e ∈ predecessors, e.delegateKey = key) → entries ⊆ predecessors → ∀ state,
      (entries.foldl (fun journal e => journal.insert e.delegateKey ⟨e.generation, .fresh⟩)
        journal).state key = some state → state = .fresh ∧ ∃ e ∈ predecessors, e.delegateKey = key := by
    intro entries
    induction entries with
    | nil => exact fun _ start _ => start
    | cons e rest ih =>
      intro journal start among
      refine ih _ ?_ (fun _ member => among (List.mem_cons_of_mem _ member))
      intro state found
      rw [state_insert] at found
      split at found
      · rename_i same
        exact ⟨(Option.some.inj found).symm, e, among (List.mem_cons_self ..), same⟩
      · exact start state found
  exact listed predecessors _ (fun _ found => by simp at found) (List.Subset.refl _) state found

theorem size_foldl_insert (predecessors : List DelegateLineageEntry) (journal : MigrationJournal) :
    let built := predecessors.foldl
      (fun journal e => journal.insert e.delegateKey ⟨e.generation, .fresh⟩) journal
    built.entries.size ≤ journal.entries.size + predecessors.length ∧
      (built.entries.size = journal.entries.size + predecessors.length ↔
        (predecessors.map DelegateLineageEntry.delegateKey).Nodup ∧
          ∀ e ∈ predecessors, e.delegateKey ∉ journal.entries) := by
  induction predecessors generalizing journal with
  | nil => simp
  | cons e rest ih =>
    obtain ⟨most, exact⟩ := ih (journal.insert e.delegateKey ⟨e.generation, .fresh⟩)
    dsimp only at most exact ⊢
    rw [List.foldl_cons, List.length_cons, List.map_cons, List.nodup_cons, List.forall_mem_cons]
    by_cases known : e.delegateKey ∈ journal.entries
    · have same : (journal.insert e.delegateKey ⟨e.generation, .fresh⟩).entries.size =
          journal.entries.size := by
        simp [insert, Std.ExtTreeMap.size_insert, known]
      rw [same] at most
      refine ⟨by omega, ?_⟩
      constructor
      · intro all
        omega
      · rintro ⟨-, unknown, -⟩
        exact absurd known unknown
    · have grown : (journal.insert e.delegateKey ⟨e.generation, .fresh⟩).entries.size =
          journal.entries.size + 1 := by
        simp [insert, Std.ExtTreeMap.size_insert, known]
      rw [grown] at most exact
      refine ⟨by omega, ?_⟩
      rw [show journal.entries.size + (rest.length + 1) = journal.entries.size + 1 + rest.length by omega,
        exact]
      simp only [insert, Std.ExtTreeMap.mem_insert, compare_eq_iff_eq, not_or, List.mem_map, not_exists,
        not_and]
      constructor
      · rintro ⟨others, apart⟩
        exact ⟨⟨fun other member same => (apart other member).1 same.symm, others⟩, known,
          fun other member => (apart other member).2⟩
      · rintro ⟨⟨apart, others⟩, -, unknown⟩
        exact ⟨others, fun other member =>
          ⟨fun same => apart other member same.symm, unknown other member⟩⟩

theorem size_newPending (predecessors : List DelegateLineageEntry) :
    (newPending predecessors).entries.size = predecessors.length ↔
      (predecessors.map DelegateLineageEntry.delegateKey).Nodup := by
  have exact := (size_foldl_insert predecessors empty).2
  simpa [empty, newPending] using exact

theorem getElem?_newPending {predecessors : List DelegateLineageEntry}
    (distinct : (predecessors.map DelegateLineageEntry.delegateKey).Nodup) {e : DelegateLineageEntry}
    (member : e ∈ predecessors) :
    (newPending predecessors).entries[e.delegateKey]? = some ⟨e.generation, .fresh⟩ := by
  obtain ⟨before, after, rfl⟩ := List.append_of_mem member
  have absent : ∀ other ∈ after, other.delegateKey ≠ e.delegateKey := by
    intro other later same
    rw [List.map_append, List.map_cons, List.nodup_append] at distinct
    have fresh := (List.nodup_cons.mp distinct.2.1).1
    exact fresh (List.mem_map.mpr ⟨other, later, same⟩)
  have kept (journal : MigrationJournal) :
      (after.foldl (fun journal e => journal.insert e.delegateKey ⟨e.generation, .fresh⟩)
        journal).entries[e.delegateKey]? = journal.entries[e.delegateKey]? := by
    clear distinct member
    induction after generalizing journal with
    | nil => rfl
    | cons other rest ih =>
      obtain ⟨apart, others⟩ := List.forall_mem_cons.mp absent
      rw [List.foldl_cons, ih others, getElem?_insert, if_neg apart]
  unfold newPending
  rw [List.foldl_append, List.foldl_cons, kept, getElem?_insert, if_pos rfl]

theorem entry_state (journal : MigrationJournal) (predecessor : DelegateKey) :
    (journal.entry predecessor).map JournalEntry.state = journal.state predecessor.bytes := rfl

theorem state_rebind (journal : MigrationJournal) (binding : JournalBinding) (key : Fixed 32) :
    (journal.rebind binding).state key = (journal.state key).map (effective · binding) := by
  unfold state rebind
  rw [Std.ExtTreeMap.getElem?_map, Option.map_map, Option.map_map]
  rfl

def current (journal : MigrationJournal) (key : Fixed 32) : JournalState :=
  (journal.state key).getD .fresh

theorem entryOrFresh_state (journal : MigrationJournal) (predecessor : DelegateKey)
    (generation : UInt32) :
    (journal.entryOrFresh predecessor generation).state = journal.current predecessor.bytes := by
  unfold entryOrFresh current
  rw [← entry_state]
  cases journal.entry predecessor <;> rfl

theorem state_markImportStarted (journal : MigrationJournal) (predecessor : DelegateKey)
    (generation : UInt32) (key : Fixed 32) :
    (journal.markImportStarted predecessor generation).1.state key =
      if predecessor.bytes = key then some (startImport (journal.current predecessor.bytes)).1
      else journal.state key := by
  simp only [markImportStarted, entryOrFresh_state, state_insert]

theorem markImportStarted_changed (journal : MigrationJournal) (predecessor : DelegateKey)
    (generation : UInt32) :
    (journal.markImportStarted predecessor generation).2 =
      (startImport (journal.current predecessor.bytes)).2 := by
  simp only [markImportStarted, entryOrFresh_state]

theorem startImport_of_unchanged {state : JournalState} (unchanged : (startImport state).2 = false) :
    (startImport state).1 = state := by
  cases state with
  | pending attempts flag =>
    cases flag with
    | none => cases unchanged
    | started => rfl
  | resolved resolution =>
    simp only [startImport] at unchanged ⊢
    split
    · rfl
    · rename_i other
      rw [if_neg other] at unchanged
      cases unchanged

theorem state_record (journal : MigrationJournal) (predecessor : DelegateKey)
    (generation : UInt32) (outcome : RunOutcome) (key : Fixed 32) :
    (journal.record predecessor generation outcome).state key =
      if predecessor.bytes = key then
        some (mergeStates (journal.current predecessor.bytes)
          (outcomeState (journal.current predecessor.bytes) outcome))
      else journal.state key := by
  simp only [record, entryOrFresh_state, state_insert]

theorem noteItemsSeen_of_unchanged {journal : MigrationJournal} {predecessor : DelegateKey}
    {items : UInt32} (unchanged : (journal.noteItemsSeen predecessor items).2 = false) :
    (journal.noteItemsSeen predecessor items).1 = journal := by
  unfold noteItemsSeen at unchanged ⊢
  split
  · split
    · rename_i found fewer
      simp only [found, if_pos fewer] at unchanged
      cases unchanged
    · rfl
  · rfl

def raiseCount (items : UInt32) : JournalState → JournalState
  | .pending attempts .started rejected absentStreak itemsSeen =>
    .pending attempts .started rejected absentStreak (if itemsSeen < items then items else itemsSeen)
  | other => other

theorem state_noteItemsSeen (journal : MigrationJournal) (predecessor : DelegateKey)
    (items : UInt32) (key : Fixed 32) :
    (journal.noteItemsSeen predecessor items).1.state key =
      if predecessor.bytes = key then (journal.state key).map (raiseCount items)
      else journal.state key := by
  unfold noteItemsSeen
  split
  · rename_i generation attempts rejected absentStreak seen found
    have held : journal.state predecessor.bytes =
        some (.pending attempts .started rejected absentStreak seen) := by
      rw [← entry_state, found]
      rfl
    split
    · rename_i fewer
      rw [state_insert]
      split
      · rename_i same
        rw [← same, held, Option.map_some, raiseCount, if_pos fewer]
      · rfl
    · rename_i enough
      split
      · rename_i same
        rw [← same, held, Option.map_some, raiseCount, if_neg enough]
      · rfl
  · rename_i notStarted
    split
    · rename_i same
      rw [← same]
      cases found : journal.entry predecessor with
      | none =>
        have absent : journal.state predecessor.bytes = none := by
          rw [← entry_state, found]
          rfl
        rw [absent]
        rfl
      | some entry =>
        obtain ⟨generation, state⟩ := entry
        have held : journal.state predecessor.bytes = some state := by
          rw [← entry_state, found]
          rfl
        have kept : raiseCount items state = state := by
          cases state with
          | resolved => rfl
          | pending attempts flag rejected absentStreak seen =>
            cases flag with
            | none => rfl
            | started => exact (notStarted _ _ _ _ _ found).elim
        rw [held, Option.map_some, kept]
    · rfl

def mergeState (binding : Option JournalBinding) (ours : Option JournalState)
    (theirs : JournalState) : JournalState :=
  match ours with
  | some ours => mergeStates (evaluate binding theirs) (evaluate binding ours)
  | none => evaluate binding theirs

theorem mergeEntry_state (binding : Option JournalBinding) (ours : Option JournalEntry)
    (theirs : JournalEntry) :
    (mergeEntry binding ours theirs).state =
      mergeState binding (ours.map JournalEntry.state) theirs.state := by
  cases ours <;> rfl

theorem getElem?_foldl_insert (put : Option JournalEntry → JournalEntry → JournalEntry)
    (entries : List (Fixed 32 × JournalEntry)) (journal : MigrationJournal) (key : Fixed 32)
    (distinct : entries.Pairwise fun a b => ¬ compare a.1 b.1 = .eq) :
    (entries.foldl (fun journal new => journal.insert new.1 (put journal.entries[new.1]? new.2))
        journal).entries[key]? =
      match entries.find? fun new => new.1 == key with
      | some new => some (put journal.entries[key]? new.2)
      | none => journal.entries[key]? := by
  induction entries generalizing journal with
  | nil => rfl
  | cons new rest ih =>
    obtain ⟨apart, remaining⟩ := List.pairwise_cons.mp distinct
    rw [List.foldl_cons, ih _ remaining, List.find?_cons, getElem?_insert]
    by_cases same : new.1 = key
    · subst same
      have absent : rest.find? (fun other => other.1 == new.1) = none := by
        rw [List.find?_eq_none]
        intro other member equal
        have differs := apart other member
        rw [compare_eq_iff_eq] at differs
        exact differs (beq_iff_eq.mp equal).symm
      simp only [absent, if_true, beq_self_eq_true]
    · have first : (new.1 == key) = false := by simp [same]
      simp only [same, if_false, first]

theorem find?_toList (journal : MigrationJournal) (key : Fixed 32) :
    (journal.entries.toList.find? fun new => new.1 == key).map Prod.snd =
      journal.entries[key]? := by
  cases found : journal.entries.toList.find? fun new => new.1 == key with
  | none =>
    cases held : journal.entries[key]? with
    | none => rfl
    | some entry =>
      have member := Std.ExtTreeMap.mem_toList_iff_getElem?_eq_some.mpr held
      have differs := List.find?_eq_none.mp found _ member
      simp at differs
  | some new =>
    have member := List.mem_of_find?_eq_some found
    have same : new.1 = key := by simpa using List.find?_some found
    rw [← same, Option.map_some]
    exact (Std.ExtTreeMap.mem_toList_iff_getElem?_eq_some.mp member).symm

/-- Each stored entry is merged once, into ours or beside it; ours alone stands as it is. -/
theorem state_mergeStored (journal stored : MigrationJournal) (binding : Option JournalBinding)
    (key : Fixed 32) :
    (journal.mergeStored stored binding).state key =
      match stored.state key with
      | some theirs => some (mergeState binding (journal.state key) theirs)
      | none => journal.state key := by
  have looked := find?_toList stored key
  unfold mergeStored state
  rw [Std.ExtTreeMap.foldl_eq_foldl_toList,
    getElem?_foldl_insert (mergeEntry binding) _ journal key Std.ExtTreeMap.distinct_keys_toList,
    ← looked]
  cases stored.entries.toList.find? fun new => new.1 == key with
  | none => rfl
  | some theirs => exact congrArg some (mergeEntry_state ..)

end FreenetMigrate.Journal.MigrationJournal
