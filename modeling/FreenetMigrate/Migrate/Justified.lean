import FreenetMigrate.Migrate.Seeded
import FreenetMigrate.Migrate.Taken

namespace FreenetMigrate.Migrate

open Calls Journal MigrationJournal

def Justified (policy : SecretSelectionPolicy) (s : Successor) (key : DelegateKey)
    (generation : UInt32) : ResolutionKind → Prop
  | .imported => s.own key generation = some (.done true)
  | .noData => s.own key generation = some (.done false)
  | .importedWithRejections => False
  | .supersededByAuthoritative =>
      policy.legacyBridge = .atOrAboveGeneration ∧ s.NewerSeal generation

theorem Seeded.justified {policy : SecretSelectionPolicy} {s : Successor} {key : DelegateKey}
    {generation : UInt32} {kind : ResolutionKind} (seeded : Seeded policy s key generation kind) :
    Justified policy s key generation kind := by
  cases kind with
  | imported | noData | importedWithRejections => exact seeded
  | supersededByAuthoritative =>
    obtain ⟨above, read, other⟩ := seeded
    rw [above] at read
    exact ⟨above, s.newerSeal read other⟩

theorem SameMarker.justified {policy : SecretSelectionPolicy} {s s' : Successor} {key : DelegateKey}
    (same : SameMarker key.bytes s s') (generation : UInt32) :
    Justified policy s' key generation = Justified policy s key generation := by
  funext kind
  cases kind <;> simp only [Justified, Successor.NewerSeal, same.own, same.seals]

section Journal

variable [Ciborium] [LawfulCiborium] {binding : JournalBinding} {kinds : ResolutionKind → Prop}
  {key : Fixed 32} {s s' : Successor} {events : History} {journal after : MigrationJournal}
  {rebuild : Option (List DelegateLineageEntry × SecretSelectionPolicy)}
  {result : Except JournalError Unit} {journalKey : Bytes} {row : DelegateKey × UInt32}
  {predecessors : List DelegateLineageEntry} {policy : SecretSelectionPolicy}

omit [Ciborium] [LawfulCiborium] in
theorem admits_flag {watch : JournalWatch} (admits : Admits binding kinds watch.journal key)
    (predecessor : DelegateKey) (generation : UInt32) (items : Option UInt32) :
    Admits binding kinds (watch.flag predecessor generation items).1 key := by
  have marked := admits.markImportStarted predecessor generation
  cases items with
  | none => exact marked
  | some n => exact marked.noteItemsSeen predecessor n

theorem Stores.ranks
    (stores : Stores successorWorld s journal (some binding) rebuild events s' result after)
    (readable : Readable s)
    (same : storedRank binding s.journal key = journal.effectiveRank binding key) :
    storedRank binding s'.journal key = after.effectiveRank binding key ∧
      after.effectiveRank binding key = journal.effectiveRank binding key := by
  have kept : after.effectiveRank binding key = journal.effectiveRank binding key := by
    rcases stores.after_cases with rfl | merges
    · rfl
    · cases merges with
      | absent => rfl
      | present loaded decoded =>
        obtain ⟨found, rfl⟩ := loaded
        rw [← found, storedRank, storedJournal_of_decode decoded] at same
        have theirs : effectiveRank _ binding key = journal.effectiveRank binding key := same
        rw [effectiveRank_mergeStored, theirs, max_self]
      | rebuilt loaded corrupt =>
        obtain ⟨found, rfl⟩ := loaded
        rw [Readable, ← found, storedJournal, Option.bind_some, corrupt] at readable
        cases readable
  refine ⟨?_, kept⟩
  rcases stores.stored_cases journalKept_successorWorld with ⟨unmoved, -⟩ | ⟨written, -⟩
  · rw [unmoved, same, kept]
  · rw [written, storedRank_encode]

theorem carries_standing : Carries (journalObserver journalKey binding predecessors policy)
    successorWorld row fun s watch => Readable s ∧ Standing binding kinds key s watch.journal := by
  refine ⟨?_, ?_⟩
  · intro s request answer s' watch made ⟨readable, standing⟩ notStore
    have same := journalKept_successorWorld.reads notStore made
    refine ⟨?_, standing.of_stored same⟩
    rw [Readable, same]
    exact readable
  · intro s watch items events s' answer after told ⟨readable, standing⟩
    have flagged : Standing binding kinds key s (watch.flag row.1 row.2 items).1 :=
      ⟨admits_flag standing.ours _ _ _, standing.stored⟩
    rcases told_cases told with ⟨-, -, rfl, rfl, -⟩ | ⟨result, stores, -⟩
    · exact ⟨readable, flagged⟩
    · refine ⟨stores.readable (.inl readable), stores.standing flagged ?_⟩
      intro unreadable
      rw [Readable, unreadable] at readable
      cases readable

theorem carries_ranks (other : row.1.bytes ≠ key) :
    Carries (journalObserver journalKey binding predecessors policy) successorWorld row
      fun s watch => Readable s ∧
        storedRank binding s.journal key = watch.journal.effectiveRank binding key := by
  refine ⟨?_, ?_⟩
  · intro s request answer s' watch made ⟨readable, same⟩ notStore
    have unmoved := journalKept_successorWorld.reads notStore made
    rw [Readable, unmoved]
    exact ⟨readable, same⟩
  · intro s watch items events s' answer after told ⟨readable, same⟩
    have flagged : storedRank binding s.journal key =
        (watch.flag row.1 row.2 items).1.effectiveRank binding key := by
      rw [effectiveRank, JournalWatch.state_flag, if_neg other]
      exact same
    rcases told_cases told with ⟨-, -, rfl, rfl, -⟩ | ⟨result, stores, -⟩
    · exact ⟨readable, flagged⟩
    · exact ⟨stores.readable (.inl readable), (stores.ranks readable flagged).1⟩

end Journal

section Row

variable [Ciborium] [LawfulCiborium] {binding : JournalBinding} {s s' : Successor} {events : History}
  {journalKey : Bytes} {predecessors : List DelegateLineageEntry} {policy : SecretSelectionPolicy}
  {state state' : WalkState JournalWatch} {row : DelegateKey × UInt32} {asked : Asked}

omit [LawfulCiborium] in
/-- A journal that resolves a predecessor does not know of data that is still to be imported. -/
theorem knownData_of_resolved {watch : WalkState JournalWatch} {resolution : JournalResolution}
    (resolved : watch.observed.journal.effectiveState row.1.bytes binding =
      some (.resolved resolution)) :
    knownData (journalObserver journalKey binding predecessors policy) watch row.1 = false := by
  obtain ⟨held, -⟩ := effectiveState_resolved resolved
  rw [← entry_state] at held
  simp [knownData, journalObserver, JournalWatch.importStarted, JournalWatch.stateOf,
    MigrationJournal.itemsSeen, held]

omit [LawfulCiborium] in
theorem AskedOn.unresolved
    (on : AskedOn (journalObserver journalKey binding predecessors policy) policy successorWorld s
      state row events asked)
    (standing : Standing binding (Seeded policy s row.1 row.2) row.1.bytes s state.observed.journal)
    (ranks : storedRank binding s.journal row.1.bytes =
      state.observed.journal.effectiveRank binding row.1.bytes) :
    Standing binding (fun _ => False) row.1.bytes s state.observed.journal := by
  obtain ⟨s₁, opens⟩ := on.opened
  have unsealed := on.unsealed
  have read := opens.read.1
  have ours : Admits binding (fun _ => False) state.observed.journal row.1.bytes := by
    intro resolution found
    have unknown : knownData (journalObserver journalKey binding predecessors policy) state row.1 =
        false := knownData_of_resolved found
    rw [unknown] at unsealed
    have seeded := standing.ours resolution found
    have notSealed : asked.marker ≠ some (.done true) := by
      intro sealed
      rw [sealed] at unsealed
      cases unsealed
    cases kind : resolution.kind with
    | imported =>
      rw [kind] at seeded
      exact notSealed (read.trans (Successor.marker_of_own_done seeded))
    | noData =>
      rw [kind] at seeded
      rw [read] at notSealed
      have own := (Successor.own_of_marker notSealed).symm.trans seeded
      rw [read, own] at unsealed
      cases unsealed
    | importedWithRejections =>
      rw [kind] at seeded
      exact seeded
    | supersededByAuthoritative =>
      rw [kind] at seeded
      exact notSealed (read.trans seeded.2.1)
  refine ⟨ours, ?_⟩
  intro stored found
  rw [storedRank, found] at ranks
  exact ours.of_rank ranks

def gaveNone : PredecessorMigration → Bool
  | .unresponsive _ _ _ => true
  | _ => false

omit [LawfulCiborium] in
/-- A predecessor that is reported to have given none was asked; a row that asks no predecessor
    only reads. -/
theorem RowRuns.asks_or_reads {report : PredecessorMigration}
    (runs : RowRuns (journalObserver journalKey binding predecessors policy) policy successorWorld s
      state row events s' state') (pushed : state'.results = state.results ++ [report]) :
    (∃ asked, AskedOn (journalObserver journalKey binding predecessors policy) policy successorWorld s
      state row events asked) ∨ (gaveNone report = false ∧ ∀ key, SameMarker key s s') := by
  rcases runs.reads_or_asks with reads | asked
  · have reported : ∀ {other : PredecessorMigration}, state'.results = state.results ++ [other] →
        gaveNone other = false → gaveNone report = false := by
      intro other same none
      exact report_unique same pushed ▸ none
    cases runs with
    | superseded | journalResolved =>
      exact .inr ⟨reported rfl rfl, fun key => .refl key s⟩
    | unreadable live unresolved failed =>
      exact .inr ⟨reported rfl rfl, fun key => sameMarker_of_call failed trivial⟩
    | emptySeal opens =>
      exact .inr ⟨reported rfl rfl, fun key => sameMarker_of_call opens.read trivial⟩
    | @dataSeal bridged _ _ _ opens checked =>
      refine .inr ⟨by cases bridged <;> exact reported rfl rfl, fun key => ?_⟩
      have only : Only (NotMarking key) _ :=
        (only_cons.mp reads).2.mono fun _ => JournalCall.notMarking
      exact (sameMarker_of_call opens.read trivial).trans (sameMarker_of_steps checked.steps only)
    | @flagRefused marker _ _ _ _ _ opens unsealed prior told =>
      exact .inl ⟨askedOf (knownData _ state row.1) row marker, ⟨_, opens⟩, rfl, unsealed,
        List.mem_cons_self ..⟩
    | silent asks => exact .inl ⟨_, asks.on.mono (List.subset_append_left ..)⟩
    | short exports => exact .inl ⟨_, exports.on⟩
    | importFlagRefused exports | shortAfterFlag exports =>
      exact .inl ⟨_, exports.on.mono (List.subset_append_left ..)⟩
    | beginRefused engages | notReadBack engages =>
      exact .inl ⟨_, engages.on.mono (List.subset_append_left ..)⟩
    | offered begins =>
      rw [List.append_assoc]
      exact .inl ⟨_, begins.on.mono (List.subset_append_left ..)⟩
  · exact .inl asked

/-- After its own row, a predecessor is resolved only as its markers justify, and not at all where
    it gave no answer. -/
theorem RowRuns.justified {report : PredecessorMigration}
    (runs : RowRuns (journalObserver journalKey binding predecessors policy) policy successorWorld s
      state row events s' state') (pushed : state'.results = state.results ++ [report])
    (readable : Readable s)
    (standing : Standing binding (Seeded policy s row.1 row.2) row.1.bytes s state.observed.journal)
    (ranks : storedRank binding s.journal row.1.bytes =
      state.observed.journal.effectiveRank binding row.1.bytes) :
    Standing binding (fun kind => gaveNone report = false ∧ Justified policy s' row.1 row.2 kind)
      row.1.bytes s' state'.observed.journal := by
  rcases runs.asks_or_reads pushed with ⟨asked, on⟩ | ⟨answered, same⟩
  · have unresolved := on.unresolved standing ranks
    obtain ⟨-, kept⟩ := runs.carries carries_standing ⟨readable, unresolved⟩
    exact kept.mono fun _ => False.elim
  · obtain ⟨-, kept⟩ := runs.carries carries_standing ⟨readable, standing⟩
    refine kept.mono fun kind seeded => ⟨answered, ?_⟩
    rw [(same row.1.bytes).justified]
    exact seeded.justified

end Row

section Walk

variable [Ciborium] [LawfulCiborium] {binding : JournalBinding} {s s' : Successor}
  {journalKey : Bytes} {predecessors : List DelegateLineageEntry} {policy : SecretSelectionPolicy}
  {state state' : WalkState JournalWatch} {visits : List Visit} {key : Fixed 32}
  {kinds : ResolutionKind → Prop}

omit [LawfulCiborium] in
theorem sameMarker_of_round {row : DelegateKey × UInt32} {events : History}
    (round : Executes successorWorld s
      (walkRow (journalObserver journalKey binding predecessors policy) policy state row) events s'
      state') (other : row.1.bytes ≠ key) : SameMarker key s s' := by
  have calls := (rowRuns_of_executes round).calls quiet_journalObserver
  refine sameMarker_of_steps round.steps (calls.mono ?_)
  intro request call
  cases request with
  | recordMarker predecessor marker =>
    rw [show predecessor = row.1 from call]
    exact other
  | _ => trivial

omit [LawfulCiborium] in
theorem visits_sameMarker
    (walked : Visits (journalObserver journalKey binding predecessors policy) policy successorWorld s
      state visits s' state') (others : ∀ visit ∈ visits, visit.row.1.bytes ≠ key) :
    SameMarker key s s' :=
  walked.invariant (fun later _ => SameMarker key s later)
    (fun visit member round same => same.trans (sameMarker_of_round round (others visit member)))
    (.refl key s)

theorem visits_standing
    (walked : Visits (journalObserver journalKey binding predecessors policy) policy successorWorld s
      state visits s' state') (readable : Readable s)
    (standing : Standing binding kinds key s state.observed.journal) :
    Readable s' ∧ Standing binding kinds key s' state'.observed.journal :=
  walked.invariant (fun s state => Readable s ∧ Standing binding kinds key s state.observed.journal)
    (fun _ _ round both => (rowRuns_of_executes round).carries carries_standing both)
    ⟨readable, standing⟩

theorem visits_justified
    (walked : Visits (journalObserver journalKey binding predecessors policy) policy successorWorld s
      state visits s' state')
    (once : (visits.map fun visit => visit.row.1.bytes).Nodup) (readable : Readable s)
    {visit : Visit} (member : visit ∈ visits)
    (standing : Standing binding (Seeded policy s visit.row.1 visit.row.2) visit.row.1.bytes s
      state.observed.journal)
    (ranks : storedRank binding s.journal visit.row.1.bytes =
      state.observed.journal.effectiveRank binding visit.row.1.bytes) :
    Standing binding
      (fun kind => gaveNone visit.report = false ∧
        Justified policy s' visit.row.1 visit.row.2 kind)
      visit.row.1.bytes s' state'.observed.journal := by
  induction walked with
  | nil => cases member
  | @cons _ _ _ _ _ _ first visits round pushed rest ih =>
    obtain ⟨apart, later⟩ := List.nodup_cons.mp once
    have runs := rowRuns_of_executes round
    rcases List.mem_cons.mp member with rfl | after
    · have others : ∀ other ∈ visits, other.row.1.bytes ≠ visit.row.1.bytes := by
        intro other among same
        exact apart (List.mem_map.mpr ⟨other, among, same⟩)
      have settled := runs.justified pushed readable standing ranks
      obtain ⟨nowReadable, -⟩ := runs.carries carries_standing ⟨readable, standing⟩
      obtain ⟨-, kept⟩ := visits_standing rest nowReadable settled
      refine kept.mono fun kind justified => ⟨justified.1, ?_⟩
      rw [(visits_sameMarker rest others).justified]
      exact justified.2
    · have other : first.row.1.bytes ≠ visit.row.1.bytes := by
        intro same
        exact apart (List.mem_map.mpr ⟨visit, after, same.symm⟩)
      obtain ⟨nowReadable, kept⟩ := runs.carries carries_standing ⟨readable, standing⟩
      obtain ⟨-, ranked⟩ := runs.carries (carries_ranks other) ⟨readable, ranks⟩
      refine ih later nowReadable after ?_ ranked
      rw [(sameMarker_of_round round other).seeded]
      exact kept

end Walk

end FreenetMigrate.Migrate
