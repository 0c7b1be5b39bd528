import FreenetMigrate.Migrate.Forgetting

namespace FreenetMigrate.Migrate

open Calls Journal MigrationJournal

section Starting

variable {State : Type} {world : World Request Answer State} {s s' : State} {events : History}
  {progress progress' : StartProgress} {e : DelegateLineageEntry} {key : Fixed 32}

theorem Checks.keeps (checks : Checks world s progress e events s' progress')
    (counted : 0 < (recalled (progress.journal.state key)).1) :
    progress'.journal.state key = progress.journal.state key ∧
      ∀ read ∈ progress'.checks.read, read.bytes = key → read ∈ progress.checks.read := by
  have apart : resolvedWithoutData progress.journal (lineageKey e) = true →
      (lineageKey e).bytes ≠ key := by
    rintro doubted rfl
    obtain ⟨resolution, held, noData⟩ := resolvedWithoutData_iff.mp doubted
    rw [held] at counted
    change 0 < (memory (.resolved resolution)).1 at counted
    rw [memory_of_noData noData] at counted
    exact lt_irrefl _ counted
  have reading : (lineageKey e).bytes ≠ key →
      ∀ read ∈ progress.checks.read ++ [lineageKey e], read.bytes = key →
        read ∈ progress.checks.read := by
    intro other read member own
    rcases List.mem_append.mp member with before | last
    · exact before
    · rw [List.mem_singleton.mp last] at own
      exact absurd own other
  cases checks with
  | skipped => exact ⟨rfl, fun _ before _ => before⟩
  | started doubted =>
    refine ⟨?_, reading (apart doubted)⟩
    rw [state_markImportStarted, if_neg (apart doubted)]
  | agreed doubted => exact ⟨rfl, reading (apart doubted)⟩
  | unreadable => exact ⟨rfl, fun _ before _ => before⟩

theorem checkEntries_keep {entries : List DelegateLineageEntry} {rounds : List History}
    (run : Iterates world checkEntry s progress entries rounds s' progress')
    (counted : 0 < (recalled (progress.journal.state key)).1) :
    progress'.journal.state key = progress.journal.state key ∧
      ∀ read ∈ progress'.checks.read, read.bytes = key → read ∈ progress.checks.read := by
  induction run with
  | nil => exact ⟨rfl, fun _ before _ => before⟩
  | cons round _ ih =>
    obtain ⟨first, now⟩ := (checks_of_executes round).keeps counted
    obtain ⟨rest, later⟩ := ih (first ▸ counted)
    exact ⟨rest.trans first, fun read member own => now read (later read member own) own⟩

variable [Ciborium] {stored : State → Option Bytes} {predecessors : List DelegateLineageEntry}
  {policy : SecretSelectionPolicy} {binding : JournalBinding} {started : Started}
  {checks : MarkerChecks} {held : MigrationJournal}

theorem Starts.keeps (kept : JournalKept world stored)
    (starts : Starts world s predecessors policy binding events s' started checks)
    (found : storedJournal (stored s) = some held) (counted : 0 < (recalled (held.state key)).1) :
    started.journal.effectiveState key binding = held.effectiveState key binding ∧
      ∀ read ∈ checks.read, read.bytes ≠ key := by
  cases starts with
  | @fresh bytes _ _ _ _ loaded unreadable =>
    rw [← kept.loads loaded] at found
    cases bytes with
    | none => cases found
    | some bytes =>
      obtain ⟨e, corrupt⟩ := unreadable bytes rfl
      rw [storedJournal, Option.bind_some, corrupt] at found
      cases found
  | known loaded decoded checked =>
    rw [← kept.loads loaded, storedJournal_of_decode decoded] at found
    obtain rfl := Option.some.inj found
    obtain ⟨rounds, -, loop⟩ := executes_foldlM.mp checked
    obtain ⟨same, unread⟩ := checkEntries_keep loop counted
    constructor
    · unfold effectiveState
      rw [← same]
      split <;> rfl
    · intro read member own
      cases unread read member own
  | @extended _ _ _ _ _ _ journal seeded progress loaded decoded checked seeding =>
    rw [← kept.loads loaded, storedJournal_of_decode decoded] at found
    obtain rfl := Option.some.inj found
    obtain ⟨rounds, -, loop⟩ := executes_foldlM.mp checked
    obtain ⟨same, unread⟩ := checkEntries_keep loop counted
    have listed : (progress.journal.state key).isSome := by
      rw [same]
      by_contra absent
      rw [Option.not_isSome_iff_eq_none.mp absent] at counted
      exact lt_irrefl _ counted
    constructor
    · have absent : seeded.effectiveState key binding = none := by
        unfold effectiveState
        rw [freshJournal_elsewhere seeding (unseen_elsewhere listed), Option.map_none]
      rw [show (Started.new (seeded.mergeStored progress.journal (some binding))).journal =
        seeded.mergeStored progress.journal (some binding) from rfl, effectiveState_mergeStored, absent]
      unfold effectiveState
      rw [same]
      cases journal.state key <;> rfl
    · intro read member own
      rcases List.mem_append.mp member with before | after
      · cases unread read before own
      · obtain ⟨e, among, rfl⟩ := List.mem_map.mp after
        exact unseen_elsewhere listed e among own

end Starting

section Run

variable [Ciborium] [LawfulCiborium] {State : Type} {world : World Request Answer State}
  {stored : State → Option Bytes} {p p₁ p' : Recorded Request Answer State} {events storing : History}
  {key : Fixed 32} {journalKey : Bytes} {predecessors : List DelegateLineageEntry}
  {policy : SecretSelectionPolicy} {binding : JournalBinding} {importRevision : UInt32}
  {started : Started} {checks : MarkerChecks} {journal : MigrationJournal}
  {report : JournaledMigrationReport} {result : Except JournalError Unit}

theorem Establishes.remembers (kept : JournalKept world stored)
    (always : AlwaysRemembers stored binding key (stored p.state) p)
    (steps : Steps (recorded world) p events p₁) (reads : Only ReadCall events)
    (starts : Starts (recorded world) p predecessors policy binding events p₁ started checks)
    (establishes : Establishes (recorded world) p₁ predecessors policy binding started storing p' result
      journal) : AlwaysRemembers stored binding key (stored p.state) p' := by
  have quiet := reads.mono fun _ => ReadCall.notStore
  have before := always_unstored kept always steps quiet
  have same := kept.recorded.steps steps quiet
  cases establishes with
  | existing => exact before
  | new stores =>
    apply stores.remembers kept before
    intro counted held found
    rw [same] at found
    rw [storedState_eq found, count_effectiveState] at counted
    have keeps := kept.recorded
    obtain ⟨ours, -⟩ := starts.keeps keeps found counted
    rw [← ours]
    exact (congrArg recalled (joined_self _)).ge

theorem carried_established (kept : JournalKept world stored)
    (always : AlwaysRemembers stored binding key (stored p.state) p)
    (steps : Steps (recorded world) p events p₁) (reads : Only ReadCall events)
    (starts : Starts (recorded world) p predecessors policy binding events p₁ started checks)
    (establishes : Establishes (recorded world) p₁ predecessors policy binding started storing p'
      (.ok ()) journal) :
    Carried stored binding key (stored p.state) (storedState binding (stored p'.state) key) p'
      (journal.rebind binding) := by
  have keeps := kept.recorded
  have found := storedJournal_of_established keeps starts reads steps establishes
  refine ⟨establishes.remembers kept always steps reads starts, holdsUnder_rebind _ _, ?_, .inr ⟨?_, rfl⟩,
    ?_⟩
  · rw [found]
    rfl
  · rw [effectiveState_rebind, storedState_eq found]
  · rw [storedRank, found, effectiveRank_rebind]

/-- A journaled run remembers the entries it began with, but one that it notes as superseded. -/
theorem JournaledRuns.remembers (kept : JournalKept world stored)
    (always : AlwaysRemembers stored (.new policy importRevision) key (stored p.state) p)
    (runs : JournaledRuns (recorded world) p journalKey predecessors policy (.new policy importRevision)
      events p' report) :
    p'.Always fun past state => Forgets policy past key ∨
      Remembers (.new policy importRevision) key (stored p.state) past (stored state) := by
  cases runs with
  | notStarted steps reads =>
    have after := always_unstored kept always steps (reads.mono fun _ => ReadCall.notStore)
    exact after.mono fun _ _ => .inr
  | notEstablished steps reads starts establishes =>
    have after := establishes.remembers kept always steps reads starts
    exact after.mono fun _ _ => .inr
  | @walked _ checks _ _ _ _ p₁ _ _ _ _ outcome _ steps reads starts establishes walked concludes =>
    have carried := carried_established kept always steps reads starts establishes
    obtain ⟨visits, -, -, results, visited⟩ := visits_of_walk walked
    refine concludes.remembers kept (visits_carried kept carried visited) ?_ ?_ ?_
    · exact visits_bridged visited fun key absent => nomatch absent
    · intro counted row reported own
      rw [results] at reported
      obtain ⟨visit, member, rfl⟩ := List.mem_map.mp reported
      exact visits_saysData kept carried counted visited visit member own
    · intro counted
      cases found : storedJournal (stored p.state) with
      | none =>
        rw [storedState, found] at counted
        exact absurd counted (lt_irrefl _)
      | some held =>
        rw [storedState_eq found, count_effectiveState] at counted
        have keeps := kept.recorded
        exact (starts.keeps keeps found counted).2

omit [Ciborium] [LawfulCiborium] in
theorem unsealed_of_journalCalls {calls past : History} {count : ℕ∞} (only : Only JournalCall calls) :
    Follows (SealsEnough journalKey key count) past calls :=
  follows_of_unsealed fun _ _ member => only _ member

/-- Whatever a journaled run seals of a predecessor with its data, it saw no fewer items than were
    stored before it. -/
theorem JournaledRuns.sealsEnough (key : Fixed 32) (kept : JournalKept world stored)
    (always : AlwaysRemembers stored (.new policy importRevision) key (stored p.state) p)
    (runs : JournaledRuns (recorded world) p journalKey predecessors policy (.new policy importRevision)
      events p' report) :
    Follows (SealsEnough journalKey key
      (recalled (storedState (.new policy importRevision) (stored p.state) key)).1) [] events := by
  cases runs with
  | notStarted steps reads => exact unsealed_of_journalCalls (reads.mono fun _ => ReadCall.journalCall)
  | notEstablished steps reads starts establishes =>
    have before := reads.mono fun _ => ReadCall.journalCall
    exact unsealed_of_journalCalls (only_append.mpr ⟨before, establishes.calls⟩)
  | walked steps reads starts establishes walked concludes =>
    have before := reads.mono fun _ => ReadCall.journalCall
    have carried := carried_established kept always steps reads starts establishes
    obtain ⟨visits, -, rfl, -, visited⟩ := visits_of_walk walked
    rw [follows_append, follows_append]
    exact ⟨⟨unsealed_of_journalCalls (only_append.mpr ⟨before, establishes.calls⟩),
      visits_sealsEnough kept carried visited⟩, unsealed_of_journalCalls concludes.calls⟩

end Run

end FreenetMigrate.Migrate
