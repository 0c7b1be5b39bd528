import FreenetMigrate.Migrate.Absence
import FreenetMigrate.Migrate.Series
import Mathlib.Logic.Relation

namespace FreenetMigrate.Migrate

open Calls Journal MigrationJournal

def journalStatus [Ciborium] (stored : Option Bytes) (predecessors : List DelegateLineageEntry)
    (binding : JournalBinding) : JournalStatus :=
  match stored with
  | none => .notStarted
  | some bytes =>
    match MigrationJournal.decode bytes with
    | .ok journal => journal.status predecessors binding
    | .error e => .unreadable e

structure CountsAbsent (n : Nat) (key : Fixed 32) (status : JournalStatus) : Prop where
  lists : ∀ rejected, status ≠ .incomplete [] rejected
  few : ∀ pending rejected, status = .incomplete pending rejected → ∀ p ∈ pending, p.key.bytes = key →
    p.importFlag ≠ .started → p.absentStreak.toNat ≤ n

section Told

variable [Ciborium] {n : Nat} {key : Fixed 32} {journal : MigrationJournal} {stored : Option Bytes}
  {predecessors : List DelegateLineageEntry} {policy : SecretSelectionPolicy}
  {binding : JournalBinding} {importRevision : UInt32}

omit [Ciborium] in
theorem counts_status (has : HasTrait (AbsentAtMost n) journal key) :
    CountsAbsent n key (journal.status predecessors binding) where
  lists := fun _ said => pending_ne_nil said rfl
  few := by
    rintro pending rejected said p member rfl idle
    exact absentStreak_of_status said member idle has

omit [Ciborium] in
theorem counts_statusWithUnverified (has : HasTrait (AbsentAtMost n) journal key)
    (unverified : List (DelegateKey × UInt32)) :
    CountsAbsent n key (statusWithUnverified journal unverified predecessors binding) := by
  rw [statusWithUnverified_eq]
  exact counts_status (few_viewOf has unverified)

theorem counts_journalStatus (few : StreakAtMost n key stored) :
    CountsAbsent n key (journalStatus stored predecessors binding) := by
  cases stored with
  | none => exact ⟨nofun, nofun⟩
  | some bytes =>
    unfold journalStatus
    simp only
    split
    · rename_i journal decoded
      exact counts_status (few journal (storedJournal_of_decode decoded))
    · exact ⟨nofun, nofun⟩

end Told

/-- What an app does with its journal besides walking, to its end or killed anywhere. -/
inductive Interlude [Ciborium] (stored stored' : Option Bytes) : Prop
  | begins {predecessors : List DelegateLineageEntry} {policy : SecretSelectionPolicy}
      {importRevision : UInt32} {events : History}
      (run : Reaches journalWorld stored
        (beginMigrationJournal predecessors policy importRevision).run events stored')
  | notes {predecessors : List DelegateLineageEntry} {predecessor : DelegateKey}
      {policy : SecretSelectionPolicy} {importRevision : UInt32} {items : Option UInt32}
      {events : History}
      (run : Reaches journalWorld stored
        (noteAppImportStarted predecessors predecessor policy importRevision items).run events stored')

abbrev Interludes [Ciborium] : Option Bytes → Option Bytes → Prop := Relation.ReflTransGen Interlude

section Interludes

variable [Ciborium] [LawfulCiborium] {n : Nat} {key : Fixed 32} {stored stored' : Option Bytes}

theorem StreakAtMost.interludes (few : StreakAtMost n key stored) (run : Interludes stored stored') :
    StreakAtMost n key stored' := by
  induction run with
  | refl => exact few
  | tail _ step ih =>
    cases step with
    | begins run => exact StoredTells.begins journalKept_journalWorld (upheld_few n key) ih run
    | notes run => exact StoredTells.notes journalKept_journalWorld (upheld_few n key) ih run

end Interludes

namespace JournaledWalk

section Absences

variable [Ciborium] (walk : JournaledWalk) (key : Fixed 32)

def foundAbsent : Bool := walk.events.any (saysAbsent key)

def heard : Bool :=
  walk.report.any fun report => report.status.isSome &&
    report.report.any fun row => row.key.bytes == key && row.examined

/-- The walks in a row that found a predecessor absent, after one more. A walk that heard nothing of
    it does not count. -/
def absencesAfter (streak : Nat) : Nat :=
  if walk.foundAbsent key then streak + 1 else if walk.heard key then 0 else streak

/-- A status that an app is told after a walk: its report's, what the stored bytes say, or what it
    gets when it begins again. -/
inductive Tells (walk : JournaledWalk) (status : JournalStatus) : Prop
  | reported {report : JournaledMigrationReport} (reported : walk.report = some report)
      (ended : report.status = some status) : Tells walk status
  | stored {predecessors : List DelegateLineageEntry} {binding : JournalBinding}
      (said : journalStatus walk.after predecessors binding = status) : Tells walk status
  | begun {predecessors : List DelegateLineageEntry} {policy : SecretSelectionPolicy}
      {importRevision : UInt32} {stored stored' : Option Bytes} {events : History}
      (run : Interludes walk.after stored)
      (begins : Executes journalWorld stored
        (beginMigrationJournal predecessors policy importRevision).run events stored' (.ok status)) :
      Tells walk status

variable {walk} {key} [LawfulCiborium] {n : Nat} {status : JournalStatus}
  (distinct : (walk.predecessors.map (·.delegateKey)).Nodup)

include distinct

theorem streak (few : StreakAtMost n key walk.before) :
    StreakAtMost (walk.absencesAfter key n) key walk.after := by
  have most := streak_of_reaches distinct few walk.reaches
  unfold absencesAfter foundAbsent
  by_cases absent : walk.events.any (saysAbsent key) = true
  · rw [if_pos absent] at most ⊢
    exact most
  · rw [if_neg absent] at most ⊢
    by_cases heard : walk.heard key = true
    · rw [if_pos heard]
      obtain ⟨report, reported, said⟩ := (Option.any_eq_true _ _).mp heard
      obtain ⟨ended, rows⟩ := Bool.and_eq_true_iff.mp said
      obtain ⟨row, member, both⟩ := List.any_eq_true.mp rows
      obtain ⟨own, examined⟩ := Bool.and_eq_true_iff.mp both
      exact (journaledRuns_of_executes (walk.executes reported)).few distinct ended member
        (beq_iff_eq.mp own) examined (Bool.eq_false_iff.mpr absent)
    · rw [if_neg heard]
      exact most

omit distinct in
theorem counts_of_tells (few : StreakAtMost n key walk.after) (tells : walk.Tells status) :
    CountsAbsent n key status := by
  cases tells with
  | reported reported ended =>
    have runs := journaledRuns_of_executes (walk.executes reported)
    generalize walk.events = events, walk.after = after at few runs
    cases runs with
    | notStarted | notEstablished => cases ended
    | walked steps reads starts establishes walked concludes =>
      cases concludes with
      | refused => cases ended
      | @stored _ _ _ _ _ journal checked stores =>
        obtain rfl := Option.some.inj ended
        have written := stores.stored_of_ok journalKept_journalWorld
        apply counts_statusWithUnverified
        apply few
        rw [show after = some journal.encode from written]
        exact storedJournal_encode journal
  | stored said =>
    rw [← said]
    exact counts_journalStatus few
  | begun run begins =>
    exact ((secures_begin journalKept_journalWorld (upheld_few n key)
      fun _ unverified has => counts_statusWithUnverified has unverified).executes begins
        (few.interludes run)).2

end Absences

end JournaledWalk

/-- How many walks in a row found a predecessor absent, of those that heard of it at all. -/
def absences [Ciborium] (key : Fixed 32) (walks : List JournaledWalk) : Nat :=
  walks.foldl (fun streak walk => walk.absencesAfter key streak) 0

section History

variable [Ciborium] [LawfulCiborium] {walks : List JournaledWalk} {key : Fixed 32} {n : Nat}

theorem streak_of_walks (start : ∀ first ∈ walks.head?, StreakAtMost n key first.before)
    (chained : walks.IsChain fun walk next => Interludes walk.after next.before)
    (distinct : ∀ walk ∈ walks, (walk.predecessors.map (·.delegateKey)).Nodup) :
    ∀ last ∈ walks.getLast?,
      StreakAtMost (walks.foldl (fun streak walk => walk.absencesAfter key streak) n) key last.after := by
  induction walks generalizing n with
  | nil => exact fun _ absent => nomatch absent
  | cons walk rest ih =>
    obtain ⟨link, links⟩ := List.isChain_cons.mp chained
    have now := walk.streak (distinct walk (List.mem_cons_self ..)) (start walk rfl)
    have later := ih (fun next first => now.interludes (link next first)) links
      fun next member => distinct next (List.mem_cons_of_mem _ member)
    intro last ends
    cases rest with
    | nil =>
      obtain rfl := Option.some.inj ends
      exact now
    | cons next more =>
      rw [List.getLast?_cons_cons] at ends
      exact later last ends

/-- Where an app is told that everything pending was found absent so many times in a row, it was:
    each predecessor that is listed has no import under way, and at least so many of the last walks
    that heard of it found it not installed, with no walk between that heard anything else. -/
theorem pending_all_absent_confirmed {first last : JournaledWalk} {fresh : Option Bytes}
    {minStreak : UInt32} {status : JournalStatus} (unread : storedJournal fresh = none)
    (opened : Interludes fresh first.before) (begins : first ∈ walks.head?)
    (chained : walks.IsChain fun walk next => Interludes walk.after next.before)
    (distinct : ∀ walk ∈ walks, (walk.predecessors.map (·.delegateKey)).Nodup)
    (ends : last ∈ walks.getLast?) (tells : last.Tells status)
    (absent : status.pendingAllAbsent minStreak = true) :
    status.isComplete = false ∧ status.interruptedImport = false ∧
      ∃ pending rejected, status = .incomplete pending rejected ∧ pending ≠ [] ∧
        ∀ p ∈ pending, p.importFlag ≠ .started ∧
          max minStreak.toNat 1 ≤ absences p.key.bytes walks := by
  have counts : ∀ key, CountsAbsent (absences key walks) key status := by
    intro key
    have none : StreakAtMost 0 key fresh := by
      intro journal found
      rw [unread] at found
      cases found
    refine last.counts_of_tells (streak_of_walks ?_ chained distinct last ends) tells
    intro other same
    obtain rfl := Option.mem_unique begins same
    exact none.interludes opened
  cases status with
  | notStarted | unreadable | complete => cases absent
  | incomplete pending rejected =>
    have each : ∀ p ∈ pending, p.importFlag ≠ .started ∧ max minStreak 1 ≤ p.absentStreak := by
      simpa [JournalStatus.pendingAllAbsent] using absent
    refine ⟨rfl, ?_, pending, rejected, rfl, ?_, ?_⟩
    · simp only [JournalStatus.interruptedImport, List.any_eq_false, beq_iff_eq]
      exact fun p member => (each p member).1
    · rintro rfl
      exact (counts (.zero 32)).lists rejected rfl
    · intro p member
      obtain ⟨idle, enough⟩ := each p member
      refine ⟨idle, ?_⟩
      have most := (counts p.key.bytes).few pending rejected rfl p member rfl idle
      obtain ⟨least, one⟩ := max_le_iff.mp enough
      exact max_le ((UInt32.le_iff_toNat_le.mp least).trans most) ((UInt32.le_iff_toNat_le.mp one).trans most)

end History

section Samples

open scoped Cbor

def absentAnswers : SampleAnswers where
  marker _ := .ok none
  write _ := .written
  probe _ := .notInstalled
  secrets := []

def absentWalk (before : Option Bytes) : JournaledWalk :=
  sampleWalk absentAnswers .unionAllGenerations 0 before

theorem absentWalk_before (before : Option Bytes) : (absentWalk before).before = before :=
  sampleWalk_before ..

theorem pending_all_absent_confirmed_twice :
    let walks := [absentWalk none, absentWalk (absentWalk none).after]
    ∃ status, (absentWalk (absentWalk none).after).Tells status ∧ status.isComplete = false ∧
      status.interruptedImport = false ∧
      ∃ pending rejected, status = .incomplete pending rejected ∧ pending ≠ [] ∧
        ∀ p ∈ pending, p.importFlag ≠ .started ∧
          max (2 : UInt32).toNat 1 ≤ absences p.key.bytes walks := by
  intro walks
  have chained : walks.IsChain fun walk next => Interludes walk.after next.before :=
    .cons_cons (by rw [absentWalk_before]) (.singleton _)
  have distinct : ∀ walk ∈ walks, (walk.predecessors.map (·.delegateKey)).Nodup := by
    intro walk member
    have lineage : walk.predecessors = [sampleEntry 1, sampleEntry 2] := by
      simp only [walks, List.mem_cons, List.not_mem_nil, or_false] at member
      rcases member with rfl | rfl <;> rfl
    rw [lineage]
    decide
  -- One evaluation for both walks, since the second starts from what the first left.
  have told : (((absentWalk (absentWalk none).after).report.bind fun report => report.status).any
      fun status => status.pendingAllAbsent 2) = true := by decide +kernel
  obtain ⟨status, ended, absent⟩ := (Option.any_eq_true _ _).mp told
  obtain ⟨report, reported, said⟩ := Option.bind_eq_some_iff.mp ended
  have tells : (absentWalk (absentWalk none).after).Tells status := .reported reported said
  exact ⟨status, tells, pending_all_absent_confirmed rfl .refl rfl chained distinct rfl tells absent⟩

end Samples

end FreenetMigrate.Migrate
