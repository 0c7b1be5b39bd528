import FreenetMigrate.Journal.Operations

namespace FreenetMigrate.Journal

open Migrate MigrationJournal

structure Trait (holds : JournalState → Prop) : Prop where
  effective : ∀ {state} (binding : JournalBinding), holds state → holds (effective state binding)
  merge : ∀ {older newer}, holds older → holds newer → holds (mergeStates older newer)

def HasTrait (holds : JournalState → Prop) (journal : MigrationJournal) (key : Fixed 32) : Prop :=
  ∀ state, journal.state key = some state → holds state

section Trait

variable {holds : JournalState → Prop} {journal stored : MigrationJournal} {key : Fixed 32}

theorem HasTrait.of_state {after : MigrationJournal} (has : HasTrait holds journal key)
    (same : after.state key = journal.state key) : HasTrait holds after key :=
  fun state found => has state (same.symm.trans found)

theorem HasTrait.current (has : HasTrait holds journal key) (fresh : holds .fresh) :
    holds (journal.current key) := by
  unfold MigrationJournal.current
  cases found : journal.state key with
  | none => exact fresh
  | some state => exact has state found

theorem HasTrait.rebind (trait : Trait holds) (has : HasTrait holds journal key)
    (binding : JournalBinding) : HasTrait holds (journal.rebind binding) key := by
  intro state found
  rw [state_rebind] at found
  obtain ⟨before, held, rfl⟩ := Option.map_eq_some_iff.mp found
  exact trait.effective binding (has before held)

theorem HasTrait.mergeStored (trait : Trait holds) (ours : HasTrait holds journal key)
    (theirs : HasTrait holds stored key) (binding : JournalBinding) :
    HasTrait holds (journal.mergeStored stored (some binding)) key := by
  intro state found
  rw [state_mergeStored] at found
  cases listed : stored.state key with
  | none =>
    rw [listed] at found
    exact ours state found
  | some their =>
    rw [listed] at found
    obtain rfl := Option.some.inj found
    have evaluated := trait.effective binding (theirs their listed)
    cases had : journal.state key with
    | none => exact evaluated
    | some our => exact trait.merge evaluated (trait.effective binding (ours our had))

theorem HasTrait.markImportStarted (has : HasTrait holds journal key) {predecessor : DelegateKey}
    (generation : UInt32)
    (started : predecessor.bytes = key → holds (startImport (journal.current key)).1) :
    HasTrait holds (journal.markImportStarted predecessor generation).1 key := by
  intro state found
  rw [state_markImportStarted] at found
  split at found
  · rename_i here
    subst here
    obtain rfl := Option.some.inj found
    exact started rfl
  · exact has state found

theorem HasTrait.record (has : HasTrait holds journal key) {predecessor : DelegateKey}
    (generation : UInt32) {outcome : RunOutcome}
    (said : predecessor.bytes = key →
      holds (mergeStates (journal.current key) (outcomeState (journal.current key) outcome))) :
    HasTrait holds (journal.record predecessor generation outcome) key := by
  intro state found
  rw [state_record] at found
  split at found
  · rename_i here
    subst here
    obtain rfl := Option.some.inj found
    exact said rfl
  · exact has state found

theorem HasTrait.noteItemsSeen (has : HasTrait holds journal key) (predecessor : DelegateKey)
    (items : UInt32) (raised : ∀ {state}, holds state → holds (raiseCount items state)) :
    HasTrait holds (journal.noteItemsSeen predecessor items).1 key := by
  intro state found
  rw [state_noteItemsSeen] at found
  split at found
  · obtain ⟨before, held, rfl⟩ := Option.map_eq_some_iff.mp found
    exact raised (has before held)
  · exact has state found

theorem hasTrait_newPending (fresh : holds .fresh) (predecessors : List DelegateLineageEntry)
    (key : Fixed 32) : HasTrait holds (newPending predecessors) key :=
  fun _ found => (state_newPending found).1 ▸ fresh

end Trait

def Underway : JournalState → Prop
  | .pending _ flag _ _ _ => flag = .started
  | .resolved _ => False

def Dataless : JournalState → Prop
  | .pending _ flag _ _ itemsSeen => flag = .none ∧ itemsSeen = 0
  | .resolved r => r.isDataBearing = false

/-- Items are counted only where an import is under way or some were rejected. -/
def Accounted : JournalState → Prop
  | .pending _ flag rejected _ itemsSeen => flag = .started ∨ itemsSeen = 0 ∨ 0 < rejected
  | .resolved (.importedWithRejections rejected _ _) => 0 < rejected
  | .resolved _ => True

theorem trait_underway : Trait Underway where
  effective := by
    intro state binding underway
    cases state with
    | pending => exact underway
    | resolved => exact underway.elim
  merge := by
    intro older newer first second
    cases older with
    | resolved => exact first.elim
    | pending =>
      cases newer with
      | resolved => exact second.elim
      | pending => simp_all [Underway, mergeStates, ImportFlag.max]

theorem underway_of_effective {state : JournalState} {binding : JournalBinding}
    (underway : Underway (effective state binding)) : Underway state := by
  rcases effective_cases state binding with same | ⟨rejected, itemsSeen, reopened⟩
  · rw [same] at underway
    exact underway
  · rw [reopened] at underway
    cases underway

/-- An import that starts stays under way against anything stored but data. -/
theorem underway_mergeStates {older newer : JournalState} (underway : Underway newer)
    (noData : ∀ resolution, older = .resolved resolution → resolution.isDataBearing = false) :
    Underway (mergeStates older newer) := by
  cases newer with
  | resolved => exact underway.elim
  | pending a2 f2 r2 s2 i2 =>
    obtain rfl : f2 = .started := underway
    cases older with
    | pending => rfl
    | resolved resolution =>
      have empty := noData resolution rfl
      simp only [mergeStates, mergeResolvedPending, empty]
      rfl

theorem underway_startImport {state : JournalState}
    (noData : ∀ resolution, state = .resolved resolution → resolution.isDataBearing = false) :
    Underway (startImport state).1 := by
  cases state with
  | pending => rfl
  | resolved resolution =>
    simp only [startImport, noData resolution rfl]
    rfl

theorem underway_raiseCount {items : UInt32} {state : JournalState} (underway : Underway state) :
    Underway (raiseCount items state) := by
  cases state with
  | resolved => exact underway
  | pending attempts flag =>
    obtain rfl : flag = .started := underway
    rfl

theorem trait_dataless : Trait Dataless where
  effective := by
    intro state binding dataless
    cases state with
    | pending => exact dataless
    | resolved r =>
      cases r with
      | imported | importedWithRejections => cases dataless
      | noData => rfl
      | supersededByAuthoritative =>
        simp only [effective]
        split
        · exact ⟨rfl, rfl⟩
        · rfl
  merge := by
    intro older newer first second
    cases older with
    | pending =>
      cases newer with
      | pending =>
        obtain ⟨rfl, rfl⟩ := first
        obtain ⟨rfl, rfl⟩ := second
        exact ⟨rfl, rfl⟩
      | resolved b =>
        obtain ⟨rfl, rfl⟩ := first
        cases b with
        | noData | supersededByAuthoritative => rfl
        | imported | importedWithRejections => cases second
    | resolved a =>
      cases newer with
      | pending =>
        obtain ⟨rfl, rfl⟩ := second
        cases a with
        | noData | supersededByAuthoritative => rfl
        | imported | importedWithRejections => cases first
      | resolved b =>
        cases a with
        | imported | importedWithRejections => cases first
        | noData | supersededByAuthoritative =>
          cases b with
          | imported | importedWithRejections => cases second
          | noData | supersededByAuthoritative => rfl

theorem accounted_max {a1 r1 s1 i1 a2 r2 s2 i2 : UInt32} {f1 f2 : ImportFlag}
    (first : Accounted (.pending a1 f1 r1 s1 i1)) (second : Accounted (.pending a2 f2 r2 s2 i2)) :
    Accounted (mergeStates (.pending a1 f1 r1 s1 i1) (.pending a2 f2 r2 s2 i2)) := by
  have raised : 0 < r1 ∨ 0 < r2 → 0 < max r1 r2 := by
    rintro (positive | positive)
    · exact lt_of_lt_of_le positive (le_max_left _ _)
    · exact lt_of_lt_of_le positive (le_max_right _ _)
  rcases first with rfl | rfl | rejected
  · left
    cases f2 <;> rfl
  · rcases second with rfl | rfl | rejected
    · exact .inl rfl
    · exact .inr (.inl (max_self 0))
    · exact .inr (.inr (raised (.inr rejected)))
  · exact .inr (.inr (raised (.inl rejected)))

theorem trait_accounted : Trait Accounted where
  effective := by
    intro state binding accounted
    cases state with
    | pending => exact accounted
    | resolved r =>
      cases r with
      | imported | noData => trivial
      | importedWithRejections rejected revision itemsSeen =>
        simp only [effective]
        split
        · exact .inr (.inr accounted)
        · exact accounted
      | supersededByAuthoritative =>
        simp only [effective]
        split
        · exact .inr (.inl rfl)
        · trivial
  merge := by
    -- A resolution that replaces a pending entry keeps its own rejections.
    have mixed : ∀ {r : JournalResolution} {attempts rejected absentStreak itemsSeen : UInt32}
        {flag : ImportFlag}, Accounted (.resolved r) →
        Accounted (.pending attempts flag rejected absentStreak itemsSeen) →
        Accounted (mergeResolvedPending r (.pending attempts flag rejected absentStreak itemsSeen) flag
          itemsSeen) := by
      intro r attempts rejected absentStreak itemsSeen flag resolved pending
      unfold mergeResolvedPending
      split
      · exact pending
      · cases r with
        | imported | noData | supersededByAuthoritative => trivial
        | importedWithRejections => exact resolved
    intro older newer first second
    cases older with
    | pending a1 f1 r1 s1 i1 =>
      cases newer with
      | resolved b => exact mixed second first
      | pending a2 f2 r2 s2 i2 => exact accounted_max first second
    | resolved a =>
      cases newer with
      | pending a2 f2 r2 s2 i2 => exact mixed first second
      | resolved b =>
        cases a <;> cases b
        case importedWithRejections.importedWithRejections ja ra ia jb rb ib =>
          simp only [mergeStates]
          split
          · exact second
          · exact first
        all_goals
          simp only [mergeStates, completenessRank]
          first | exact first | exact second

def Accounts (journal : MigrationJournal) : Prop := ∀ key, HasTrait Accounted journal key

section Accounts

variable {journal stored : MigrationJournal}

theorem accounted_fresh : Accounted .fresh := .inr (.inl rfl)

theorem accounted_startImport {state : JournalState} (accounted : Accounted state) :
    Accounted (startImport state).1 := by
  cases state with
  | pending => exact .inl rfl
  | resolved r =>
    simp only [startImport]
    split
    · exact accounted
    · exact .inl rfl

theorem accounted_raiseCount {items : UInt32} {state : JournalState} (accounted : Accounted state) :
    Accounted (raiseCount items state) := by
  cases state with
  | resolved => exact accounted
  | pending attempts flag =>
    cases flag with
    | none => exact accounted
    | started => exact .inl rfl

def RejectsSome : RunOutcome → Prop
  | .resolved (.importedWithRejections rejected _ _) => 0 < rejected
  | _ => True

theorem accounted_outcomeState {state : JournalState} {outcome : RunOutcome}
    (accounted : Accounted state) (rejects : RejectsSome outcome) :
    Accounted (outcomeState state outcome) := by
  cases outcome with
  | resolved r =>
    cases state <;> cases r <;> exact rejects
  | unresolved absent =>
    cases state with
    | pending => exact accounted
    | resolved => exact accounted
  | unexamined =>
    cases state with
    | pending => exact accounted
    | resolved => exact accounted

theorem accounts_newPending (predecessors : List DelegateLineageEntry) :
    Accounts (newPending predecessors) := hasTrait_newPending accounted_fresh predecessors

theorem Accounts.rebind (accounts : Accounts journal) (binding : JournalBinding) :
    Accounts (journal.rebind binding) := fun key => (accounts key).rebind trait_accounted binding

theorem Accounts.mergeStored (ours : Accounts journal) (theirs : Accounts stored)
    (binding : JournalBinding) : Accounts (journal.mergeStored stored (some binding)) :=
  fun key => (ours key).mergeStored trait_accounted (theirs key) binding

theorem Accounts.markImportStarted (accounts : Accounts journal) (predecessor : DelegateKey)
    (generation : UInt32) : Accounts (journal.markImportStarted predecessor generation).1 :=
  fun key => (accounts key).markImportStarted generation
    fun _ => accounted_startImport ((accounts key).current accounted_fresh)

theorem Accounts.noteItemsSeen (accounts : Accounts journal) (predecessor : DelegateKey)
    (items : UInt32) : Accounts (journal.noteItemsSeen predecessor items).1 :=
  fun key => (accounts key).noteItemsSeen predecessor items accounted_raiseCount

theorem Accounts.record (accounts : Accounts journal) (predecessor : DelegateKey)
    (generation : UInt32) {outcome : RunOutcome} (rejects : RejectsSome outcome) :
    Accounts (journal.record predecessor generation outcome) := by
  intro key
  have current := (accounts key).current accounted_fresh
  exact (accounts key).record generation
    fun _ => trait_accounted.merge current (accounted_outcomeState current rejects)

end Accounts

end FreenetMigrate.Journal
