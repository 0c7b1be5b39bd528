import FreenetMigrate.Journal.Provenance
import FreenetMigrate.Migrate.Seeding
import FreenetMigrate.Migrate.Visible

namespace FreenetMigrate.Migrate

open Calls Journal MigrationJournal

def Successor.NewerSeal (s : Successor) (generation : UInt32) : Prop :=
  ∃ sealed ∈ s.seals, generation < sealed

/-- A seal that is read but is not the predecessor's own is a newer generation's. -/
theorem Successor.newerSeal {s : Successor} {key : DelegateKey} {generation : UInt32}
    (above : s.marker ⟨key, generation, .atOrAboveGeneration⟩ = some (.done true))
    (other : s.own key generation ≠ some (.done true)) : s.NewerSeal generation := by
  unfold own at other
  unfold Successor.marker at above other
  simp only at above other
  cases done : s.done key.bytes with
  | some hadData =>
    rw [done] at above other
    cases hadData with
    | true => exact absurd rfl other
    | false => rcases wip : s.wip key.bytes with _ | (_ | _) <;> rw [wip] at above <;> cases above
  | none =>
    rw [done] at above other
    simp only at above other
    split at above
    · rename_i covered
      split at other
      · exact absurd rfl other
      · rename_i uncovered
        simp only [covers, List.any_eq_true, decide_eq_true_eq] at covered uncovered
        obtain ⟨sealed, member, bound⟩ := covered
        have apart : generation ≠ sealed := by
          rintro rfl
          exact uncovered member
        exact ⟨sealed, member, UInt32.lt_of_le_of_ne bound apart⟩
    · cases wip : s.wip key.bytes <;> rw [wip] at above <;> cases above

def Seeded (policy : SecretSelectionPolicy) (s : Successor) (key : DelegateKey)
    (generation : UInt32) : ResolutionKind → Prop
  | .imported => s.own key generation = some (.done true)
  | .noData => s.own key generation = some (.done false)
  | .importedWithRejections => False
  | .supersededByAuthoritative => policy.legacyBridge = .atOrAboveGeneration ∧
      s.marker ⟨key, generation, policy.legacyBridge⟩ = some (.done true) ∧
      s.own key generation ≠ some (.done true)

theorem SameMarker.seeded {policy : SecretSelectionPolicy} {s s' : Successor} {key : DelegateKey}
    (same : SameMarker key.bytes s s') (generation : UInt32) :
    Seeded policy s' key generation = Seeded policy s key generation := by
  have marker : s'.marker ⟨key, generation, policy.legacyBridge⟩ =
      s.marker ⟨key, generation, policy.legacyBridge⟩ := SameMarker.marker same
  funext kind
  cases kind <;> simp only [Seeded, same.own, marker]

section Seeding

variable {s s' : Successor} {events : History} {policy : SecretSelectionPolicy}
  {importRevision : UInt32} {journal seeded : MigrationJournal} {e other : DelegateLineageEntry}
  {predecessors : List DelegateLineageEntry}

theorem Seeds.admits (seeds : Seeds successorWorld s policy journal other events s' seeded)
    (holds : journal.HoldsUnder (.new policy importRevision))
    (only : other.delegateKey = e.delegateKey → other = e)
    (admits : Admits (.new policy importRevision) (Seeded policy s (lineageKey e) e.generation) journal
      e.delegateKey) :
    Admits (.new policy importRevision) (Seeded policy s (lineageKey e) e.generation) seeded
      e.delegateKey := by
  cases seeds with
  | started => exact admits.markImportStarted _ _
  | empty read =>
    refine admits.record holds _ _ rfl ?_
    intro here resolution same
    obtain rfl := only here
    obtain rfl := RunOutcome.resolved.inj same
    exact (own_read read (.inr nofun)).1
  | @sealedAbove marker _ _ above read checked =>
    have unmoved := read_same read
    subst unmoved
    obtain ⟨own, -⟩ := own_read checked (.inl rfl)
    unfold seedSealed
    split
    · refine admits.record holds _ _ rfl ?_
      intro here resolution same
      obtain rfl := only here
      obtain rfl := RunOutcome.resolved.inj same
      exact own
    · exact admits.markImportStarted _ _
    · rename_i notDone notStarted
      refine admits.record holds _ _ (holds_superseded above) ?_
      intro here resolution same
      obtain rfl := only here
      obtain rfl := RunOutcome.resolved.inj same
      refine ⟨above, read.1.symm, ?_⟩
      rw [own]
      exact fun same => notDone same
  | sealedExactly exactly read =>
    refine admits.record holds _ _ rfl ?_
    intro here resolution same
    obtain rfl := only here
    obtain rfl := RunOutcome.resolved.inj same
    exact (own_read read (.inl exactly)).1
  | unsealed => exact admits

theorem seeded_admits
    (run : Succeeds successorWorld (seedEntry policy) s journal predecessors events s' seeded)
    (holds : journal.HoldsUnder (.new policy importRevision))
    (only : ∀ other ∈ predecessors, other.delegateKey = e.delegateKey → other = e)
    (admits : Admits (.new policy importRevision) (Seeded policy s (lineageKey e) e.generation) journal
      e.delegateKey) :
    Admits (.new policy importRevision) (Seeded policy s (lineageKey e) e.generation) seeded
      e.delegateKey := by
  induction run with
  | nil => exact admits
  | cons round _ ih =>
    have seeds := seeds_of_executes round
    obtain ⟨rfl, grown, -⟩ := seeds.told holds
    exact ih (grown.holds holds) (fun other member => only other (List.mem_cons_of_mem _ member))
      (seeds.admits holds (only _ (List.mem_cons_self ..)) admits)

/-- A fresh journal resolves a predecessor only as its markers say. -/
theorem freshJournal_admits
    (run : Executes successorWorld s (freshJournal predecessors policy).run events s' (.ok seeded))
    (only : ∀ other ∈ predecessors, other.delegateKey = e.delegateKey → other = e) :
    Admits (.new policy importRevision) (Seeded policy s (lineageKey e) e.generation) seeded
      e.delegateKey := by
  refine seeded_admits (succeeds_of_executes run) (holdsUnder_newPending _ _) only ?_
  cases held : (newPending predecessors).state e.delegateKey with
  | none => exact admits_absent held
  | some state =>
    rw [(state_newPending held).1] at held
    exact admits_pending held

theorem Reopens.admits {binding : JournalBinding} {kinds : ResolutionKind → Prop}
    {before after : MigrationJournal} {key : Fixed 32} (reopens : Reopens before after)
    (admits : Admits binding kinds before key) : Admits binding kinds after key := by
  rcases reopens key with same | started
  · exact admits.of_state same
  · exact admits_pending started

end Seeding

/-- The journal in hand and the stored one resolve an entry only in the ways listed. -/
structure Standing [Ciborium] (binding : JournalBinding) (kinds : ResolutionKind → Prop)
    (key : Fixed 32) (s : Successor) (journal : MigrationJournal) : Prop where
  ours : Admits binding kinds journal key
  stored : ∀ stored, storedJournal s.journal = some stored → Admits binding kinds stored key

def Readable [Ciborium] (s : Successor) : Prop := (storedJournal s.journal).isSome

section Storing

variable [Ciborium] {binding : JournalBinding} {kinds more : ResolutionKind → Prop} {key : Fixed 32}
  {s s' : Successor} {events : History} {journal after : MigrationJournal}
  {rebuild : Option (List DelegateLineageEntry × SecretSelectionPolicy)}
  {result : Except JournalError Unit}

theorem Standing.mono (standing : Standing binding kinds key s journal)
    (implied : ∀ kind, kinds kind → more kind) : Standing binding more key s journal :=
  ⟨standing.ours.mono implied, fun stored found => (standing.stored stored found).mono implied⟩

theorem Standing.of_stored (standing : Standing binding kinds key s journal)
    (same : s'.journal = s.journal) : Standing binding kinds key s' journal := by
  refine ⟨standing.ours, ?_⟩
  rw [same]
  exact standing.stored

variable [LawfulCiborium]

/-- A store resolves nothing in a new way, but where it has to rebuild the stored journal. -/
theorem Stores.standing
    (stores : Stores successorWorld s journal (some binding) rebuild events s' result after)
    (standing : Standing binding kinds key s journal)
    (rebuilds : storedJournal s.journal = none → ∀ lineage policy events s' rebuilt,
      rebuild = some (lineage, policy) →
      Executes successorWorld s (freshJournal lineage policy).run events s' (.ok rebuilt) →
      Admits binding kinds rebuilt key) : Standing binding kinds key s' after := by
  have ours : Admits binding kinds after key := by
    rcases stores.after_cases with rfl | merges
    · exact standing.ours
    · cases merges with
      | absent => exact standing.ours
      | present loaded decoded =>
        obtain ⟨found, rfl⟩ := loaded
        refine standing.ours.mergeStored (standing.stored _ ?_)
        rw [← found]
        exact storedJournal_of_decode decoded
      | rebuilt loaded corrupt known seeded =>
        obtain ⟨found, rfl⟩ := loaded
        refine standing.ours.mergeStored (rebuilds ?_ _ _ _ _ _ known seeded)
        rw [← found, storedJournal, Option.bind_some, corrupt]
        rfl
  refine ⟨ours, ?_⟩
  intro stored found
  rcases stores.stored_cases journalKept_successorWorld with ⟨same, -⟩ | ⟨written, -⟩
  · rw [same] at found
    exact standing.stored stored found
  · rw [written, storedJournal_encode] at found
    exact Option.some.inj found ▸ ours

theorem Stores.readable
    (stores : Stores successorWorld s journal (some binding) rebuild events s' result after)
    (readable : Readable s ∨ result = .ok ()) : Readable s' := by
  unfold Readable
  rcases stores.stored_cases journalKept_successorWorld with ⟨same, failed⟩ | ⟨written, -⟩
  · rw [same]
    exact readable.resolve_right failed
  · rw [written, storedJournal_encode]
    rfl

end Storing

section Starting

variable [Ciborium] {s s₁ s' : Successor} {events storing : History} {policy : SecretSelectionPolicy}
  {importRevision : UInt32} {predecessors : List DelegateLineageEntry} {started : Started}
  {checks : MarkerChecks} {e : DelegateLineageEntry} {journal : MigrationJournal}
  {result : Except JournalError Unit}

def Unresolved (binding : JournalBinding) (s : Successor) (key : Fixed 32) : Prop :=
  ∀ stored, storedJournal s.journal = some stored → Admits binding (fun _ => False) stored key

theorem Starts.admits
    (starts : Starts successorWorld s predecessors policy (.new policy importRevision) events s'
      started checks)
    (only : ∀ other ∈ predecessors, other.delegateKey = e.delegateKey → other = e)
    (unresolved : Unresolved (.new policy importRevision) s e.delegateKey) :
    Admits (.new policy importRevision) (Seeded policy s (lineageKey e) e.generation) started.journal
      e.delegateKey := by
  have checkedAdmits : ∀ {bytes journal progress rounds s₂}, some bytes = s.journal →
      decode bytes = .ok journal →
      Iterates successorWorld checkEntry s ⟨journal, false, [], []⟩ predecessors rounds s₂ progress →
      Admits (.new policy importRevision) (Seeded policy s (lineageKey e) e.generation)
        progress.journal e.delegateKey := by
    intro bytes journal progress rounds s₂ found decoded loop
    obtain ⟨-, checked⟩ := checkEntries_checked (.new policy importRevision) loop
    have stored := storedJournal_of_decode decoded
    rw [found] at stored
    have before : Admits (.new policy importRevision) (Seeded policy s (lineageKey e) e.generation)
        journal e.delegateKey := (unresolved journal stored).mono fun _ => False.elim
    exact checked.reopens.admits before
  cases starts with
  | fresh loaded unreadable seeded =>
    obtain ⟨-, rfl⟩ := loaded
    exact freshJournal_admits seeded only
  | known loaded decoded checked =>
    obtain ⟨found, rfl⟩ := loaded
    obtain ⟨rounds, -, loop⟩ := executes_foldlM.mp checked
    have admits := checkedAdmits found decoded loop
    split <;> exact admits
  | extended loaded decoded checked seeded =>
    obtain ⟨found, rfl⟩ := loaded
    obtain ⟨rounds, -, loop⟩ := executes_foldlM.mp checked
    obtain ⟨rfl, -⟩ := checkEntries_checked (.new policy importRevision) loop
    refine Admits.mergeStored ?_ (checkedAdmits found decoded loop)
    exact freshJournal_admits seeded fun other member => only other (List.mem_of_mem_filter member)

theorem Establishes.standing [LawfulCiborium]
    (establishes : Establishes successorWorld s predecessors policy (.new policy importRevision)
      started events s' result journal)
    (only : ∀ other ∈ predecessors, other.delegateKey = e.delegateKey → other = e)
    (admits : Admits (.new policy importRevision) (Seeded policy s (lineageKey e) e.generation)
      started.journal e.delegateKey)
    (unresolved : Unresolved (.new policy importRevision) s e.delegateKey) :
    Standing (.new policy importRevision) (Seeded policy s (lineageKey e) e.generation) e.delegateKey
      s' journal := by
  have standing : Standing (.new policy importRevision) (Seeded policy s (lineageKey e) e.generation)
      e.delegateKey s started.journal :=
    ⟨admits, fun stored found => (unresolved stored found).mono fun _ => False.elim⟩
  cases establishes with
  | existing => exact standing
  | new stores =>
    refine stores.standing standing ?_
    intro _ lineage policy' events s' rebuilt same seeded
    obtain ⟨rfl, rfl⟩ := Prod.mk.inj (Option.some.inj same)
    exact freshJournal_admits seeded only

end Starting

end FreenetMigrate.Migrate
