import FreenetMigrate.Calls.Rules
import FreenetMigrate.Journal.Rank
import FreenetMigrate.Migrate.JournalStore

namespace FreenetMigrate.Migrate

open Calls Journal

variable {State : Type} {world : World Request Answer State} {s s' : State} {events : History}

def MarkerCall : Request → Prop
  | .migrationMarker _ => True
  | _ => False

def ReadCall : Request → Prop
  | .migrationMarker _ => True
  | .loadJournal => True
  | _ => False

def JournalCall : Request → Prop
  | .migrationMarker _ => True
  | .loadJournal => True
  | .storeJournal _ => True
  | _ => False

theorem MarkerCall.readCall {request : Request} (call : MarkerCall request) : ReadCall request := by
  cases request <;> first | exact call | exact call.elim

theorem ReadCall.journalCall {request : Request} (call : ReadCall request) : JournalCall request := by
  cases request <;> first | exact call | exact call.elim

theorem uses_exactMarker (predecessor : DelegateKey) (generation : UInt32) :
    (exactMarker predecessor generation).Uses ReadCall := uses_request trivial

theorem marks_sealIsBridged (predecessor : DelegateKey) (generation : UInt32)
    (policy : SecretSelectionPolicy) :
    (sealIsBridged predecessor generation policy).Uses MarkerCall := by
  unfold sealIsBridged
  split
  · exact uses_pure _
  · refine uses_bind (uses_request trivial) ?_
    intro read
    split <;> exact uses_pure _

theorem uses_sealIsBridged (predecessor : DelegateKey) (generation : UInt32)
    (policy : SecretSelectionPolicy) :
    (sealIsBridged predecessor generation policy).Uses ReadCall :=
  (marks_sealIsBridged predecessor generation policy).mono fun _ => MarkerCall.readCall

theorem marks_seedEntry (policy : SecretSelectionPolicy) (journal : MigrationJournal)
    (e : DelegateLineageEntry) : (seedEntry policy journal e).run.Uses MarkerCall := by
  refine uses_run_bind (uses_run_lift (uses_request trivial)) ?_
  intro read
  split
  · exact uses_pure _
  · exact uses_pure _
  · split
    · refine uses_run_bind (uses_run_lift (uses_request trivial)) ?_
      intro exact'
      split <;> exact uses_pure _
    · exact uses_pure _
  · exact uses_pure _
  · exact uses_pure _

theorem marks_freshJournal (predecessors : List DelegateLineageEntry)
    (policy : SecretSelectionPolicy) :
    (freshJournal predecessors policy).run.Uses MarkerCall :=
  uses_run_foldlM predecessors _ (marks_seedEntry policy)

theorem uses_freshJournal (predecessors : List DelegateLineageEntry)
    (policy : SecretSelectionPolicy) :
    (freshJournal predecessors policy).run.Uses ReadCall :=
  (marks_freshJournal predecessors policy).mono fun _ => MarkerCall.readCall

section Merging

variable [Ciborium]

theorem uses_storeMerged (journal : MigrationJournal) (binding : Option JournalBinding)
    (rebuild : Option (List DelegateLineageEntry × SecretSelectionPolicy)) :
    (storeMerged journal binding rebuild).Uses JournalCall := by
  have store : ∀ merged : MigrationJournal, ((do
      let stored ← storeJournal merged.encode
      return (stored.mapError fun e => .successor s!"journal store failed: {e}", merged)) :
        Migration (Except JournalError Unit × MigrationJournal)).Uses JournalCall :=
    fun _ => uses_bind (uses_request trivial) fun _ => uses_pure _
  refine uses_bind (uses_request trivial) ?_
  intro loaded
  split
  · exact uses_pure _
  · exact store _
  · split
    · exact store _
    · exact uses_pure _
    · split
      · exact uses_pure _
      · refine uses_bind ((uses_freshJournal _ _).mono fun _ => ReadCall.journalCall) ?_
        intro rebuilt
        split
        · exact store _
        · exact uses_pure _

inductive Merged (world : World Request Answer State) (s : State) (journal : MigrationJournal)
    (binding : Option JournalBinding)
    (rebuild : Option (List DelegateLineageEntry × SecretSelectionPolicy)) : MigrationJournal → Prop
  | absent {s₁ : State} (loaded : world s .loadJournal (.ok none) s₁) :
      Merged world s journal binding rebuild journal
  | present {s₁ : State} {bytes : Bytes} {stored : MigrationJournal}
      (loaded : world s .loadJournal (.ok (some bytes)) s₁)
      (decoded : MigrationJournal.decode bytes = .ok stored) :
      Merged world s journal binding rebuild (journal.mergeStored stored binding)
  | rebuilt {s₁ s₂ : State} {bytes : Bytes} {e : String} {lineage : List DelegateLineageEntry}
      {policy : SecretSelectionPolicy} {events : History} {rebuilt : MigrationJournal}
      (loaded : world s .loadJournal (.ok (some bytes)) s₁)
      (corrupt : MigrationJournal.decode bytes = .error (.corrupt e))
      (known : rebuild = some (lineage, policy))
      (seeded : Executes world s₁ (freshJournal lineage policy).run events s₂ (.ok rebuilt)) :
      Merged world s journal binding rebuild (journal.mergeStored rebuilt binding)

inductive Stores (world : World Request Answer State) (s : State) (journal : MigrationJournal)
    (binding : Option JournalBinding)
    (rebuild : Option (List DelegateLineageEntry × SecretSelectionPolicy)) :
    History → State → Except JournalError Unit → MigrationJournal → Prop
  | refused {events : History} {s' : State} {e : JournalError} (steps : Steps world s events s')
      (reads : Only ReadCall events) :
      Stores world s journal binding rebuild events s' (.error e) journal
  | wrote {events : History} {s₁ s' : State} {answer : Except String Unit}
      {merged : MigrationJournal} (steps : Steps world s events s₁) (reads : Only ReadCall events)
      (merges : Merged world s journal binding rebuild merged)
      (stores : world s₁ (.storeJournal merged.encode) answer s') :
      Stores world s journal binding rebuild (events ++ [⟨.storeJournal merged.encode, answer⟩]) s'
        (answer.mapError fun e => .successor s!"journal store failed: {e}") merged

variable {journal after : MigrationJournal} {binding : Option JournalBinding}
  {rebuild : Option (List DelegateLineageEntry × SecretSelectionPolicy)}
  {result : Except JournalError Unit}

theorem stores_of_executes
    (run : Executes world s (storeMerged journal binding rebuild) events s' (result, after)) :
    Stores world s journal binding rebuild events s' result after := by
  obtain ⟨answer, s₁, rest, rfl, loaded, next⟩ := executes_call.mp run
  have first : Steps world s [⟨.loadJournal, answer⟩] s₁ := .cons loaded (.nil s₁)
  have reads : Only ReadCall [(⟨.loadJournal, answer⟩ : Event Request Answer)] := by
    simp [ReadCall]
  cases answer with
  | error e =>
    obtain ⟨rfl, rfl, same⟩ := executes_pure.mp next
    obtain ⟨rfl, rfl⟩ := Prod.mk.inj same
    exact .refused first reads
  | ok found =>
    cases found with
    | none =>
      obtain ⟨answer, s₂, rest, rfl, stored, done⟩ := executes_call.mp next
      obtain ⟨rfl, rfl, same⟩ := executes_pure.mp done
      obtain ⟨rfl, rfl⟩ := Prod.mk.inj same
      exact .wrote first reads (.absent loaded) stored
    | some bytes =>
      simp only at next
      split at next
      · rename_i stored decoded
        obtain ⟨answer, s₂, rest, rfl, stored, done⟩ := executes_call.mp next
        obtain ⟨rfl, rfl, same⟩ := executes_pure.mp done
        obtain ⟨rfl, rfl⟩ := Prod.mk.inj same
        exact .wrote first reads (.present loaded decoded) stored
      · obtain ⟨rfl, rfl, same⟩ := executes_pure.mp next
        obtain ⟨rfl, rfl⟩ := Prod.mk.inj same
        exact .refused first reads
      · rename_i e corrupt
        split at next
        · obtain ⟨rfl, rfl, same⟩ := executes_pure.mp next
          obtain ⟨rfl, rfl⟩ := Prod.mk.inj same
          exact .refused first reads
        · rename_i lineage policy
          obtain ⟨seeding, s₂, seed, rest, rfl, seeded, finish⟩ := executes_bind.mp next
          have more : Steps world s (⟨.loadJournal, .ok (some bytes)⟩ :: seeding) s₂ :=
            .cons loaded seeded.steps
          have reads : Only ReadCall
              ((⟨.loadJournal, .ok (some bytes)⟩ : Event Request Answer) :: seeding) :=
            only_cons.mpr ⟨trivial, seeded.only (uses_freshJournal lineage policy)⟩
          cases seed with
          | error e =>
            obtain ⟨rfl, rfl, same⟩ := executes_pure.mp finish
            obtain ⟨rfl, rfl⟩ := Prod.mk.inj same
            rw [List.append_nil]
            exact .refused more reads
          | ok rebuilt =>
            obtain ⟨answer, s₃, rest, rfl, stored, done⟩ := executes_call.mp finish
            obtain ⟨rfl, rfl, same⟩ := executes_pure.mp done
            obtain ⟨rfl, rfl⟩ := Prod.mk.inj same
            exact .wrote more reads (.rebuilt loaded corrupt rfl seeded) stored

def storedJournal (stored : Option Bytes) : Option MigrationJournal :=
  stored.bind fun bytes => (MigrationJournal.decode bytes).toOption

theorem storedJournal_of_decode {bytes : Bytes} {journal : MigrationJournal}
    (decoded : MigrationJournal.decode bytes = .ok journal) :
    storedJournal (some bytes) = some journal := by
  simp only [storedJournal, Option.bind_some, decoded, Except.toOption]

theorem decode_of_storedJournal {stored : Option Bytes} {journal : MigrationJournal}
    (found : storedJournal stored = some journal) :
    ∃ bytes, stored = some bytes ∧ MigrationJournal.decode bytes = .ok journal := by
  obtain ⟨bytes, rfl, read⟩ := Option.bind_eq_some_iff.mp found
  refine ⟨bytes, rfl, ?_⟩
  cases decoded : MigrationJournal.decode bytes with
  | error e =>
    rw [decoded] at read
    cases read
  | ok held =>
    rw [decoded] at read
    rw [Option.some.inj read]

def storedRank (binding : JournalBinding) (stored : Option Bytes) (key : Fixed 32) :
    WithBot (ℕ ×ₗ ℕ) :=
  match storedJournal stored with
  | some journal => journal.effectiveRank binding key
  | none => ⊥

end Merging

/-- A world that keeps the journal it is given, and that nothing else writes to. -/
structure JournalKept (world : World Request Answer State) (stored : State → Option Bytes) :
    Prop where
  loads : ∀ {s found s'}, world s .loadJournal (.ok found) s' → found = stored s
  reads : ∀ {s request answer s'}, (∀ bytes, request ≠ .storeJournal bytes) →
    world s request answer s' → stored s' = stored s
  stores : ∀ {s bytes s'}, world s (.storeJournal bytes) (.ok ()) s' → stored s' = some bytes
  /-- A refused store may still have landed. -/
  refuses : ∀ {s bytes e s'}, world s (.storeJournal bytes) (.error e) s' →
    stored s' = stored s ∨ stored s' = some bytes

/-- The least a successor and its predecessors can be held to: a journal store that works or
    fails, and any other answer at all. -/
def journalWorld : World Request Answer (Option Bytes) := fun before request answer after =>
  match request, answer with
  | .loadJournal, .ok found => found = before ∧ after = before
  | .storeJournal bytes, .ok () => after = some bytes
  | .storeJournal bytes, .error _ => after = before ∨ after = some bytes
  | _, _ => after = before

theorem journalKept_journalWorld : JournalKept journalWorld id where
  loads made := made.1
  reads := by
    intro s request answer s' notStore made
    cases request with
    | storeJournal bytes => exact absurd rfl (notStore bytes)
    | loadJournal =>
      cases answer with
      | error e => exact made
      | ok found => exact made.2
    | _ => exact made
  stores made := made
  refuses made := made

theorem journalWorld_total (s : Option Bytes) (request : Request) :
    ∃ answer s', journalWorld s request answer s' := by
  cases request with
  | loadJournal => exact ⟨.ok s, s, rfl, rfl⟩
  | storeJournal bytes => exact ⟨.ok (), some bytes, rfl⟩
  | migrationMarker => exact ⟨.ok none, s, rfl⟩
  | recordMarker | flushPredecessor => exact ⟨.ok (), s, rfl⟩
  | writeSecret => exact ⟨.written, s, rfl⟩
  | probeVerdict => exact ⟨.ok .noReply, s, rfl⟩
  | fetchSecrets => exact ⟨.ok [], s, rfl⟩

section Kept

variable {stored : State → Option Bytes}

theorem JournalKept.recorded (kept : JournalKept world stored) :
    JournalKept (Calls.recorded world) fun p => stored p.state where
  loads made := kept.loads made.1
  reads notStore made := kept.reads notStore made.1
  stores made := kept.stores made.1
  refuses made := kept.refuses made.1

theorem JournalKept.writes (kept : JournalKept world stored) {bytes : Bytes}
    {answer : Except String Unit} (made : world s (.storeJournal bytes) answer s') :
    stored s' = stored s ∨ stored s' = some bytes := by
  cases answer with
  | ok => exact .inr (kept.stores made)
  | error => exact kept.refuses made

theorem ReadCall.notStore {request : Request} (call : ReadCall request) :
    ∀ bytes, request ≠ .storeJournal bytes := by
  rintro bytes rfl
  exact call

theorem JournalKept.steps (kept : JournalKept world stored) (steps : Steps world s events s')
    (only : Only (fun request => ∀ bytes, request ≠ .storeJournal bytes) events) :
    stored s' = stored s :=
  steps.frame only (fun _ _ _ _ notStore made same => (kept.reads notStore made).trans same) rfl

variable [Ciborium] {journal after : MigrationJournal} {binding : JournalBinding}
  {rebuild : Option (List DelegateLineageEntry × SecretSelectionPolicy)}
  {result : Except JournalError Unit}

theorem Merged.of_found {held : MigrationJournal} (kept : JournalKept world stored)
    (merges : Merged world s journal (some binding) rebuild after)
    (found : storedJournal (stored s) = some held) :
    after = journal.mergeStored held (some binding) := by
  cases merges with
  | absent loaded =>
    rw [← kept.loads loaded] at found
    cases found
  | present loaded decoded =>
    rw [← kept.loads loaded, storedJournal_of_decode decoded] at found
    rw [Option.some.inj found]
  | rebuilt loaded corrupt =>
    rw [← kept.loads loaded, storedJournal, Option.bind_some, corrupt] at found
    cases found

theorem Merged.rank_le (kept : JournalKept world stored)
    (merges : Merged world s journal (some binding) rebuild after) (key : Fixed 32) :
    journal.effectiveRank binding key ≤ after.effectiveRank binding key ∧
      storedRank binding (stored s) key ≤ after.effectiveRank binding key := by
  cases merges with
  | absent loaded =>
    refine ⟨le_rfl, ?_⟩
    rw [← kept.loads loaded]
    exact bot_le
  | present loaded decoded =>
    rw [MigrationJournal.effectiveRank_mergeStored, ← kept.loads loaded]
    simp only [storedRank, storedJournal, Option.bind_some, decoded, Except.toOption]
    exact ⟨le_max_left _ _, le_max_right _ _⟩
  | rebuilt loaded corrupt known seeded =>
    rw [MigrationJournal.effectiveRank_mergeStored, ← kept.loads loaded]
    simp only [storedRank, storedJournal, Option.bind_some, corrupt, Except.toOption]
    exact ⟨le_max_left _ _, bot_le⟩

theorem Merged.holdsUnder (merges : Merged world s journal (some binding) rebuild after)
    (holds : journal.HoldsUnder binding) : after.HoldsUnder binding := by
  cases merges with
  | absent loaded => exact holds
  | present loaded decoded => exact holds.mergeStored _
  | rebuilt loaded corrupt known seeded => exact holds.mergeStored _

theorem Stores.stored_cases (kept : JournalKept world stored)
    (run : Stores world s journal (some binding) rebuild events s' result after) :
    (stored s' = stored s ∧ result ≠ .ok ()) ∨
      (stored s' = some after.encode ∧ Merged world s journal (some binding) rebuild after) := by
  cases run with
  | refused steps reads =>
    refine .inl ⟨kept.steps steps (reads.mono fun _ => ReadCall.notStore), ?_⟩
    intro same
    cases same
  | @wrote _ _ _ answer _ steps reads merges stores =>
    have before := kept.steps steps (reads.mono fun _ => ReadCall.notStore)
    cases answer with
    | ok answer => exact .inr ⟨kept.stores stores, merges⟩
    | error e =>
      rcases kept.refuses stores with same | landed
      · refine .inl ⟨same.trans before, ?_⟩
        intro ok
        cases ok
      · exact .inr ⟨landed, merges⟩

theorem Stores.stored_of_ok (kept : JournalKept world stored)
    (run : Stores world s journal (some binding) rebuild events s' (.ok ()) after) :
    stored s' = some after.encode := by
  rcases run.stored_cases kept with ⟨-, failed⟩ | ⟨written, -⟩
  · exact absurd rfl failed
  · exact written

theorem Stores.after_cases (run : Stores world s journal (some binding) rebuild events s' result after) :
    after = journal ∨ Merged world s journal (some binding) rebuild after := by
  cases run with
  | refused steps reads => exact .inl rfl
  | wrote steps reads merges stores => exact .inr merges

section Lawful

variable [LawfulCiborium]

theorem storedJournal_encode (journal : MigrationJournal) :
    storedJournal (some journal.encode) = some journal := by
  simp only [storedJournal, Option.bind_some, MigrationJournal.decode_encode, Except.toOption]

theorem storedRank_encode (journal : MigrationJournal) (key : Fixed 32) :
    storedRank binding (some journal.encode) key = journal.effectiveRank binding key := by
  rw [storedRank, storedJournal_encode]

theorem Stores.rank_le (kept : JournalKept world stored)
    (run : Stores world s journal (some binding) rebuild events s' result after) (key : Fixed 32) :
    storedRank binding (stored s) key ≤ storedRank binding (stored s') key := by
  rcases run.stored_cases kept with ⟨same, -⟩ | ⟨written, merges⟩
  · rw [same]
  · rw [written, storedRank_encode]
    exact (merges.rank_le kept key).2

end Lawful

end Kept

end FreenetMigrate.Migrate
