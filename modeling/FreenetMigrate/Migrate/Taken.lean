import FreenetMigrate.Migrate.Observer

namespace FreenetMigrate.Migrate

open Calls Journal

/-- An answer that a retry would not change: the item is in the successor, or refused for good. -/
def Taken : ItemWrite → Prop
  | .written => True
  | .alreadyAuthoritative => True
  | .failed _ .permanent => True
  | .failed _ .retryable => False

section Offers

variable {State : Type} {world : World Request Answer State} {s s' : State} {asked : Asked}
  {withheldKeys : List Bytes} {items : List SecretPair} {rounds : List History}
  {offering result : Offering}

theorem failures_le
    (offers : Iterates world (offerItem asked withheldKeys) s offering items rounds s' result) :
    offering.tally.failed ≤ result.tally.failed ∧
      offering.tally.withheld ≤ result.tally.withheld := by
  induction offers with
  | nil => exact ⟨le_rfl, le_rfl⟩
  | @cons _ _ _ offering next _ pair _ _ _ round _ ih =>
    have first : offering.tally.failed ≤ next.tally.failed ∧
        offering.tally.withheld ≤ next.tally.withheld := by
      rcases offerItem_cases round with ⟨-, -, -, rfl⟩ | ⟨-, answer, -, -, rfl⟩
      · exact ⟨le_rfl, Nat.le_succ _⟩
      · cases answer with
        | written | alreadyAuthoritative => exact ⟨le_rfl, le_rfl⟩
        | failed error retry =>
          cases retry with
          | retryable => exact ⟨Nat.le_succ _, le_rfl⟩
          | permanent => exact ⟨le_rfl, le_rfl⟩
    exact ⟨first.1.trans ih.1, first.2.trans ih.2⟩

/-- Where nothing failed and nothing was withheld, every item was offered and taken, and what is
    counted as rejected was rejected for good. -/
structure OffersTaken (asked : Asked) (items : List SecretPair) (calls : History)
    (offering result : Offering) : Prop where
  offered : ∀ pair ∈ items, ∃ answer, ⟨.writeSecret (itemOf asked pair), answer⟩ ∈ calls
  taken : ∀ item answer, ⟨.writeSecret item, answer⟩ ∈ calls → Taken answer
  rejected : offering.tally.rejected < result.tally.rejected →
    ∃ pair error, ⟨.writeSecret (itemOf asked pair), .failed error .permanent⟩ ∈ calls

theorem offersTaken
    (offers : Iterates world (offerItem asked withheldKeys) s offering items rounds s' result)
    (failed : result.tally.failed = 0) (withheld : result.tally.withheld = 0) :
    OffersTaken asked items rounds.flatten offering result := by
  induction offers with
  | nil =>
    refine ⟨?_, ?_, ?_⟩
    · exact fun _ absent => nomatch absent
    · exact fun _ _ absent => nomatch absent
    · exact fun fewer => absurd fewer (Nat.lt_irrefl _)
  | @cons _ _ _ offering next last pair items calls rounds round rest ih =>
    obtain ⟨nextFailed, nextWithheld⟩ := failures_le rest
    rw [failed] at nextFailed
    rw [withheld] at nextWithheld
    obtain ⟨offered, taken, rejected⟩ := ih failed withheld
    rcases offerItem_cases round with ⟨-, -, -, rfl⟩ | ⟨-, answer, rfl, -, rfl⟩
    · exact absurd nextWithheld (Nat.not_succ_le_zero _)
    · have accepted : Taken answer := by
        cases answer with
        | written | alreadyAuthoritative => trivial
        | failed error retry =>
          cases retry with
          | retryable => exact absurd nextFailed (Nat.not_succ_le_zero _)
          | permanent => trivial
      refine ⟨?_, ?_, ?_⟩
      · intro other member
        rcases List.mem_cons.mp member with rfl | later
        · exact ⟨answer, List.mem_cons_self ..⟩
        · obtain ⟨answer, made⟩ := offered other later
          exact ⟨answer, List.mem_cons_of_mem _ made⟩
      · intro item other made
        rcases List.mem_cons.mp made with same | later
        · injection same with same answers
          injection same with same
          rw [answers]
          exact accepted
        · exact taken item other later
      · intro more
        by_cases now : (offering.answered pair.1 answer).tally.rejected < last.tally.rejected
        · obtain ⟨other, error, made⟩ := rejected now
          exact ⟨other, error, List.mem_cons_of_mem _ made⟩
        · have counted : offering.tally.rejected < (offering.answered pair.1 answer).tally.rejected :=
            lt_of_lt_of_le more (not_lt.mp now)
          cases answer with
          | written | alreadyAuthoritative => exact absurd counted (Nat.lt_irrefl _)
          | failed error retry =>
            cases retry with
            | retryable => exact absurd counted (Nat.lt_irrefl _)
            | permanent => exact ⟨pair, error, List.mem_cons_self ..⟩

end Offers

/-- An export of which everything that can be imported was offered and taken, all but what was
    rejected for good. -/
structure TakenBut (journalKey : Bytes) (calls : History) (key : DelegateKey) : Prop where
  offered : ∃ secrets, ⟨.fetchSecrets key, .ok secrets⟩ ∈ calls ∧ ∀ pair ∈ secrets,
    isMarker pair.1 = false → pair.1 ≠ journalKey → ∃ item answer,
      ⟨.writeSecret item, answer⟩ ∈ calls ∧ item.predecessor = key ∧ item.key = pair.1 ∧
        item.value = pair.2
  taken : ∀ item answer, ⟨.writeSecret item, answer⟩ ∈ calls → item.predecessor = key → Taken answer
  rejected : ∃ item error, ⟨.writeSecret item, .failed error .permanent⟩ ∈ calls ∧
    item.predecessor = key
  flushed : ⟨.flushPredecessor key, .ok ()⟩ ∈ calls

def rejectionsOnly (tally : ImportTally) (failure : Option WriterFailure) : Bool :=
  decide (0 < tally.rejected) && tally.failed == 0 && tally.withheld == 0 && itemFailureAtMost failure

section Row

variable [Ciborium] {State : Type} {world : World Request Answer State} {s s' s₁ s₂ : State}
  {journalKey : Bytes} {binding : JournalBinding} {predecessors : List DelegateLineageEntry}
  {policy : SecretSelectionPolicy} {state state' : WalkState JournalWatch}
  {row : DelegateKey × UInt32} {asked : Asked} {items : List SecretPair} {sawData : Bool}
  {begun ending : History} {rounds : List History} {observed : JournalWatch} {offering : Offering}
  {tally : ImportTally} {failure : Option WriterFailure}

omit [Ciborium] in
theorem Completes.flushed_of_mild {Observed : Type} {state : WalkState Observed}
    {state' : WalkState Observed}
    (completes : Completes policy world s state asked sawData offering ending s' state')
    (reported : state'.results =
      state.results ++ [.incomplete asked.key asked.generation tally failure])
    (mild : itemFailureAtMost failure = true) :
    ⟨.flushPredecessor asked.key, .ok ()⟩ ∈ ending ∧ tally = offering.tally := by
  have same : ∀ {other : PredecessorMigration}, state'.results = state.results ++ [other] →
      other = .incomplete asked.key asked.generation tally failure :=
    fun pushed => report_unique pushed reported
  cases completes with
  | @flushFailed e =>
    obtain ⟨-, rfl⟩ : (offering.unflush e).tally = tally ∧
        (offering.unflush e).failure = failure := by simpa using same rfl
    simp only [Offering.unflush] at mild
    split at mild
    · cases mild
    · rename_i severe
      exact absurd mild severe
  | unclean =>
    obtain ⟨rfl, -⟩ : offering.tally = tally ∧ offering.failure = failure := by simpa using same rfl
    exact ⟨List.mem_cons_self .., rfl⟩
  | sealRefused =>
    obtain ⟨rfl, rfl⟩ : offering.tally = tally ∧ _ = failure := by simpa using same rfl
    cases mild
  | completed =>
    have other := same rfl
    cases sawData <;> cases other

theorem takenBut_of_offered
    (begins : Begins (journalObserver journalKey binding predecessors policy) policy world s state row
      asked items sawData begun s₁ observed)
    (offers : Iterates world (offerItem asked state.withheldKeys) s₁ .start items rounds s₂ offering)
    (completes : Completes policy world s₂ { state with observed } asked sawData offering ending s'
      state')
    (reported : state'.results =
      state.results ++ [.incomplete asked.key asked.generation tally failure])
    (only : rejectionsOnly tally failure = true) :
    TakenBut journalKey (begun ++ rounds.flatten ++ ending) row.1 := by
  have key := begins.on.key
  unfold rejectionsOnly at only
  simp only [Bool.and_eq_true, decide_eq_true_eq, beq_iff_eq] at only
  obtain ⟨⟨⟨refused, failed⟩, withheld⟩, mild⟩ := only
  obtain ⟨flushed, rfl⟩ := completes.flushed_of_mild reported mild
  have offered := offersTaken offers failed withheld
  obtain ⟨first, s₃, among, engages⟩ := begins.engages
  have before : first ⊆ begun ++ rounds.flatten ++ ending := by
    rw [List.append_assoc]
    exact fun _ made => List.mem_append_left _ (among made)
  have during : rounds.flatten ⊆ begun ++ rounds.flatten ++ ending :=
    fun _ made => List.mem_append_left _ (List.mem_append_right _ made)
  cases engages with
  | nothing =>
    cases offers with
    | nil => cases refused
  | @data secrets _ _ _ _ _ _ exports =>
    refine ⟨⟨secrets, ?_, ?_⟩, ?_, ?_, ?_⟩
    · have fetched := exports.fetched
      rw [key] at fetched
      exact before (List.mem_append_left _ fetched)
    · intro pair member unreserved other
      have kept : pair ∈ offerable (journalObserver journalKey binding predecessors policy)
          secrets := by
        refine List.mem_filter.mpr ⟨member, ?_⟩
        simp [unreserved, journalObserver, other]
      obtain ⟨answer, made⟩ := offered.offered pair kept
      exact ⟨itemOf asked pair, answer, during made, key, rfl, rfl⟩
    · intro item answer made _
      rcases List.mem_append.mp made with made | after
      · rcases List.mem_append.mp made with earlier | made
        · exact (begins.prepares quiet_journalObserver _ earlier).elim
        · exact offered.taken item answer made
      · exact absurd rfl (completes.calls.2 _ after item)
    · obtain ⟨pair, error, made⟩ := offered.rejected refused
      exact ⟨itemOf asked pair, error, during made, key⟩
    · rw [← key]
      exact List.mem_append_right _ flushed

end Row

end FreenetMigrate.Migrate
