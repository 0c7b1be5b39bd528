import FreenetMigrate.Pointer.Merge

namespace FreenetMigrate.PointerContract

open Pointer Joins

variable {VerifyingKey : Type} [Ed25519 VerifyingKey] {params : Bytes}

theorem mem_candidates {data : List UpdateData} {record : PointerRecord} :
    record ∈ candidates VerifyingKey params data ↔
      ∃ update ∈ data, ∃ bytes, update.payload = some bytes ∧
        held VerifyingKey params bytes = some record := by
  simp only [candidates, List.mem_filterMap, Option.bind_eq_some_iff]

def store (VerifyingKey : Type) [Ed25519 VerifyingKey] (params state : Bytes)
    (data : List UpdateData) : Bytes :=
  match updateState VerifyingKey params state data with
  | .ok next => next
  | .error _ => state

def storeAll (VerifyingKey : Type) [Ed25519 VerifyingKey] (params state : Bytes)
    (batches : List (List UpdateData)) : Bytes :=
  batches.foldl (store VerifyingKey params) state

def recordsSeen (VerifyingKey : Type) [Ed25519 VerifyingKey] (params state : Bytes)
    (batches : List (List UpdateData)) : Set PointerRecord :=
  {record | held VerifyingKey params state = some record ∨
    ∃ data ∈ batches, ∃ update ∈ data, ∃ bytes, update.payload = some bytes ∧
      held VerifyingKey params bytes = some record}

theorem recordsSeen_eq (state : Bytes) (batches : List (List UpdateData)) :
    recordsSeen VerifyingKey params state batches = everHeld (held VerifyingKey params state)
      (batches.flatMap (candidates VerifyingKey params)) := by
  ext record
  simp only [recordsSeen, everHeld, Set.mem_ofPred_eq, List.mem_flatMap, mem_candidates]

def stored (first : Bytes) (best : Option PointerRecord) : Bytes :=
  best.elim first PointerRecord.encode

variable {parsed : PointerParams VerifyingKey}

theorem held_encode_of_held {bytes : Bytes} {record : PointerRecord}
    (holds : held VerifyingKey params bytes = some record) :
    held VerifyingKey params record.encode = some record := held_encode holds ▸ holds

theorem held_of_keepGreatest {state : Bytes} {newcomers : List PointerRecord} {best : PointerRecord}
    (verified : ∀ record ∈ newcomers, held VerifyingKey params record.encode = some record)
    (kept : keepGreatest (held VerifyingKey params state) newcomers = some best) :
    held VerifyingKey params best.encode = some best := by
  rcases mem_of_keepGreatest kept with holds | member
  · exact held_encode_of_held holds
  · exact verified _ member

theorem store_verified {data : List UpdateData}
    (accepted : PointerParams.parse VerifyingKey params = .ok parsed)
    (verified : OnlyVerified VerifyingKey params data) (state : Bytes) :
    store VerifyingKey params state data = stored state
      (keepGreatest (held VerifyingKey params state) (candidates VerifyingKey params data)) := by
  rw [store, updateState_verified accepted verified]
  cases keepGreatest (held VerifyingKey params state) (candidates VerifyingKey params data) <;> rfl

theorem held_store {data : List UpdateData}
    (accepted : PointerParams.parse VerifyingKey params = .ok parsed)
    (verified : OnlyVerified VerifyingKey params data) (state : Bytes) :
    held VerifyingKey params (store VerifyingKey params state data) =
      keepGreatest (held VerifyingKey params state) (candidates VerifyingKey params data) := by
  rw [store_verified accepted verified]
  cases kept : keepGreatest (held VerifyingKey params state) (candidates VerifyingKey params data) with
  | none =>
    cases holds : held VerifyingKey params state with
    | none => exact holds
    | some record => exact absurd ⟨record, .inl holds⟩ (keepGreatest_eq_none.mp kept)
  | some best =>
    refine held_of_keepGreatest ?_ kept
    intro record member
    obtain ⟨_, _, _, _, holds⟩ := mem_candidates.mp member
    exact held_encode_of_held holds

theorem storeAll_verified {batches : List (List UpdateData)}
    (accepted : PointerParams.parse VerifyingKey params = .ok parsed)
    (verified : ∀ data ∈ batches, OnlyVerified VerifyingKey params data) (state : Bytes) :
    storeAll VerifyingKey params state batches = stored state
      (keepGreatest (held VerifyingKey params state)
        (batches.flatMap (candidates VerifyingKey params))) := by
  induction batches generalizing state with
  | nil =>
    simp only [storeAll, List.foldl_nil, List.flatMap_nil, keepGreatest_nil]
    cases holds : held VerifyingKey params state with
    | none => rfl
    | some record => exact held_encode holds
  | cons data rest ih =>
    have first := verified data (List.mem_cons_self ..)
    have remaining := ih (fun other member => verified other (List.mem_cons_of_mem _ member))
      (store VerifyingKey params state data)
    change storeAll VerifyingKey params (store VerifyingKey params state data) rest = _
    rw [remaining, held_store accepted first, List.flatMap_cons, keepGreatest_append]
    cases kept : keepGreatest (keepGreatest (held VerifyingKey params state)
        (candidates VerifyingKey params data)) (rest.flatMap (candidates VerifyingKey params)) with
    | some best => rfl
    | none =>
      have before : keepGreatest (held VerifyingKey params state)
          (candidates VerifyingKey params data) = none := by
        by_contra some
        obtain ⟨record, found⟩ := Option.ne_none_iff_exists'.mp some
        exact keepGreatest_eq_none.mp kept ⟨record, .inl found⟩
      simp only [stored, Option.elim_none]
      rw [store_verified accepted first, before]
      rfl

/-- Convergence. Once a verified record was seen a node stores exactly the encoding of the
    greatest one, and before that its first bytes; so what it stores depends on the set of
    records only. -/
theorem pointer_state_converges (accepted : PointerParams.parse VerifyingKey params = .ok parsed)
    (state : Bytes) (batches : List (List UpdateData))
    (verified : ∀ data ∈ batches, OnlyVerified VerifyingKey params data) :
    ((recordsSeen VerifyingKey params state batches).Nonempty →
      ∃ greatest, IsGreatest (recordsSeen VerifyingKey params state batches) greatest ∧
        storeAll VerifyingKey params state batches = greatest.encode) ∧
    (recordsSeen VerifyingKey params state batches = ∅ →
      storeAll VerifyingKey params state batches = state) ∧
    ∀ other others, (∀ data ∈ others, OnlyVerified VerifyingKey params data) →
      (recordsSeen VerifyingKey params state batches).Nonempty →
      recordsSeen VerifyingKey params state batches = recordsSeen VerifyingKey params other others →
      storeAll VerifyingKey params state batches = storeAll VerifyingKey params other others := by
  rw [storeAll_verified accepted verified, recordsSeen_eq]
  refine ⟨?_, ?_, ?_⟩
  · intro nonempty
    obtain ⟨greatest, kept, isGreatest⟩ := keepGreatest_isGreatest _ _ nonempty
    exact ⟨greatest, isGreatest, by rw [kept]; rfl⟩
  · intro empty
    rw [keepGreatest_eq_none.mpr (Set.not_nonempty_iff_eq_empty.mpr empty)]
    rfl
  · intro other others otherVerified nonempty same
    rw [recordsSeen_eq] at same
    rw [storeAll_verified accepted otherVerified, ← keepGreatest_congr same]
    obtain ⟨greatest, kept, _⟩ := keepGreatest_isGreatest _ _ nonempty
    rw [kept]
    rfl

theorem held_vectorRecord : held VectorKey vectorParams vectorRecord.encode = some vectorRecord :=
  held_eq_some.mpr decodeVerified_vectorRecord

/-- The published record, once as a state beside an empty delta and once repeated over two calls. -/
theorem pointer_state_converges_vector :
    (∃ greatest,
      IsGreatest (recordsSeen VectorKey vectorParams [] [[.state vectorRecord.encode, .delta []]])
        greatest ∧
      storeAll VectorKey vectorParams [] [[.state vectorRecord.encode, .delta []]] =
        greatest.encode) ∧
    storeAll VectorKey vectorParams [] [[.state vectorRecord.encode, .delta []]] =
      storeAll VectorKey vectorParams [1] [[.delta vectorRecord.encode],
        [.stateAndDelta vectorRecord.encode []]] := by
  have short : held VectorKey vectorParams [1] = none := by decide +kernel
  have first : ∀ data ∈ [[UpdateData.state vectorRecord.encode, .delta []]],
      OnlyVerified VectorKey vectorParams data := by
    simp [OnlyVerified, UpdateData.payload, held_vectorRecord]
  have second : ∀ data ∈ [[UpdateData.delta vectorRecord.encode],
      [.stateAndDelta vectorRecord.encode []]], OnlyVerified VectorKey vectorParams data := by
    simp [OnlyVerified, UpdateData.payload, held_vectorRecord]
  have seen : recordsSeen VectorKey vectorParams [] [[.state vectorRecord.encode, .delta []]] =
      {vectorRecord} := by
    ext record
    simp [recordsSeen, UpdateData.payload, held_vectorRecord, eq_comm]
  have seenAgain : recordsSeen VectorKey vectorParams [1] [[.delta vectorRecord.encode],
      [.stateAndDelta vectorRecord.encode []]] = {vectorRecord} := by
    ext record
    simp [recordsSeen, UpdateData.payload, held_vectorRecord, short, eq_comm]
  obtain ⟨kept, -, same⟩ := pointer_state_converges parse_vectorParams [] _ first
  have nonempty : (recordsSeen VectorKey vectorParams []
      [[.state vectorRecord.encode, .delta []]]).Nonempty := seen ▸ Set.singleton_nonempty _
  exact ⟨kept nonempty, same [1] _ second nonempty (seen.trans seenAgain.symm)⟩

end FreenetMigrate.PointerContract
