import FreenetMigrate.Gossip.Replica
import FreenetMigrate.Pointer.AntiEntropy
import FreenetMigrate.Pointer.Update

namespace FreenetMigrate.PointerContract

open Pointer Joins Gossip

variable {VerifyingKey : Type} [Ed25519 VerifyingKey]

variable (VerifyingKey) in
/-- The contract as the peers run it: a failed call leaves the state as it was. -/
def peer (params : Bytes) : Replica Bytes (List UpdateData) Bytes Bytes where
  learn state data := store VerifyingKey params state data
  summarize state := (summarizeState VerifyingKey params state).toOption.getD []
  answer state summary := (getStateDelta VerifyingKey params state summary).toOption.getD []
  absorb state delta := store VerifyingKey params state [.delta delta]

variable {params : Bytes} {parsed : PointerParams VerifyingKey}

open Classical in
variable (VerifyingKey) in
/-- What a batch can change: its records if all of it verifies, and nothing otherwise. -/
noncomputable def offered (params : Bytes) (data : List UpdateData) : List PointerRecord :=
  if OnlyVerified VerifyingKey params data then candidates VerifyingKey params data else []

theorem held_store_offered (accepted : PointerParams.parse VerifyingKey params = .ok parsed)
    (state : Bytes) (data : List UpdateData) :
    held VerifyingKey params (store VerifyingKey params state data) =
      keepGreatest (held VerifyingKey params state) (offered VerifyingKey params data) := by
  by_cases verified : OnlyVerified VerifyingKey params data
  · rw [held_store accepted verified, offered, if_pos verified]
  · obtain ⟨bytes, candidate, flawed⟩ := exists_flawed accepted verified
    obtain ⟨error, failed, -⟩ := updateState_flawed accepted state candidate flawed
    rw [offered, if_neg verified, keepGreatest_nil, store, failed]

theorem offered_delta (delta : Bytes) :
    offered VerifyingKey params [.delta delta] = (held VerifyingKey params delta).toList := by
  have put : candidates VerifyingKey params [.delta delta] =
      (held VerifyingKey params delta).toList := by
    cases holds : held VerifyingKey params delta <;> simp [candidates, UpdateData.payload, holds]
  unfold offered
  split
  · exact put
  · rename_i unverified
    cases holds : held VerifyingKey params delta with
    | none => rfl
    | some record =>
      refine absurd ?_ unverified
      intro update member bytes payload
      obtain rfl := List.mem_singleton.mp member
      obtain rfl := Option.some.inj payload
      exact .inr ⟨record, holds⟩

theorem held_stored_owed (state : Bytes) (theirs : Option PointerRecord) :
    held VerifyingKey params (stored [] (owed (held VerifyingKey params state) theirs)) =
      owed (held VerifyingKey params state) theirs := by
  cases owes : owed (held VerifyingKey params state) theirs with
  | none => exact held_nil
  | some record => exact held_encode_of_held (owed_eq_some.mp owes).1

noncomputable def peer_keepsGreatest (accepted : PointerParams.parse VerifyingKey params = .ok parsed) :
    KeepsGreatest (peer VerifyingKey params) PointerRecord where
  value := held VerifyingKey params
  offers := offered VerifyingKey params
  shown := held VerifyingKey params
  carried := held VerifyingKey params
  value_learn := held_store_offered accepted
  shown_summarize state := by
    simp only [peer, summarizeState_eq, Except.toOption, Option.getD_some, held_stored]
  carried_answer state summary := by
    simp only [peer, getStateDelta_eq, Except.toOption, Option.getD_some, held_stored_owed]
  value_absorb state delta := by
    rw [← offered_delta]
    exact held_store_offered accepted state [.delta delta]

section Network

variable {ι : Type} [DecidableEq ι]

variable (VerifyingKey) in
/-- The records that reached a peer, on whatever way and in whatever order: those it first held,
    those of a batch it accepted, and those that had reached a peer whose delta it was given. -/
noncomputable def reached (params : Bytes) (states : ι → Bytes)
    (events : List (Event ι (List UpdateData))) (i : ι) : Set PointerRecord :=
  (run (remember PointerRecord)
    (start fun i => {record | held VerifyingKey params (states i) = some record})
    (events.map (Event.map fun data => {record | record ∈ offered VerifyingKey params data}))).state i

theorem tracks_run (accepted : PointerParams.parse VerifyingKey params = .ok parsed)
    (states : ι → Bytes) (events : List (Event ι (List UpdateData))) :
    Tracks (peer_keepsGreatest accepted) (run (peer VerifyingKey params) (start states) events)
      (run (remember PointerRecord)
        (start fun i => {record | held VerifyingKey params (states i) = some record})
        (events.map (Event.map fun data =>
          {record | record ∈ offered VerifyingKey params data}))) := by
  apply Tracks.run
  apply Tracks.start
  intro i
  constructor
  · intro empty
    by_contra some
    obtain ⟨record, holds⟩ := Option.ne_none_iff_exists'.mp some
    exact (Set.eq_empty_iff_forall_notMem.mp empty) record holds
  · rintro ⟨record, holds⟩
    refine ⟨record, holds, holds, ?_⟩
    intro other also
    exact (Option.some.inj (holds.symm.trans also)).ge

/-- A call that leaves a peer without a record leaves its bytes as they were. -/
theorem store_unusable (accepted : PointerParams.parse VerifyingKey params = .ok parsed)
    {state : Bytes} {data : List UpdateData}
    (unusable : held VerifyingKey params (store VerifyingKey params state data) = none) :
    held VerifyingKey params state = none ∧ store VerifyingKey params state data = state := by
  rw [held_store_offered accepted] at unusable
  have nothing := keepGreatest_eq_none.mp unusable
  have before : held VerifyingKey params state = none := by
    by_contra some
    obtain ⟨record, holds⟩ := Option.ne_none_iff_exists'.mp some
    exact nothing ⟨record, .inl holds⟩
  refine ⟨before, ?_⟩
  by_cases verified : OnlyVerified VerifyingKey params data
  · rw [offered, if_pos verified] at unusable
    rw [store_verified accepted verified, unusable]
    rfl
  · obtain ⟨bytes, candidate, flawed⟩ := exists_flawed accepted verified
    obtain ⟨error, failed, -⟩ := updateState_flawed accepted state candidate flawed
    rw [store, failed]

/-- Peers without a record have the bytes they started from. -/
theorem state_of_unusable (accepted : PointerParams.parse VerifyingKey params = .ok parsed)
    {network : Network ι Bytes Bytes Bytes} {states : ι → Bytes}
    (kept : ∀ i, held VerifyingKey params (network.state i) = none → network.state i = states i)
    (events : List (Event ι (List UpdateData))) (i : ι)
    (unusable : held VerifyingKey params ((run (peer VerifyingKey params) network events).state i) = none) :
    (run (peer VerifyingKey params) network events).state i = states i := by
  induction events generalizing network with
  | nil => exact kept i unusable
  | cons event rest ih =>
    refine ih ?_ unusable
    have stored (j : ι) (data : List UpdateData) (k : ι) (nothing : held VerifyingKey params
        (Function.update network.state j (store VerifyingKey params (network.state j) data) k) = none) :
        Function.update network.state j (store VerifyingKey params (network.state j) data) k =
          states k := by
      by_cases same : k = j
      · subst same
        rw [Function.update_self] at nothing ⊢
        obtain ⟨before, unchanged⟩ := store_unusable accepted nothing
        rw [unchanged, kept k before]
      · rw [Function.update_of_ne same] at nothing ⊢
        exact kept k nothing
    intro k nothing
    cases event with
    | learn j data => exact stored j data k nothing
    | summarize j => exact kept k nothing
    | answer j number =>
      simp only [step] at nothing ⊢
      split at nothing <;> exact kept k nothing
    | deliver number =>
      simp only [step] at nothing ⊢
      split at nothing
      · exact stored _ _ k nothing
      · exact kept k nothing

/-- Over any run of any number of peers, with batches of any bytes and with summaries and deltas
    that arrive late, out of order, more than once or never: a peer stores exactly the greatest of
    the records that reached it, its first bytes while none did, and all that a peer had when it
    answered a summary has reached the asker once that answer arrives. -/
theorem peers_hold_what_reached_them (accepted : PointerParams.parse VerifyingKey params = .ok parsed)
    (states : ι → Bytes) (events : List (Event ι (List UpdateData))) :
    (∀ i, (reached VerifyingKey params states events i).Nonempty →
      ∃ best, IsGreatest (reached VerifyingKey params states events i) best ∧
        (run (peer VerifyingKey params) (start states) events).state i = best.encode) ∧
    (∀ i, reached VerifyingKey params states events i = ∅ →
      (run (peer VerifyingKey params) (start states) events).state i = states i) ∧
    (∀ i later, reached VerifyingKey params states events i ⊆
      reached VerifyingKey params states (events ++ later) i) ∧
    ∀ later sender receiver, Heard (peer VerifyingKey params)
        (run (peer VerifyingKey params) (start states) events) later sender receiver →
      reached VerifyingKey params states events sender ⊆
        reached VerifyingKey params states (events ++ later) receiver := by
  have tracks := tracks_run accepted states events
  refine ⟨?_, ?_, ?_, ?_⟩
  · intro i nonempty
    obtain ⟨best, found, greatest⟩ := (tracks.state i).2 nonempty
    exact ⟨best, greatest, held_encode found⟩
  · intro i empty
    exact state_of_unusable accepted (fun _ _ => rfl) events i ((tracks.state i).1 empty)
  · intro i later
    simp only [reached, List.map_append, run_append]
    exact known_run _ _ i
  · intro later sender receiver heard
    simp only [reached, List.map_append, run_append]
    exact known_of_heard (heard.remembered (peer_keepsGreatest accepted) tracks)

theorem reached_vectorRecord : vectorRecord ∈ reached VectorKey vectorParams (fun _ : Bool => [])
    [.learn true [.delta vectorRecord.encode]] true := by
  refine .inr ?_
  change vectorRecord ∈ offered VectorKey vectorParams [.delta vectorRecord.encode]
  rw [offered_delta, held_vectorRecord]
  exact List.mem_singleton_self _

theorem peers_hold_what_reached_them_vector :
    ∃ best, IsGreatest (reached VectorKey vectorParams (fun _ : Bool => [])
        [.learn true [.delta vectorRecord.encode]] true) best ∧
      (run (peer VectorKey vectorParams) (start fun _ : Bool => [])
        [.learn true [.delta vectorRecord.encode]]).state true = best.encode :=
  (peers_hold_what_reached_them parse_vectorParams (fun _ : Bool => [])
    [.learn true [.delta vectorRecord.encode]]).1 true ⟨_, reached_vectorRecord⟩

theorem reached_within (states : ι → Bytes) (events later : List (Event ι (List UpdateData)))
    (quiet : ∀ i data, .learn i data ∉ later) (j : ι) :
    reached VerifyingKey params states (events ++ later) j ⊆
      ⋃ i, reached VerifyingKey params states events i := by
  have within := (within_states_run
    (fun i => {record | held VerifyingKey params (states i) = some record})
    (events.map (Event.map fun data => {record | record ∈ offered VerifyingKey params data}))).run
    (later.map (Event.map fun data => {record | record ∈ offered VerifyingKey params data}))
    (by
      intro i told member
      obtain ⟨event, inside, same⟩ := List.mem_map.mp member
      cases event with
      | learn i data => exact absurd inside (quiet i data)
      | summarize => cases same
      | answer => cases same
      | deliver => cases same)
  have bound := within.1 j
  simp only [reached, List.map_append, run_append]
  exact bound

/-- Once no more batches come in, and each peer has answered each other's summary and been heard,
    all store the greatest record that ever reached any of them, and no one owes anyone a delta. -/
theorem peers_converge (accepted : PointerParams.parse VerifyingKey params = .ok parsed)
    (states : ι → Bytes) (events later : List (Event ι (List UpdateData)))
    (quiet : ∀ i data, .learn i data ∉ later)
    (heard : ∀ sender receiver, sender ≠ receiver → Heard (peer VerifyingKey params)
      (run (peer VerifyingKey params) (start states) events) later sender receiver)
    (usable : ∃ i, (reached VerifyingKey params states events i).Nonempty) :
    ∃ best, IsGreatest (⋃ i, reached VerifyingKey params states events i) best ∧
      (∀ i, (run (peer VerifyingKey params) (start states) (events ++ later)).state i = best.encode) ∧
      ∀ i j, deltaFor VerifyingKey params
        ((run (peer VerifyingKey params) (start states) (events ++ later)).state i)
        ((run (peer VerifyingKey params) (start states) (events ++ later)).state j) = .ok [] := by
  have everything (j : ι) : reached VerifyingKey params states (events ++ later) j =
      ⋃ i, reached VerifyingKey params states events i := by
    apply (reached_within states events later quiet j).antisymm
    apply Set.iUnion_subset
    intro i
    obtain ⟨-, -, grows, told⟩ := peers_hold_what_reached_them accepted states events
    by_cases same : i = j
    · exact same ▸ grows i later
    · exact told later i j (heard i j same)
  have holds (j : ι) : Holds (held VerifyingKey params
      ((run (peer VerifyingKey params) (start states) (events ++ later)).state j))
      (⋃ i, reached VerifyingKey params states events i) := by
    rw [← everything j]
    exact (tracks_run accepted states (events ++ later)).state j
  obtain ⟨i, record, member⟩ := usable
  obtain ⟨best, found, greatest⟩ := (holds i).2 ⟨record, Set.mem_iUnion.mpr ⟨i, member⟩⟩
  have agreed (j : ι) : held VerifyingKey params
      ((run (peer VerifyingKey params) (start states) (events ++ later)).state j) = some best :=
    ((holds j).eq (holds i)).trans found
  refine ⟨best, greatest, fun j => held_encode (agreed j), ?_⟩
  intro j k
  rw [deltaFor_eq_nil, agreed, agreed]
  exact owed_eq_none.mpr fun mine same => ⟨mine, same, le_rfl⟩

end Network

/-- The other peer asks, is answered and is heard, and then the other way round. -/
theorem peers_converge_vector :
    ∃ best, ∀ i, (run (peer VectorKey vectorParams) (start fun _ : Bool => [])
      ([.learn true [.delta vectorRecord.encode]] ++ [.summarize false, .answer true 0, .deliver 1,
        .summarize true, .answer false 2, .deliver 3])).state i = PointerRecord.encode best := by
  have heard (sender receiver : Bool) (other : sender ≠ receiver) : Heard (peer VectorKey vectorParams)
      (run (peer VectorKey vectorParams) (start fun _ : Bool => [])
        [.learn true [.delta vectorRecord.encode]])
      [.summarize false, .answer true 0, .deliver 1, .summarize true, .answer false 2, .deliver 3]
      sender receiver := by
    cases sender with
    | true =>
      cases receiver with
      | true => exact absurd rfl other
      | false => exact ⟨[.summarize false], 0, [], [.summarize true, .answer false 2, .deliver 3], _,
          rfl, rfl⟩
    | false =>
      cases receiver with
      | false => exact absurd rfl other
      | true => exact ⟨[.summarize false, .answer true 0, .deliver 1, .summarize true], 2, [], [], _,
          rfl, rfl⟩
  obtain ⟨best, -, agreed, -⟩ := peers_converge parse_vectorParams (fun _ : Bool => [])
    [.learn true [.delta vectorRecord.encode]] _ (by simp) heard ⟨true, _, reached_vectorRecord⟩
  exact ⟨best, agreed⟩

end FreenetMigrate.PointerContract
