import FreenetMigrate.Joins.Greatest
import Mathlib.Data.List.Forall2
import Mathlib.Data.List.Induction
import Mathlib.Data.Set.Lattice
import Mathlib.Logic.Function.Basic

namespace FreenetMigrate.Gossip

open Joins

/-- What a replicated store does: take in news, summarise what it has, answer a summary with what
    that summary is missing, and take in such an answer. -/
structure Replica (σ V M D : Type) where
  learn : σ → V → σ
  summarize : σ → M
  answer : σ → M → D
  absorb : σ → D → σ

inductive Message (ι M D : Type)
  | summary (asker : ι) (summary : M)
  | delta (receiver : ι) (delta : D)

inductive Event (ι V : Type)
  | learn (peer : ι) (news : V)
  | summarize (peer : ι)
  /-- `peer` answers the message of this number, if that is a summary. -/
  | answer (peer : ι) (number : Nat)
  /-- The message of this number arrives, if it is a delta. -/
  | deliver (number : Nat)

/-- Nothing is taken out of `sent`: a message may arrive late, out of order, twice or never. -/
structure Network (ι σ M D : Type) where
  state : ι → σ
  sent : List (Message ι M D)

variable {ι σ V M D α : Type} [DecidableEq ι]

def step (replica : Replica σ V M D) (network : Network ι σ M D) : Event ι V → Network ι σ M D
  | .learn peer news =>
    { network with
      state := Function.update network.state peer (replica.learn (network.state peer) news) }
  | .summarize peer =>
    { network with
      sent := network.sent ++ [.summary peer (replica.summarize (network.state peer))] }
  | .answer peer number =>
    match network.sent[number]? with
    | some (.summary asker summary) =>
      { network with
        sent := network.sent ++ [.delta asker (replica.answer (network.state peer) summary)] }
    | _ => network
  | .deliver number =>
    match network.sent[number]? with
    | some (.delta receiver delta) =>
      { network with
        state := Function.update network.state receiver
          (replica.absorb (network.state receiver) delta) }
    | _ => network

def run (replica : Replica σ V M D) (network : Network ι σ M D) (events : List (Event ι V)) :
    Network ι σ M D :=
  events.foldl (step replica) network

def start (state : ι → σ) : Network ι σ M D := ⟨state, []⟩

theorem run_append (replica : Replica σ V M D) (network : Network ι σ M D)
    (first second : List (Event ι V)) :
    run replica network (first ++ second) = run replica (run replica network first) second :=
  List.foldl_append

/-- The replica that forgets nothing and answers with everything it was ever told. -/
def remember (α : Type) : Replica (Set α) (Set α) Unit (Set α) where
  learn known news := known ∪ news
  summarize _ := ()
  answer known _ := known
  absorb known told := known ∪ told

def Event.map {W : Type} (f : V → W) : Event ι V → Event ι W
  | .learn peer news => .learn peer (f news)
  | .summarize peer => .summarize peer
  | .answer peer number => .answer peer number
  | .deliver number => .deliver number

section Remembering

variable {known : Network ι (Set α) Unit (Set α)}

theorem sent_step (replica : Replica σ V M D) (network : Network ι σ M D) (event : Event ι V) :
    ∃ more, (step replica network event).sent = network.sent ++ more := by
  cases event with
  | learn peer news => exact ⟨[], by simp [step]⟩
  | summarize peer => exact ⟨_, rfl⟩
  | answer peer number =>
    simp only [step]
    split
    · exact ⟨_, rfl⟩
    · exact ⟨[], by simp⟩
  | deliver number =>
    simp only [step]
    split <;> exact ⟨[], by simp⟩

theorem sent_run (replica : Replica σ V M D) (network : Network ι σ M D)
    (events : List (Event ι V)) {number : Nat} {message : Message ι M D}
    (there : network.sent[number]? = some message) :
    (run replica network events).sent[number]? = some message := by
  induction events generalizing network with
  | nil => exact there
  | cons event rest ih =>
    apply ih
    obtain ⟨more, same⟩ := sent_step replica network event
    rw [same, List.getElem?_append_left (List.getElem?_eq_some_iff.mp there).1]
    exact there

theorem known_step (event : Event ι (Set α)) (peer : ι) :
    known.state peer ⊆ (step (remember α) known event).state peer := by
  have updated (receiver : ι) (news : Set α) : known.state peer ⊆
      Function.update known.state receiver (known.state receiver ∪ news) peer := by
    by_cases same : peer = receiver
    · subst same
      simp
    · rw [Function.update_of_ne same]
  cases event with
  | learn receiver news => exact updated receiver news
  | summarize asker => exact subset_rfl
  | answer sender number =>
    simp only [step]
    split <;> exact subset_rfl
  | deliver number =>
    simp only [step]
    split
    · exact updated _ _
    · exact subset_rfl

theorem known_run (known : Network ι (Set α) Unit (Set α)) (events : List (Event ι (Set α)))
    (peer : ι) : known.state peer ⊆ (run (remember α) known events).state peer := by
  induction events generalizing known with
  | nil => exact subset_rfl
  | cons event rest ih => exact (known_step event peer).trans (ih _)

/-- All that is known somewhere, in a state or in a message under way, stays within what was known
    at first and the news. -/
def Within (all : Set α) (known : Network ι (Set α) Unit (Set α)) : Prop :=
  (∀ peer, known.state peer ⊆ all) ∧
    ∀ receiver told, .delta receiver told ∈ known.sent → told ⊆ all

theorem Within.step {all : Set α} (within : Within all known) {event : Event ι (Set α)}
    (news : ∀ peer told, event = .learn peer told → told ⊆ all) :
    Within all (Gossip.step (remember α) known event) := by
  have updated (receiver : ι) (told : Set α) (inside : told ⊆ all) (peer : ι) :
      Function.update known.state receiver (known.state receiver ∪ told) peer ⊆ all := by
    by_cases same : peer = receiver
    · subst same
      simpa using ⟨within.1 peer, inside⟩
    · rw [Function.update_of_ne same]
      exact within.1 peer
  cases event with
  | learn peer told => exact ⟨updated peer told (news peer told rfl), within.2⟩
  | summarize peer =>
    refine ⟨within.1, ?_⟩
    intro receiver told member
    simp only [Gossip.step, List.mem_append, List.mem_singleton, reduceCtorEq, or_false] at member
    exact within.2 receiver told member
  | answer peer number =>
    simp only [Gossip.step]
    split
    · refine ⟨within.1, ?_⟩
      intro receiver told member
      rcases List.mem_append.mp member with old | new
      · exact within.2 receiver told old
      · simp only [List.mem_singleton, Message.delta.injEq] at new
        exact new.2 ▸ within.1 peer
    · exact within
  | deliver number =>
    simp only [Gossip.step]
    split
    · rename_i receiver told found
      exact ⟨updated receiver told (within.2 receiver told (List.mem_of_getElem? found)), within.2⟩
    · exact within

theorem Within.run {all : Set α} (within : Within all known) (events : List (Event ι (Set α)))
    (news : ∀ peer told, .learn peer told ∈ events → told ⊆ all) :
    Within all (Gossip.run (remember α) known events) := by
  induction events generalizing known with
  | nil => exact within
  | cons event rest ih =>
    refine ih (within.step ?_) fun peer told member => news peer told (List.mem_cons_of_mem _ member)
    rintro peer told rfl
    exact news peer told (List.mem_cons_self ..)

/-- What is under way was known to whoever sent it, and still is. -/
theorem within_states_run (known : ι → Set α) (events : List (Event ι (Set α))) :
    Within (⋃ peer, (Gossip.run (remember α) (start known) events).state peer)
      (Gossip.run (remember α) (start known) events) := by
  induction events using List.reverseRecOn with
  | nil =>
    refine ⟨fun peer => Set.subset_iUnion _ peer, ?_⟩
    intro receiver told member
    cases member
  | append_singleton events event ih =>
    refine ⟨fun peer => Set.subset_iUnion _ peer, ?_⟩
    rw [run_append]
    have wider : (⋃ peer, (Gossip.run (remember α) (start known) events).state peer) ⊆
        ⋃ peer, (Gossip.run (remember α) (Gossip.run (remember α) (start known) events)
          [event]).state peer := Set.iUnion_mono fun peer => known_run _ [event] peer
    intro receiver told member
    have old (there : Message.delta receiver told ∈ (Gossip.run (remember α) (start known) events).sent) :
        told ⊆ ⋃ peer, (Gossip.run (remember α) (Gossip.run (remember α) (start known) events)
          [event]).state peer := (ih.2 receiver told there).trans wider
    change Message.delta receiver told ∈
      (Gossip.step (remember α) (Gossip.run (remember α) (start known) events) event).sent at member
    cases event with
    | learn peer news => exact old member
    | summarize peer =>
      simp only [Gossip.step, List.mem_append, List.mem_singleton, reduceCtorEq, or_false] at member
      exact old member
    | answer peer number =>
      simp only [Gossip.step] at member
      split at member
      · rcases List.mem_append.mp member with there | new
        · exact old there
        · simp only [List.mem_singleton, Message.delta.injEq] at new
          rw [new.2]
          exact (Set.subset_iUnion _ peer).trans wider
      · exact old member
    | deliver number =>
      simp only [Gossip.step] at member
      split at member <;> exact old member

end Remembering

/-- `sender` answered a summary of `receiver` after the events `before`, and the answer arrived. -/
def Heard (replica : Replica σ V M D) (network : Network ι σ M D) (events : List (Event ι V))
    (sender receiver : ι) : Prop :=
  ∃ before number between after summary,
    events = before ++ .answer sender number :: (between ++
      .deliver (run replica network before).sent.length :: after) ∧
    (run replica network before).sent[number]? = some (.summary receiver summary)

/-- Whoever was heard told all it knew at the start. -/
theorem known_of_heard {known : Network ι (Set α) Unit (Set α)} {events : List (Event ι (Set α))}
    {sender receiver : ι} (heard : Heard (remember α) known events sender receiver) :
    known.state sender ⊆ (run (remember α) known events).state receiver := by
  obtain ⟨before, number, between, after, summary, rfl, asked⟩ := heard
  rw [run_append]
  set reached := run (remember α) known before with reached_eq
  change _ ⊆ (run (remember α) (step (remember α) reached (.answer sender number))
    (between ++ .deliver reached.sent.length :: after)).state receiver
  set answered := step (remember α) reached (.answer sender number) with answered_eq
  have posted : answered.sent[reached.sent.length]? = some (.delta receiver (reached.state sender)) := by
    simp [answered_eq, step, asked, remember]
  rw [run_append]
  change _ ⊆ (run (remember α) (step (remember α) (run (remember α) answered between)
    (.deliver reached.sent.length)) after).state receiver
  have arrived : reached.state sender ⊆ (step (remember α) (run (remember α) answered between)
      (.deliver reached.sent.length)).state receiver := by
    simp [step, sent_run _ _ between posted, remember]
  exact ((known_run known before sender).trans (reached_eq ▸ arrived)).trans (known_run _ after receiver)

/-- The replica keeps the greatest of all it took in: `value` is what a state holds, `offers` what
    news puts forward, `shown` and `carried` what a summary and a delta stand for. -/
structure KeepsGreatest (replica : Replica σ V M D) (α : Type) [LinearOrder α] where
  value : σ → Option α
  offers : V → List α
  shown : M → Option α
  carried : D → Option α
  value_learn : ∀ state news,
    value (replica.learn state news) = keepGreatest (value state) (offers news)
  shown_summarize : ∀ state, shown (replica.summarize state) = value state
  carried_answer : ∀ state summary,
    carried (replica.answer state summary) = owed (value state) (shown summary)
  value_absorb : ∀ state delta,
    value (replica.absorb state delta) = keepGreatest (value state) (carried delta).toList

section Greatest

variable [LinearOrder α] {replica : Replica σ V M D} (keeps : KeepsGreatest replica α)

def Holds (held : Option α) (known : Set α) : Prop :=
  (known = ∅ → held = none) ∧ (known.Nonempty → ∃ value, held = some value ∧ IsGreatest known value)

theorem Holds.eq {held other : Option α} {known : Set α} (holds : Holds held known)
    (also : Holds other known) : held = other := by
  rcases known.eq_empty_or_nonempty with empty | nonempty
  · rw [holds.1 empty, also.1 empty]
  · obtain ⟨value, rfl, greatest⟩ := holds.2 nonempty
    obtain ⟨same, rfl, alsoGreatest⟩ := also.2 nonempty
    rw [greatest.unique alsoGreatest]

theorem Holds.of_eq_some {held : Option α} {known : Set α} {value : α} (holds : Holds held known)
    (some : held = some value) : IsGreatest known value := by
  rcases known.eq_empty_or_nonempty with empty | nonempty
  · rw [holds.1 empty] at some
    cases some
  · obtain ⟨same, found, greatest⟩ := holds.2 nonempty
    rw [some] at found
    exact Option.some.inj found ▸ greatest

theorem Holds.exists_ge {held : Option α} {known : Set α} {value : α} (holds : Holds held known)
    (member : value ∈ known) : ∃ top, held = some top ∧ value ≤ top := by
  obtain ⟨top, found, greatest⟩ := holds.2 ⟨value, member⟩
  exact ⟨top, found, greatest.2 member⟩

/-- What is kept of newcomers is the greatest of what was known and of what was told, if they were
    told and everything that was told loses to one of them or to something known. -/
theorem Holds.keepGreatest {held : Option α} {known told : Set α} {newcomers : List α}
    (holds : Holds held known) (offered : ∀ value ∈ newcomers, value ∈ told)
    (beaten : ∀ value ∈ told, ∃ top, (top ∈ newcomers ∨ top ∈ known) ∧ value ≤ top) :
    Holds (Joins.keepGreatest held newcomers) (known ∪ told) := by
  have within : everHeld held newcomers ⊆ known ∪ told := by
    rintro value (same | member)
    · exact .inl (holds.of_eq_some same).1
    · exact .inr (offered value member)
  have bounded : ∀ value ∈ known ∪ told, ∃ top ∈ everHeld held newcomers, value ≤ top := by
    have ofKnown : ∀ value ∈ known, ∃ top ∈ everHeld held newcomers, value ≤ top := by
      intro value member
      obtain ⟨top, found, above⟩ := holds.exists_ge member
      exact ⟨top, .inl found, above⟩
    rintro value (member | member)
    · exact ofKnown value member
    · obtain ⟨top, newcomer | old, above⟩ := beaten value member
      · exact ⟨top, .inr newcomer, above⟩
      · obtain ⟨higher, there, higherAbove⟩ := ofKnown top old
        exact ⟨higher, there, above.trans higherAbove⟩
  constructor
  · intro empty
    apply keepGreatest_eq_none.mpr
    rintro ⟨value, there⟩
    exact (Set.eq_empty_iff_forall_notMem.mp empty) value (within there)
  · rintro ⟨value, member⟩
    obtain ⟨top, there, -⟩ := bounded value member
    obtain ⟨greatest, found, isGreatest⟩ := keepGreatest_isGreatest held newcomers ⟨top, there⟩
    refine ⟨greatest, found, within isGreatest.1, ?_⟩
    intro other known
    obtain ⟨higher, inHeld, above⟩ := bounded other known
    exact above.trans (isGreatest.2 inHeld)

/-- How a message stands to the one that carries everything: a summary shows nothing its sender
    does not know by now, and a delta leaves out only what its receiver knows to be beaten. -/
inductive Carries (known : ι → Set α) : Message ι M D → Message ι Unit (Set α) → Prop
  | summary {asker : ι} {summary : M}
      (behind : ∀ value, keeps.shown summary = some value → value ∈ known asker) :
      Carries known (.summary asker summary) (.summary asker ())
  | delta {receiver : ι} {delta : D} {told : Set α}
      (offered : ∀ value, keeps.carried delta = some value → value ∈ told)
      (beaten : ∀ value ∈ told, ∃ top,
        (keeps.carried delta = some top ∨ top ∈ known receiver) ∧ value ≤ top) :
      Carries known (.delta receiver delta) (.delta receiver told)

omit [DecidableEq ι] in
theorem Carries.mono {known wider : ι → Set α} (more : ∀ peer, known peer ⊆ wider peer)
    {message : Message ι M D} {full : Message ι Unit (Set α)}
    (carries : Carries keeps known message full) : Carries keeps wider message full := by
  cases carries with
  | summary behind => exact .summary fun value shown => more _ (behind value shown)
  | delta offered beaten =>
    refine .delta offered ?_
    intro value member
    obtain ⟨top, source, above⟩ := beaten value member
    exact ⟨top, source.imp_right fun inside => more _ inside, above⟩

/-- Every state holds the greatest of what is known there, and every message carries that. -/
structure Tracks (network : Network ι σ M D) (known : Network ι (Set α) Unit (Set α)) : Prop where
  state : ∀ peer, Holds (keeps.value (network.state peer)) (known.state peer)
  sent : List.Forall₂ (Carries keeps known.state) network.sent known.sent

omit [DecidableEq ι] in
theorem Tracks.start {state : ι → σ} {known : ι → Set α}
    (holds : ∀ peer, Holds (keeps.value (state peer)) (known peer)) :
    Tracks keeps (Gossip.start state) (Gossip.start known) := ⟨holds, .nil⟩

theorem getElem?_forall₂ {β γ : Type} {r : β → γ → Prop} {left : List β} {right : List γ}
    (related : List.Forall₂ r left right) (number : Nat) :
    (left[number]? = none ∧ right[number]? = none) ∨
      ∃ a b, left[number]? = some a ∧ right[number]? = some b ∧ r a b := by
  induction related generalizing number with
  | nil => exact .inl ⟨rfl, rfl⟩
  | cons first _ ih =>
    cases number with
    | zero => exact .inr ⟨_, _, rfl, rfl, first⟩
    | succ number => simpa using ih number

variable {network : Network ι σ M D} {known : Network ι (Set α) Unit (Set α)}

/-- What a peer's new state and new knowledge have to be like for it alone to change. -/
theorem Tracks.update (tracks : Tracks keeps network known) (peer : ι) {next : σ} {told : Set α}
    (holds : Holds (keeps.value next) (known.state peer ∪ told)) :
    Tracks keeps { network with state := Function.update network.state peer next }
      { known with state := Function.update known.state peer (known.state peer ∪ told) } := by
  constructor
  · intro other
    by_cases same : other = peer
    · subst same
      simpa using holds
    · simpa [Function.update_of_ne same] using tracks.state other
  · refine tracks.sent.imp fun _ _ => Carries.mono keeps ?_
    intro other
    by_cases same : other = peer
    · subst same
      simp
    · simp [Function.update_of_ne same]

omit [DecidableEq ι] in
theorem Tracks.post (tracks : Tracks keeps network known) {message : Message ι M D}
    {full : Message ι Unit (Set α)} (carries : Carries keeps known.state message full) :
    Tracks keeps { network with sent := network.sent ++ [message] }
      { known with sent := known.sent ++ [full] } :=
  ⟨tracks.state, List.rel_append tracks.sent (.cons carries .nil)⟩

/-- One event keeps the network in step with the one that forgets nothing. -/
theorem Tracks.step (tracks : Tracks keeps network known) (event : Event ι V) :
    Tracks keeps (Gossip.step replica network event)
      (Gossip.step (remember α) known (event.map fun news => {value | value ∈ keeps.offers news})) := by
  cases event with
  | learn peer news =>
    apply tracks.update
    rw [keeps.value_learn]
    exact (tracks.state peer).keepGreatest (fun _ member => member)
      fun value member => ⟨value, .inl member, le_rfl⟩
  | summarize peer =>
    apply tracks.post
    refine .summary ?_
    intro value shown
    rw [keeps.shown_summarize] at shown
    exact ((tracks.state peer).of_eq_some shown).1
  | answer peer number =>
    simp only [Gossip.step, Event.map]
    rcases getElem?_forall₂ tracks.sent number with ⟨none, fullNone⟩ | ⟨_, _, some, fullSome, carries⟩
    · rw [none, fullNone]
      exact tracks
    · rw [some, fullSome]
      cases carries with
      | delta => exact tracks
      | @summary asker summary behind =>
        apply tracks.post
        refine .delta ?_ ?_
        · intro value owes
          rw [keeps.carried_answer] at owes
          exact ((tracks.state peer).of_eq_some (owed_eq_some.mp owes).1).1
        · intro value member
          obtain ⟨top, found, above⟩ := (tracks.state peer).exists_ge member
          -- Either the top is sent, or the summary showed something at least as great.
          cases owes : owed (keeps.value (network.state peer)) (keeps.shown summary) with
          | some sent =>
            obtain ⟨same, -⟩ := owed_eq_some.mp owes
            rw [found] at same
            exact ⟨top, .inl (by rw [keeps.carried_answer, owes, ← same]), above⟩
          | none =>
            obtain ⟨other, shown, higher⟩ := owed_eq_none.mp owes top found
            exact ⟨other, .inr (behind other shown), above.trans higher⟩
  | deliver number =>
    simp only [Gossip.step, Event.map]
    rcases getElem?_forall₂ tracks.sent number with ⟨none, fullNone⟩ | ⟨_, _, some, fullSome, carries⟩
    · rw [none, fullNone]
      exact tracks
    · rw [some, fullSome]
      cases carries with
      | summary => exact tracks
      | @delta receiver delta told offered beaten =>
        apply tracks.update
        rw [keeps.value_absorb]
        refine (tracks.state receiver).keepGreatest ?_ ?_
        · intro value member
          exact offered value (Option.mem_toList.mp member)
        · intro value member
          obtain ⟨top, source, above⟩ := beaten value member
          exact ⟨top, source.imp_left fun sent => Option.mem_toList.mpr sent, above⟩

theorem Tracks.run (tracks : Tracks keeps network known) (events : List (Event ι V)) :
    Tracks keeps (Gossip.run replica network events) (Gossip.run (remember α) known
      (events.map (Event.map fun news => {value | value ∈ keeps.offers news}))) := by
  induction events generalizing network known with
  | nil => exact tracks
  | cons event rest ih => exact ih (tracks.step keeps event)

theorem Heard.remembered (tracks : Tracks keeps network known) {events : List (Event ι V)}
    {sender receiver : ι} (heard : Heard replica network events sender receiver) :
    Heard (remember α) known
      (events.map (Event.map fun news => {value | value ∈ keeps.offers news})) sender receiver := by
  obtain ⟨before, number, between, after, summary, rfl, asked⟩ := heard
  have reached := tracks.run keeps before
  refine ⟨before.map (Event.map fun news => {value | value ∈ keeps.offers news}), number,
    between.map (Event.map fun news => {value | value ∈ keeps.offers news}),
    after.map (Event.map fun news => {value | value ∈ keeps.offers news}), (), ?_, ?_⟩
  · simp only [List.map_append, List.map_cons, Event.map, ← reached.sent.length_eq]
  · rcases getElem?_forall₂ reached.sent number with ⟨none, -⟩ | ⟨_, full, some, fullSome, carries⟩
    · rw [asked] at none
      cases none
    · obtain rfl := Option.some.inj (asked.symm.trans some)
      cases carries
      exact fullSome

end Greatest

end FreenetMigrate.Gossip
