import FreenetMigrate.Pointer.Author
import FreenetMigrate.Pointer.Outcome
import FreenetMigrate.Pointer.Peers

namespace FreenetMigrate.PointerNetwork

open Pointer PointerClient Gossip Joins
open PointerContract (UpdateData held peer signRecord)

variable {SigningKey VerifyingKey ι κ : Type} [Ed25519 VerifyingKey] [Signer SigningKey VerifyingKey]
  [DecidableEq ι] [DecidableEq κ]

structure World (ι κ : Type) where
  network : Network ι Bytes Bytes Bytes
  floors : κ → PointerFloor
  signed : List (UInt32 × Fixed 32)

variable (VerifyingKey) in
/-- Bytes that anyone may send: whatever verifies in them is what the author signed, since nobody
    else can make a record that does. -/
def Authentic (params : Bytes) (signed : List (UInt32 × Fixed 32)) (bytes : Bytes) : Prop :=
  ∀ record, held VerifyingKey params bytes = some record → (record.version, record.codeHash) ∈ signed

def AuthenticEvent (VerifyingKey : Type) [Ed25519 VerifyingKey] (params : Bytes)
    (signed : List (UInt32 × Fixed 32)) : Event ι (List UpdateData) → Prop
  | .learn _ data => ∀ update ∈ data, ∀ bytes, update.payload = some bytes →
      Authentic VerifyingKey params signed bytes
  | _ => True

def AuthenticAnswer (VerifyingKey : Type) [Ed25519 VerifyingKey] (params : Bytes)
    (signed : List (UInt32 × Fixed 32)) : PointerFetch → Prop
  | .state bytes => Authentic VerifyingKey params signed bytes
  | _ => True

/-- One thing that can happen: the author signs a version, peers exchange records or are sent some,
    a peer's state is replaced by another one, or a consumer resolves and keeps the next floor. -/
inductive Step (SigningKey : Type) [Signer SigningKey VerifyingKey]
    (contractId : Bytes → ContractInstanceId) (authorVk : VerifyingKey) (appId params : Bytes) :
    World ι κ → World ι κ → Prop
  | sign (world : World ι κ) (signingKey : SigningKey) (version : UInt32) (codeHash : Fixed 32)
      (record : PointerRecord) (own : Signer.verifyingKey signingKey = authorVk)
      (signed : signRecord VerifyingKey signingKey params version codeHash = .ok record) :
      Step SigningKey contractId authorVk appId params world
        { world with signed := (version, codeHash) :: world.signed }
  | gossip (world : World ι κ) (event : Event ι (List UpdateData))
      (authentic : AuthenticEvent VerifyingKey params world.signed event) :
      Step SigningKey contractId authorVk appId params world
        { world with network := step (peer VerifyingKey params) world.network event }
  | replace (world : World ι κ) (i : ι) (bytes : Bytes)
      (authentic : Authentic VerifyingKey params world.signed bytes) :
      Step SigningKey contractId authorVk appId params world
        { world with network :=
          { world.network with state := Function.update world.network.state i bytes } }
  | resolve (world : World ι κ) (consumer : κ) (resolution : Resolution) (next : PointerFloor)
      (authentic : AuthenticAnswer VerifyingKey params world.signed resolution.answer)
      (kept : resolveNext contractId authorVk appId (world.floors consumer) resolution = .ok next) :
      Step SigningKey contractId authorVk appId params world
        { world with floors := Function.update world.floors consumer next }

structure Initial (VerifyingKey : Type) [Ed25519 VerifyingKey] (params : Bytes) (world : World ι κ) :
    Prop where
  unusable : ∀ i, held VerifyingKey params (world.network.state i) = none
  silent : world.network.sent = []
  fresh : ∀ consumer, world.floors consumer = .neverResolved
  unsigned : world.signed = []

abbrev Steps (SigningKey : Type) [Signer SigningKey VerifyingKey]
    (contractId : Bytes → ContractInstanceId) (authorVk : VerifyingKey) (appId params : Bytes) :
    World ι κ → World ι κ → Prop :=
  Relation.ReflTransGen (Step SigningKey contractId authorVk appId params)

variable {contractId : Bytes → ContractInstanceId} {authorVk : VerifyingKey} {appId params : Bytes}
  {signed : List (UInt32 × Fixed 32)}

section Authenticity

theorem Authentic.mono {more : List (UInt32 × Fixed 32)} {bytes : Bytes}
    (authentic : Authentic VerifyingKey params signed bytes) (grown : signed ⊆ more) :
    Authentic VerifyingKey params more bytes :=
  fun record holds => grown (authentic record holds)

variable {parsed : PointerContract.PointerParams VerifyingKey}

theorem authentic_store (accepted : PointerContract.PointerParams.parse VerifyingKey params = .ok parsed)
    {state : Bytes} {data : List UpdateData} (old : Authentic VerifyingKey params signed state)
    (new : ∀ update ∈ data, ∀ bytes, update.payload = some bytes →
      Authentic VerifyingKey params signed bytes) :
    Authentic VerifyingKey params signed (PointerContract.store VerifyingKey params state data) := by
  intro record holds
  rw [PointerContract.held_store_offered accepted] at holds
  rcases mem_of_keepGreatest holds with before | newcomer
  · exact old record before
  · unfold PointerContract.offered at newcomer
    split at newcomer
    · obtain ⟨update, member, bytes, payload, verified⟩ := PointerContract.mem_candidates.mp newcomer
      exact new update member bytes payload record verified
    · cases newcomer

theorem authentic_answer (accepted : PointerContract.PointerParams.parse VerifyingKey params = .ok parsed)
    {state : Bytes} (summary : Bytes) (authentic : Authentic VerifyingKey params signed state) :
    Authentic VerifyingKey params signed ((peer VerifyingKey params).answer state summary) := by
  intro record holds
  have carried := (PointerContract.peer_keepsGreatest accepted).carried_answer state summary
  exact authentic record (owed_eq_some.mp (carried.symm.trans holds)).1

end Authenticity

/-- What holds in every world: peers and deltas have records of the author only, and a floor stands
    for one of them. -/
structure Sound (authorVk : VerifyingKey) (params : Bytes) (world : World ι κ) : Prop where
  peers : ∀ i, Authentic VerifyingKey params world.signed (world.network.state i)
  deltas : ∀ receiver delta, .delta receiver delta ∈ world.network.sent →
    Authentic VerifyingKey params world.signed delta
  floors : ∀ consumer, ∃ best, world.floors consumer = floorFor best ∧
    ∀ record, best = some record → verify record params authorVk = .ok () ∧
      (record.version, record.codeHash) ∈ world.signed

omit [DecidableEq ι] [DecidableEq κ] in
theorem Initial.sound {world : World ι κ} (initial : Initial VerifyingKey params world) :
    Sound authorVk params world where
  peers i record holds := by
    rw [initial.unusable] at holds
    cases holds
  deltas receiver delta member := by
    rw [initial.silent] at member
    cases member
  floors consumer := ⟨none, initial.fresh consumer, by simp⟩

/-- The later floor has a record, and the earlier one's is no newer and wins no tie against it. -/
def NotOlder (before after : PointerFloor) : Prop :=
  ∀ codeHash, before.codeHash = some codeHash → ∃ next, after.codeHash = some next ∧
    (before.version < after.version ∨ (before.version = after.version ∧ next ≤ codeHash))

theorem NotOlder.refl (floor : PointerFloor) : NotOlder floor floor :=
  fun codeHash found => ⟨codeHash, found, .inr ⟨rfl, le_rfl⟩⟩

theorem NotOlder.trans {first second third : PointerFloor} (before : NotOlder first second)
    (after : NotOlder second third) : NotOlder first third := by
  intro codeHash found
  obtain ⟨next, secondFound, step⟩ := before codeHash found
  obtain ⟨last, thirdFound, further⟩ := after next secondFound
  refine ⟨last, thirdFound, ?_⟩
  rcases step with newer | ⟨same, wins⟩
  · rcases further with evenNewer | ⟨still, -⟩
    · exact .inl (newer.trans evenNewer)
    · exact .inl (still ▸ newer)
  · rcases further with newer | ⟨still, winsAgain⟩
    · exact .inl (same ▸ newer)
    · exact .inr ⟨same.trans still, winsAgain.trans wins⟩

theorem notOlder_floorFor (best : Option PointerRecord) (newcomers : List PointerRecord) :
    NotOlder (floorFor best) (floorFor (keepGreatest best newcomers)) := by
  cases best with
  | none =>
    intro codeHash found
    cases found
  | some record =>
    obtain ⟨greatest, kept, isGreatest⟩ := keepGreatest_some record newcomers
    rw [kept]
    intro codeHash found
    obtain rfl := Option.some.inj found
    exact ⟨greatest.codeHash, rfl, le_floorOf (isGreatest.2 (.inl rfl)) rfl⟩

theorem tombstone_le (codeHash : Fixed 32) : TOMBSTONE_CODE_HASH ≤ codeHash := by
  have least := not_lt_replicate_zero codeHash.toList
  rw [codeHash.length_toList] at least
  exact not_lt.mp least

/-- The withdrawal's hash loses no tie: it goes only for a higher version. -/
theorem NotOlder.withdrawn {before after : PointerFloor} (notOlder : NotOlder before after)
    (withdrawn : before.isWithdrawn = true) : after = before ∨ before.version < after.version := by
  have tombstone : before.codeHash = some TOMBSTONE_CODE_HASH := by
    simpa [PointerFloor.isWithdrawn] using withdrawn
  obtain ⟨next, found, newer | ⟨same, wins⟩⟩ := notOlder _ tombstone
  · exact .inr newer
  · have least : next = TOMBSTONE_CODE_HASH := wins.antisymm (tombstone_le next)
    left
    obtain ⟨version, hash⟩ := before
    obtain ⟨laterVersion, laterHash⟩ := after
    simp only at tombstone found same
    rw [tombstone, found, same, least]

section Safety

theorem parse_of_built [LawfulEd25519 VerifyingKey] (built : pointerParams authorVk appId = .ok params) :
    PointerContract.PointerParams.parse VerifyingKey params = .ok ⟨authorVk, appId⟩ := by
  rw [PointerContract.pointerParams_eq, PointerContract.mapError_eq_ok] at built
  exact PointerContract.parse_of_encode built

theorem certified_authentic [LawfulEd25519 VerifyingKey]
    (built : pointerParams authorVk appId = .ok params) {answer : PointerFetch} {record : PointerRecord}
    (authentic : AuthenticAnswer VerifyingKey params signed answer)
    (found : certified params authorVk answer = some record) :
    (record.version, record.codeHash) ∈ signed := by
  obtain ⟨rfl, -⟩ := certified_eq_some.mp found
  rw [PointerContract.certified_eq_held (parse_of_built built)] at found
  exact authentic record found

theorem resolveNext_floorFor (built : pointerParams authorVk appId = .ok params)
    {best : Option PointerRecord}
    (verified : ∀ record, best = some record → verify record params authorVk = .ok ())
    (resolution : Resolution) :
    resolveNext contractId authorVk appId (floorFor best) resolution =
      .ok (floorFor (keepGreatest best (certified params authorVk resolution.answer).toList)) := by
  have all : resolveAll contractId authorVk appId (floorFor best) [resolution] = .ok _ :=
    resolveAll_floorFor built verified [resolution]
  have same : certifiedAll params authorVk [resolution] =
      (certified params authorVk resolution.answer).toList := by
    cases found : certified params authorVk resolution.answer <;> simp [certifiedAll, found]
  rw [resolveAll, List.foldlM_cons, same] at all
  cases first : resolveNext contractId authorVk appId (floorFor best) resolution with
  | error e =>
    rw [first] at all
    cases all
  | ok next =>
    rw [first] at all
    exact all

variable [LawfulEd25519 VerifyingKey] {world next : World ι κ}

omit [DecidableEq κ] in
theorem Sound.gossip (built : pointerParams authorVk appId = .ok params)
    (sound : Sound authorVk params world) {event : Event ι (List UpdateData)}
    (authentic : AuthenticEvent VerifyingKey params world.signed event) :
    Sound authorVk params
      { world with network := Gossip.step (peer VerifyingKey params) world.network event } := by
  have parses := parse_of_built built
  have stored (i : ι) (data : List UpdateData) (new : ∀ update ∈ data, ∀ bytes,
      update.payload = some bytes → Authentic VerifyingKey params world.signed bytes) (j : ι) :
      Authentic VerifyingKey params world.signed (Function.update world.network.state i
        (PointerContract.store VerifyingKey params (world.network.state i) data) j) := by
    by_cases same : j = i
    · subst same
      rw [Function.update_self]
      exact authentic_store parses (sound.peers j) new
    · rw [Function.update_of_ne same]
      exact sound.peers j
  cases event with
  | learn i data => exact ⟨stored i data authentic, sound.deltas, sound.floors⟩
  | summarize i =>
    refine ⟨sound.peers, ?_, sound.floors⟩
    intro receiver delta member
    simp only [step, List.mem_append, List.mem_singleton, reduceCtorEq, or_false] at member
    exact sound.deltas receiver delta member
  | answer i number =>
    simp only [step]
    split
    · refine ⟨sound.peers, ?_, sound.floors⟩
      intro receiver delta member
      rcases List.mem_append.mp member with old | new
      · exact sound.deltas receiver delta old
      · simp only [List.mem_singleton, Message.delta.injEq] at new
        exact new.2 ▸ authentic_answer parses _ (sound.peers i)
    · exact sound
  | deliver number =>
    simp only [step]
    split
    · rename_i receiver delta found
      refine ⟨stored receiver [.delta delta] ?_, sound.deltas, sound.floors⟩
      intro update member bytes payload
      obtain rfl := List.mem_singleton.mp member
      obtain rfl := Option.some.inj payload
      exact sound.deltas receiver delta (List.mem_of_getElem? found)
    · exact sound

omit [DecidableEq ι] in
theorem Sound.resolve (built : pointerParams authorVk appId = .ok params)
    (sound : Sound authorVk params world) {consumer : κ} {resolution : Resolution}
    {floor : PointerFloor} (authentic : AuthenticAnswer VerifyingKey params world.signed resolution.answer)
    (kept : resolveNext contractId authorVk appId (world.floors consumer) resolution = .ok floor) :
    Sound authorVk params { world with floors := Function.update world.floors consumer floor } := by
  refine ⟨sound.peers, sound.deltas, ?_⟩
  intro other
  by_cases same : other = consumer
  · subst same
    obtain ⟨best, stands, verified⟩ := sound.floors other
    rw [stands, resolveNext_floorFor built fun record found => (verified record found).1] at kept
    refine ⟨keepGreatest best (certified params authorVk resolution.answer).toList,
      by simp only [Function.update_self, ← Except.ok.inj kept], ?_⟩
    intro record found
    rcases mem_of_keepGreatest found with before | newcomer
    · exact verified record before
    · have certifies := Option.mem_toList.mp newcomer
      exact ⟨(certified_eq_some.mp certifies).2, certified_authentic built authentic certifies⟩
  · simp only [Function.update_of_ne same]
    exact sound.floors other

theorem Sound.step (built : pointerParams authorVk appId = .ok params)
    (sound : Sound authorVk params world)
    (step : Step SigningKey contractId authorVk appId params world next) :
    Sound authorVk params next := by
  cases step with
  | sign key version codeHash record own signed =>
    refine ⟨fun i => (sound.peers i).mono (List.subset_cons_self ..),
      fun receiver delta member =>
        (sound.deltas receiver delta member).mono (List.subset_cons_self ..), ?_⟩
    intro consumer
    obtain ⟨best, stands, verified⟩ := sound.floors consumer
    exact ⟨best, stands, fun record found =>
      ⟨(verified record found).1, List.mem_cons_of_mem _ (verified record found).2⟩⟩
  | gossip event authentic => exact sound.gossip built authentic
  | replace i bytes authentic =>
    refine ⟨?_, sound.deltas, sound.floors⟩
    intro j
    by_cases same : j = i
    · subst same
      simp only [Function.update_self]
      exact authentic
    · simp only [Function.update_of_ne same]
      exact sound.peers j
  | resolve consumer resolution floor authentic kept => exact sound.resolve built authentic kept

theorem Sound.steps (built : pointerParams authorVk appId = .ok params)
    (sound : Sound authorVk params world)
    (steps : Steps SigningKey contractId authorVk appId params world next) :
    Sound authorVk params next := by
  induction steps with
  | refl => exact sound
  | tail _ last ih => exact ih.step built last

/-- No consumer's floor ever goes back. -/
theorem Sound.notOlder_steps (built : pointerParams authorVk appId = .ok params)
    (sound : Sound authorVk params world)
    (steps : Steps SigningKey contractId authorVk appId params world next) (consumer : κ) :
    NotOlder (world.floors consumer) (next.floors consumer) := by
  induction steps with
  | refl => exact .refl _
  | tail before last ih =>
    refine ih.trans ?_
    have reached := sound.steps built before
    cases last with
    | sign => exact .refl _
    | gossip => exact .refl _
    | replace => exact .refl _
    | resolve other resolution floor authentic kept =>
      by_cases same : consumer = other
      · subst same
        obtain ⟨best, stands, verified⟩ := reached.floors consumer
        rw [stands, resolveNext_floorFor built fun record found => (verified record found).1] at kept
        simp only [Function.update_self]
        rw [stands, ← Except.ok.inj kept]
        exact notOlder_floorFor best _
      · simp only [Function.update_of_ne same]
        exact .refl _

def Resolves (contractId : Bytes → ContractInstanceId) (authorVk : VerifyingKey) (appId params : Bytes)
    (world : World ι κ) (consumer : κ) (resolution : Resolution) (outcome : PointerOutcome) : Prop :=
  AuthenticAnswer VerifyingKey params world.signed resolution.answer ∧
    ∃ floor, floorBefore resolution.restarted (world.floors consumer) = .ok floor ∧
      resolve contractId authorVk appId floor resolution.answer = .ok (some (.ok outcome))

omit [DecidableEq ι] [DecidableEq κ] in
/-- An outcome is about a record the author signed, or says that there was none to be had. -/
theorem Sound.outcome_cases (built : pointerParams authorVk appId = .ok params)
    (sound : Sound authorVk params world) {consumer : κ} {resolution : Resolution}
    {outcome : PointerOutcome}
    (resolves : Resolves contractId authorVk appId params world consumer resolution outcome) :
    (∃ best record, world.floors consumer = floorFor best ∧
      (∀ old, best = some old → (old.version, old.codeHash) ∈ world.signed) ∧
      certified params authorVk resolution.answer = some record ∧
      (record.version, record.codeHash) ∈ world.signed ∧
      verify record params authorVk = .ok () ∧
      outcome = (armed contractId authorVk params (floorFor best)).order record) ∨
    outcome = .unavailable ∨ outcome = .neverPublished ∧ world.floors consumer = .neverResolved := by
  obtain ⟨authentic, floor, before, result⟩ := resolves
  obtain ⟨best, stands, verified⟩ := sound.floors consumer
  have same : floorBefore resolution.restarted (floorFor best) = .ok (floorFor best) := by
    unfold floorBefore
    split
    · exact rebuild_floorFor fun record found => (verified record found).1
    · rfl
  rw [stands, same] at before
  obtain rfl := Except.ok.inj before
  rw [resolve_eq built, Except.ok.injEq, Option.some.injEq] at result
  rcases verdict_ordered result with rfl | rfl | ⟨bytes, record, answered, decoded, accepted, rfl⟩
  · exact .inr (.inl rfl)
  · have permitted : permitsFallback (verdict (armed contractId authorVk params (floorFor best))
        resolution.answer) = true := by
      rw [result]
      rfl
    obtain ⟨-, never⟩ := (permitsFallback_verdict _ _).mp permitted
    refine .inr (.inr ⟨rfl, ?_⟩)
    cases best with
    | none => exact stands
    | some record => exact absurd (.inl never) (version_of_verify (verified record rfl).1)
  · have certifies : certified params authorVk resolution.answer = some record :=
      certified_eq_some.mpr ⟨by rw [answered, decode_eq_ok.mp decoded], accepted⟩
    exact .inl ⟨best, record, stands, fun old found => (verified old found).2, certifies,
      certified_authentic built authentic certifies, accepted, rfl⟩

omit [LawfulEd25519 VerifyingKey] in
theorem nextFloor_of_pointer {resolver : PointerResolver VerifyingKey} {record : PointerRecord}
    {p : ResolvedPointer} (verified : verify record params authorVk = .ok ())
    (published : (resolver.order record).pointer = some p) :
    (resolver.order record).nextFloor = some (floorOf record) := by
  have adopted := nextFloor_adopt verified
  rcases order_cases resolver record with order | order | order | order <;> rw [order] at published ⊢
  · exact adopted
  · exact (nextFloor_unchanged record).trans adopted
  · cases published
  · cases published

/-- Safety of a pointer's network. Whatever the peers exchange or are sent, whatever they lose, and
    whatever a consumer is answered: peers hold and consumers trust only what the author signed, a
    pointer handed out is not older than the consumer's floor, floors never go back, a withdrawal
    yields to a higher version only, and the fallback is for consumers that never resolved. -/
theorem pointer_network_safe (built : pointerParams authorVk appId = .ok params)
    (first world : World ι κ) (initial : Initial VerifyingKey params first)
    (steps : Steps SigningKey contractId authorVk appId params first world) :
    (∀ i record, held VerifyingKey params (world.network.state i) = some record →
      (record.version, record.codeHash) ∈ world.signed) ∧
    (∀ consumer, world.floors consumer = .neverResolved ∨ ∃ version codeHash,
      (version, codeHash) ∈ world.signed ∧ world.floors consumer = ⟨version, some codeHash⟩) ∧
    (∀ consumer resolution outcome,
      Resolves contractId authorVk appId params world consumer resolution outcome →
      (∀ p, outcome.pointer = some p → (p.version, p.codeHash) ∈ world.signed ∧
        p.codeHash ≠ TOMBSTONE_CODE_HASH ∧
        NotOlder (world.floors consumer) ⟨p.version, some p.codeHash⟩) ∧
      (outcome.mayUseBakedInFallback = true → world.floors consumer = .neverResolved)) ∧
    ∀ later, Steps SigningKey contractId authorVk appId params world later → ∀ consumer,
      NotOlder (world.floors consumer) (later.floors consumer) ∧
      ((world.floors consumer).isWithdrawn = true →
        later.floors consumer = world.floors consumer ∨
          (world.floors consumer).version < (later.floors consumer).version) := by
  have sound := Sound.steps built initial.sound steps
  refine ⟨sound.peers, ?_, ?_, ?_⟩
  · intro consumer
    obtain ⟨best, stands, verified⟩ := sound.floors consumer
    cases best with
    | none => exact .inl stands
    | some record => exact .inr ⟨record.version, record.codeHash, (verified record rfl).2, stands⟩
  · intro consumer resolution outcome resolves
    rcases sound.outcome_cases built resolves with
      ⟨best, record, stands, -, -, signed, verified, rfl⟩ | rfl | ⟨rfl, never⟩
    · constructor
      · intro p published
        obtain ⟨rfl, alive⟩ := order_published published
        have kept := persist_order (armed contractId authorVk params (floorFor best)) rfl verified
        rw [persist, nextFloor_of_pointer verified published, Option.getD_some] at kept
        refine ⟨signed, alive, ?_⟩
        rw [stands]
        change NotOlder _ (floorOf record)
        rw [kept]
        exact notOlder_floorFor best [record]
      · intro permitted
        rw [order_fallback] at permitted
        cases permitted
    · constructor
      · intro p published
        cases published
      · intro permitted
        cases permitted
    · constructor
      · intro p published
        cases published
      · intro _
        exact never
  · intro later further consumer
    have notOlder := sound.notOlder_steps built further consumer
    exact ⟨notOlder, notOlder.withdrawn⟩

omit [LawfulEd25519 VerifyingKey] [Ed25519 VerifyingKey] in
/-- A competing record stands at the floor's version and loses to its hash. -/
theorem order_competing {resolver : PointerResolver VerifyingKey} {current record : PointerRecord}
    {version : UInt32} (floor : resolver.floor = floorOf current)
    (competing : resolver.order record = .competingRecord version) :
    record.version = current.version ∧ current.codeHash < record.codeHash := by
  have adopted : PointerResolver.adopt record ≠ .competingRecord version := by
    unfold PointerResolver.adopt
    split <;> simp
  have same : PointerResolver.unchanged record ≠ .competingRecord version := by
    unfold PointerResolver.unchanged
    split <;> simp
  simp only [PointerResolver.order, floor, floorOf] at competing
  split at competing
  · cases competing
  · exact absurd competing adopted
  · rename_i tie
    split at competing
    · exact absurd competing adopted
    · exact absurd competing same
    · rename_i loses
      exact ⟨compare_eq_iff_eq.mp tie, compare_gt_iff_gt.mp loses⟩

/-- Agreement. An author that never signs two hashes at one version is understood alike: peers and
    consumers at one version have one hash, and no consumer meets a competing record. -/
theorem one_hash_per_version (built : pointerParams authorVk appId = .ok params)
    (first world : World ι κ) (initial : Initial VerifyingKey params first)
    (steps : Steps SigningKey contractId authorVk appId params first world)
    (single : ∀ version codeHash other, (version, codeHash) ∈ world.signed →
      (version, other) ∈ world.signed → codeHash = other) :
    (∀ i j record other, held VerifyingKey params (world.network.state i) = some record →
      held VerifyingKey params (world.network.state j) = some other →
      record.version = other.version → record.codeHash = other.codeHash) ∧
    (∀ consumer other, (world.floors consumer).version = (world.floors other).version →
      world.floors consumer = world.floors other) ∧
    (∀ consumer i record, held VerifyingKey params (world.network.state i) = some record →
      (world.floors consumer).version = record.version →
      (world.floors consumer).codeHash = some record.codeHash) ∧
    ∀ consumer resolution outcome version,
      Resolves contractId authorVk appId params world consumer resolution outcome →
      outcome ≠ .competingRecord version := by
  have sound := Sound.steps built initial.sound steps
  have positive (i : ι) (record : PointerRecord)
      (holds : held VerifyingKey params (world.network.state i) = some record) : record.version ≠ 0 := by
    have verified := ((PointerContract.decodeVerified_eq_ok (parse_of_built built)).mp
      (PointerContract.held_eq_some.mp holds)).2
    exact (PointerContract.verify_eq_ok.mp verified).1
  refine ⟨?_, ?_, ?_, ?_⟩
  · intro i j record other holds also same
    exact single _ _ _ (sound.peers i record holds) (same ▸ sound.peers j other also)
  · intro consumer other same
    obtain ⟨best, stands, verified⟩ := sound.floors consumer
    obtain ⟨rival, otherStands, otherVerified⟩ := sound.floors other
    rw [stands, otherStands] at same ⊢
    cases best with
    | none =>
      cases rival with
      | none => rfl
      | some record =>
        exact absurd (.inl same.symm) (version_of_verify (otherVerified record rfl).1)
    | some record =>
      cases rival with
      | none => exact absurd (.inl same) (version_of_verify (verified record rfl).1)
      | some served =>
        have version : record.version = served.version := same
        have hash := single _ _ _ (verified record rfl).2 (version ▸ (otherVerified served rfl).2)
        simp only [floorFor, Option.elim_some, floorOf, version, hash]
  · intro consumer i record holds same
    obtain ⟨best, stands, verified⟩ := sound.floors consumer
    rw [stands] at same ⊢
    cases best with
    | none => exact absurd same.symm (positive i record holds)
    | some served =>
      have version : served.version = record.version := same
      have hash := single _ _ _ (verified served rfl).2 (version ▸ sound.peers i record holds)
      simp only [floorFor, Option.elim_some, floorOf, hash]
  · rintro consumer resolution outcome version resolves rfl
    rcases sound.outcome_cases built resolves with
      ⟨best, record, -, old, -, signed, -, competing⟩ | unavailable | ⟨never, -⟩
    · cases best with
      | none =>
        rw [PointerContract.order_neverResolved rfl] at competing
        unfold PointerResolver.adopt at competing
        split at competing <;> cases competing
      | some current =>
        obtain ⟨same, loses⟩ := order_competing rfl competing.symm
        have stored := old current rfl
        rw [← same] at stored
        exact absurd (single _ _ _ signed stored) loses.ne'
    · cases unavailable
    · cases never

end Safety

section

open PointerContract (VectorKey vectorAppId vectorParams vectorRecord)

inductive VectorSigner
  | author
  deriving DecidableEq

instance : Signer VectorSigner VectorKey where
  fromBytes _ := .author
  verifyingKey _ := .author
  sign _ _ := vectorRecord.signature

theorem signRecord_vector :
    signRecord VectorKey VectorSigner.author vectorParams 7 vectorRecord.codeHash = .ok vectorRecord :=
  PointerContract.signRecord_eq_ok.mpr ⟨by decide, by decide,
    ⟨_, PointerContract.parse_vectorParams⟩, rfl⟩

def vectorStart : World Unit Unit := ⟨start fun _ => [], fun _ => .neverResolved, []⟩

theorem vectorStart_initial : Initial VectorKey vectorParams vectorStart :=
  ⟨fun _ => PointerContract.held_nil, rfl, fun _ => rfl, rfl⟩

theorem vector_steps : ∃ world, Steps VectorSigner (fun _ => Fixed.zero 32) VectorKey.author
    vectorAppId vectorParams vectorStart world ∧
    held VectorKey vectorParams (world.network.state ()) = some vectorRecord ∧
    world.signed = [(7, vectorRecord.codeHash)] ∧ world.floors () = floorOf vectorRecord := by
  have authentic : Authentic VectorKey vectorParams [(7, vectorRecord.codeHash)] vectorRecord.encode := by
    intro record holds
    rw [PointerContract.held_vectorRecord] at holds
    obtain rfl := Option.some.inj holds
    exact List.mem_singleton_self _
  have certifies : certified vectorParams VectorKey.author (.state vectorRecord.encode) =
      some vectorRecord := certified_eq_some.mpr ⟨rfl, verify_vectorRecord⟩
  have kept : resolveNext (fun _ => Fixed.zero 32) VectorKey.author vectorAppId .neverResolved
      ⟨true, .state vectorRecord.encode⟩ = .ok (floorOf vectorRecord) := by
    have resolved : resolveNext (fun _ => Fixed.zero 32) VectorKey.author vectorAppId (floorFor none)
        ⟨true, .state vectorRecord.encode⟩ = .ok _ :=
      resolveNext_floorFor pointerParams_vector (by simp) _
    rw [certifies] at resolved
    exact resolved
  have told : AuthenticEvent VectorKey vectorParams [(7, vectorRecord.codeHash)]
      (.learn () [.delta vectorRecord.encode] : Event Unit (List UpdateData)) := by
    intro update member bytes payload
    obtain rfl := List.mem_singleton.mp member
    obtain rfl := Option.some.inj payload
    exact authentic
  let signed : World Unit Unit := { vectorStart with signed := [(7, vectorRecord.codeHash)] }
  let sent : World Unit Unit := { signed with
    network := step (peer VectorKey vectorParams) signed.network (.learn () [.delta vectorRecord.encode]) }
  let served : World Unit Unit := { sent with
    floors := Function.update sent.floors () (floorOf vectorRecord) }
  have steps : Steps VectorSigner (fun _ => Fixed.zero 32) VectorKey.author vectorAppId vectorParams
      vectorStart served := by
    refine ((Relation.ReflTransGen.refl.tail (b := vectorStart) (c := signed) ?_).tail
      (c := sent) ?_).tail ?_
    · exact .sign vectorStart .author 7 vectorRecord.codeHash vectorRecord rfl signRecord_vector
    · exact .gossip signed _ told
    · exact .resolve sent () ⟨true, .state vectorRecord.encode⟩ (floorOf vectorRecord) authentic kept
  refine ⟨served, steps, ?_, rfl, by simp only [served, Function.update_self]⟩
  have stored := PointerContract.held_store_offered PointerContract.parse_vectorParams []
    [.delta vectorRecord.encode]
  rw [PointerContract.offered_delta, PointerContract.held_vectorRecord,
    PointerContract.held_nil] at stored
  exact stored

theorem pointer_network_safe_vector :
    ∃ world : World Unit Unit, world.floors () = floorOf vectorRecord ∧
      ∀ consumer, world.floors consumer = .neverResolved ∨ ∃ version codeHash,
        (version, codeHash) ∈ world.signed ∧ world.floors consumer = ⟨version, some codeHash⟩ := by
  obtain ⟨world, steps, -, -, floor⟩ := vector_steps
  exact ⟨world, floor,
    (pointer_network_safe pointerParams_vector vectorStart world vectorStart_initial steps).2.1⟩

theorem one_hash_per_version_vector :
    ∃ world : World Unit Unit, held VectorKey vectorParams (world.network.state ()) = some vectorRecord ∧
      (world.floors ()).codeHash = some vectorRecord.codeHash := by
  obtain ⟨world, steps, holds, signed, floor⟩ := vector_steps
  have single : ∀ version codeHash other, (version, codeHash) ∈ world.signed →
      (version, other) ∈ world.signed → codeHash = other := by
    intro version codeHash other member also
    rw [signed, List.mem_singleton, Prod.mk.injEq] at member also
    exact member.2.trans also.2.symm
  refine ⟨world, holds, ?_⟩
  have agreed := (one_hash_per_version pointerParams_vector vectorStart world vectorStart_initial
    steps single).2.2.1
  exact agreed () () vectorRecord holds (by rw [floor]; rfl)

end

end FreenetMigrate.PointerNetwork
