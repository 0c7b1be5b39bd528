import FreenetMigrate.Build.Guard
import FreenetMigrate.Build.Lineage
import FreenetMigrate.Contract.Identity
import FreenetMigrate.Probe.Unresolved

namespace FreenetMigrate.Contract

open Build Probe
open PointerClient (ContractInstanceId)

def entry (row : ContractConst) : ContractLineageEntry := ⟨row.generation, row.codeHash⟩

section Reach

variable {State : Type}

/-- Whatever a probe comes to, it does not pass over a candidate of the given generation: it adopts a
    state that is no older, or folds the candidate's in, or it reports the candidate. -/
def Accounts (ops : ProbeStateOps State) (snapshot : State) (policy : SelectionPolicy)
    (rows : List (UInt32 × ContractInstanceId)) (answers : List Row) (generation : UInt32)
    (id : ContractInstanceId) : Probe.Outcome State → Prop
  | .recovered merged source _ unresolved =>
    match policy with
    | .newestFirstWins => ∃ later, generation ≤ later ∧ (later, source) ∈ rows
    | .foldAll => id ∈ unresolved ∨ ∃ newest older state,
        answers.filterMap (hit ops) = (source, newest) :: older ∧
        (id, state) ∈ (source, newest) :: older ∧
        merged = ops.prepareForward (ops.mergeWithLocal
          (older.foldl (fun folded row => ops.mergeGenerations folded row.2) newest) snapshot)
  | .indeterminate _ unresolved => id ∈ unresolved
  | .seedLocal _ => False
  | .noLegacy _ => False

variable {ops : ProbeStateOps State} {snapshot : State} {policy : SelectionPolicy} {maxHops : Nat}
  {continuing : Bool} {contractIdFromCodeHash : Fixed 32 → Parameters → ContractInstanceId}
  {params : Parameters} {lineage : List ContractLineageEntry} {calls : List DriverCall}
  {trace : ProbeTrace} {driver : ProbeDriver State} {outcome : Probe.Outcome State}

theorem hit_of_hits (id : ContractInstanceId) {answer : ProbeAnswer} (hits : answer.Hits ops) :
    ∃ state, hit ops (id, answer) = some (id, state) := by
  cases answer with
  | state bytes =>
    obtain ⟨state, decoded, real⟩ := hits
    exact ⟨state, by simp only [hit, ProbeAnswer.read, decoded, real, if_true]⟩
  | absent => exact hits.elim
  | unknown => exact hits.elim

theorem accounts_of_run (ran : ((contractProbe contractIdFromCodeHash ops snapshot params lineage
        policy).configured maxHops continuing).run calls = some (trace, driver))
    (taken : driver.takeOutcome.1 = some outcome) {generation : UInt32} {id : ContractInstanceId}
    (listed : (generation, id) ∈ NewestFirst.rows contractIdFromCodeHash params lineage)
    (real : ∀ answer, (id, answer) ∈ trace.answers → answer.Hits ops) :
    Accounts ops snapshot policy (NewestFirst.rows contractIdFromCodeHash params lineage)
      trace.answers generation id outcome := by
  obtain ⟨sameOps, samePolicy, -, remaining⟩ := fresh_configured ops snapshot
    (.fromLineage contractIdFromCodeHash params lineage) policy maxHops continuing
  obtain ⟨shown, final, again, stands⟩ := (stands_start ops snapshot
    (.fromLineage contractIdFromCodeHash params lineage) policy maxHops continuing).run calls
  obtain ⟨rfl, rfl⟩ := Prod.mk.inj (Option.some.inj (ran.symm.trans again))
  obtain ⟨left, named, came, asked⟩ := run_reference ops snapshot policy maxHops continuing ran taken
  replace stands : Stands ((ProbeDriver.new ops snapshot (.fromLineage contractIdFromCodeHash params
      lineage) policy).configured maxHops continuing) snapshot trace driver := stands
  have places := remaining.trans named
  have candidate : id ∈ (trace.answers ++ left).map Prod.fst := by
    rw [← named]
    exact List.mem_map.mpr ⟨_, listed, rfl⟩
  have heard (inside : id ∈ trace.answers.map Prod.fst) : ∃ answer, (id, answer) ∈ trace.answers ∧
      answer.Hits ops := by
    obtain ⟨⟨other, answer⟩, member, rfl⟩ := List.mem_map.mp inside
    exact ⟨answer, member, real answer member⟩
  cases stands.taken taken with
  | noLegacy none =>
    rw [places] at none
    rw [none] at candidate
    cases candidate
  | @hit newerIds olderIds source bytes state missed unresolved newest positions _ answers answered _
      ruledOut =>
    obtain rfl : policy = .newestFirstWins := samePolicy.symm.trans newest
    rw [remaining] at positions
    obtain ⟨newer, rest, rows, rfl, restIds⟩ := List.map_eq_append_iff.mp positions
    obtain ⟨⟨later, id'⟩, older, rfl, rfl, -⟩ := List.map_eq_cons_iff.mp restIds
    have ordered := rows_newest_first contractIdFromCodeHash params lineage
    rw [rows] at ordered listed
    change ∃ later, generation ≤ later ∧
      (later, id') ∈ NewestFirst.rows contractIdFromCodeHash params lineage
    rw [rows]
    rcases List.mem_append.mp listed with before | behind
    · have among : id ∈ missed.map Prod.fst := by
        rw [answered]
        exact List.mem_map.mpr ⟨_, before, rfl⟩
      obtain ⟨⟨other, answer⟩, member, rfl⟩ := List.mem_map.mp among
      have hits := real answer (by rw [answers]; exact List.mem_append_left _ member)
      rw [← sameOps] at hits
      rcases ruledOut _ member with misses | ⟨silent, -⟩
      · exact absurd hits (not_hits_of_misses misses)
      · dsimp only at silent
        rw [silent] at hits
        exact hits.elim
    · refine ⟨later, ?_, List.mem_append_right _ List.mem_cons_self⟩
      rcases List.mem_cons.mp behind with same | after
      · exact le_of_eq (Prod.mk.inj same).1
      · exact (List.pairwise_cons.mp (List.pairwise_append.mp ordered).2.1).1 _ after
  | folded folds _ found =>
    obtain rfl : policy = .foldAll := samePolicy.symm.trans folds
    have told := reference_foldAll_heard ops snapshot maxHops continuing (trace.answers ++ left)
    rw [came] at told
    change trace.answers = _ at told
    have behind : left = (trace.answers ++ left).drop maxHops := by
      have parts := List.take_append_drop maxHops (trace.answers ++ left)
      rw [← told] at parts
      exact (List.append_cancel_left parts).symm
    obtain ⟨row, member, hits⟩ := found
    rw [sameOps] at hits
    obtain ⟨state, shown⟩ := hit_of_hits row.1 hits
    obtain ⟨⟨source, newest⟩, older, all⟩ : ∃ first older,
        trace.answers.filterMap (hit ops) = first :: older :=
      List.exists_cons_of_ne_nil (List.ne_nil_of_mem (List.mem_filterMap.mpr ⟨row, member, shown⟩))
    have outcomes := reference_foldAll_outcome ops snapshot maxHops continuing (told ▸ all)
    rw [came, ← behind, ← told] at outcomes
    obtain ⟨rfl, rfl, -, rfl⟩ := Outcome.recovered.inj outcomes
    rw [List.map_append] at candidate
    rcases List.mem_append.mp candidate with inside | unasked
    · obtain ⟨answer, among, hits⟩ := heard inside
      obtain ⟨own, shown⟩ := hit_of_hits id hits
      exact .inr ⟨newest, older, own, all, all ▸ List.mem_filterMap.mpr ⟨_, among, shown⟩, rfl⟩
    · exact .inl ((mem_listed _ id).mpr (.inr unasked))
  | seeded _ _ answered missed =>
    rw [places] at answered
    rw [← answered] at candidate
    obtain ⟨answer, member, hits⟩ := heard candidate
    have misses := missed _ member
    rw [sameOps] at misses
    exact absurd hits (not_hits_of_misses misses)
  | indeterminate _ _ unfound =>
    rw [List.map_append] at candidate
    rcases List.mem_append.mp candidate with inside | unasked
    · obtain ⟨answer, member, hits⟩ := heard inside
      rw [← sameOps] at hits
      exact absurd hits (unfound _ member)
    · exact left_reported came unasked

end Reach

section Releases

variable [Bs58] [Blake3]

omit [Blake3] in
theorem mem_contractLineage {registry : Registry} {lineage : List ContractConst}
    (generated : registry.contractLineage = pure lineage) {codeHash : Fixed 32} {generation : UInt32}
    (recorded : Recorded .contract registry codeHash generation) :
    ∃ row ∈ lineage, row.codeHash = codeHash ∧ row.generation = generation := by
  obtain ⟨_, member, decoded, rfl⟩ := recorded
  obtain ⟨row, inside, rfl⟩ := List.mem_map.mp member
  obtain ⟨const, listed, made⟩ :=
    exists_of_mem_forall₂ (Build.Outcome.mapM_eq_pure.mp generated) inside
  obtain ⟨code, generation, -⟩ := ContractRow.const_eq_pure.mp made
  exact ⟨const, listed, Build.Outcome.pure_inj.mp (code.symm.trans decoded), generation⟩

omit [Bs58] in
theorem mem_rows {params : Parameters} {lineage : List ContractLineageEntry} {generation : UInt32}
    {id : ContractInstanceId} :
    (generation, id) ∈ NewestFirst.rows contractIdFromCodeHash params lineage ↔
      ∃ e ∈ lineage, e.generation = generation ∧ contractIdFromCodeHash e.codeHash params = id := by
  rw [NewestFirst.rows, List.mem_insertionSort, List.mem_map]
  simp only [Prod.mk.injEq]

/-- No release strands the state of an earlier one. Where the guard passed at every release and rows
    were only added, the address of whatever was shipped is the current one or stands in the generated
    lineage, so that every probe of the current release that is answered truthfully asks it, adopts a
    state that is no older, or reports it. It never seeds the local state over it. -/
theorem no_release_strands_state {release current : Release} {codeHash now : Fixed 32}
    {lineage : List ContractConst} (steps : Releases .contract release current)
    (shipped : decodeHash32 release.codeHash = pure codeHash)
    (running : decodeHash32 current.codeHash = pure now)
    (generated : current.registry.contractLineage = pure lineage) (params : Parameters) :
    contractIdFromCodeHash codeHash params = contractIdFromCodeHash now params ∨
    contractIdFromCodeHash codeHash params ∈ predecessorIds params (lineage.map entry) ∧
    ∃ generation, Recorded .contract current.registry codeHash generation ∧
      ∀ (State : Type) (ops : ProbeStateOps State) (snapshot : State) (policy : SelectionPolicy)
        (maxHops : Nat) (continuing : Bool) (network : ContractInstanceId → ProbeAnswer)
        (calls : List DriverCall) (trace : ProbeTrace) (driver : ProbeDriver State)
        (outcome : Probe.Outcome State),
        ((contractProbe contractIdFromCodeHash ops snapshot params (lineage.map entry)
          policy).configured maxHops continuing).run calls = some (trace, driver) →
        driver.takeOutcome.1 = some outcome →
        (∀ id answer, (id, answer) ∈ trace.answers → answer = network id) →
        (network (contractIdFromCodeHash codeHash params)).Hits ops →
        Accounts ops snapshot policy
          (NewestFirst.rows contractIdFromCodeHash params (lineage.map entry)) trace.answers generation
          (contractIdFromCodeHash codeHash params) outcome := by
  rcases shipped_recorded steps shipped with still | ⟨generation, recorded⟩
  · left
    rw [Build.Outcome.pure_inj.mp (still.symm.trans running)]
  · right
    obtain ⟨row, listed, rfl, same⟩ := mem_contractLineage generated recorded
    have inside : entry row ∈ lineage.map entry := List.mem_map_of_mem listed
    refine ⟨List.mem_map.mpr ⟨_, inside, rfl⟩, generation, recorded, ?_⟩
    intro State ops snapshot policy maxHops continuing network calls trace driver outcome ran taken
      truthful hits
    refine accounts_of_run ran taken (mem_rows.mpr ⟨_, inside, same, rfl⟩) ?_
    intro answer member
    rw [truthful _ answer member]
    exact hits

end Releases

section

def firstCodeHash : Fixed 32 := ⟨[
    0x2a, 0x84, 0x88, 0x75, 0x09, 0xa9, 0x2e, 0xd4, 0xc5, 0xf4, 0xf4, 0xac, 0xb4, 0xae, 0xc1, 0x23,
    0x2d, 0xa1, 0x89, 0x70, 0xce, 0xf8, 0x45, 0x58, 0xc7, 0x7f, 0xe0, 0xf7, 0x83, 0x36, 0xfb, 0x82], rfl⟩

def secondCodeHash : Fixed 32 := ⟨[
    0xa3, 0x2d, 0x57, 0xbd, 0x28, 0x38, 0x50, 0xe7, 0x34, 0x1c, 0x48, 0xc7, 0xa1, 0xab, 0xa2, 0x45,
    0x65, 0x4d, 0x18, 0x9a, 0xa5, 0x71, 0x1c, 0xc3, 0xb4, 0x49, 0x65, 0xaf, 0x9c, 0xfe, 0x3b, 0x06], rfl⟩

def owner : Parameters := ascii "owner"

def firstId : ContractInstanceId := ⟨[
    0x36, 0x5d, 0x99, 0x3d, 0xd7, 0x1e, 0xd1, 0xb4, 0x76, 0xaf, 0x0b, 0xb6, 0xaf, 0xf7, 0x78, 0x20,
    0x36, 0xfd, 0xe3, 0xa0, 0xc7, 0xaa, 0x06, 0x23, 0x25, 0xec, 0x9a, 0x07, 0x92, 0xae, 0x8b, 0x12], rfl⟩

def secondId : ContractInstanceId := ⟨[
    0x9f, 0xfd, 0x75, 0x41, 0x95, 0x10, 0xc2, 0xdd, 0x71, 0xe5, 0x61, 0xd1, 0xfe, 0x69, 0x22, 0x1c,
    0x3b, 0xd1, 0x4c, 0x78, 0xe4, 0x53, 0x6c, 0xf0, 0x7b, 0xc9, 0xca, 0x55, 0x15, 0x7b, 0x28, 0x74], rfl⟩

local instance : Bs58 := standardBs58
local instance : LawfulBs58 := standardBs58_lawful
local instance : Blake3 := ⟨fun bytes => if bytes = firstCodeHash.toList ++ owner then firstId else secondId⟩

def firstRelease : Release := ⟨.ofList (Text.hex firstCodeHash.toList), ⟨[], []⟩⟩

def firstRow : ContractRow := ⟨0, Text.Base58.encode firstCodeHash.toList, "v1"⟩

def secondRelease : Release := ⟨Text.Base58.encode secondCodeHash.toList, ⟨[firstRow], []⟩⟩

theorem decode_firstRelease : decodeHash32 firstRelease.codeHash = pure firstCodeHash := by
  rw [decodeHash32_eq_pure, firstRelease, String.toList_ofList]
  exact .inl (Text.spells_hex _)

theorem decode_firstRow : decodeHash32 firstRow.codeHash = pure firstCodeHash :=
  decodeHash32_eq_pure.mpr (.inr (Text.Base58.decode_encode _))

theorem decode_secondRelease : decodeHash32 secondRelease.codeHash = pure secondCodeHash :=
  decodeHash32_eq_pure.mpr (.inr (Text.Base58.decode_encode _))

theorem second_follows : Follows .contract firstRelease secondRelease where
  kept codeHash generation recorded := by
    obtain ⟨row, member, -⟩ := recorded
    cases member
  guarded := by
    refine checkMigrationGuard_passes.mpr
      ⟨firstCodeHash, secondCodeHash, decode_firstRelease, decode_secondRelease, .inr ⟨0, ?_⟩⟩
    exact ⟨(0, firstRow.codeHash), List.mem_singleton_self _, decode_firstRow, rfl⟩

theorem no_release_strands_state_second :
    ∃ lineage, secondRelease.registry.contractLineage = pure lineage ∧
      firstId ∈ predecessorIds owner (lineage.map entry) := by
  have made : firstRow.const = pure ⟨0, firstCodeHash, "v1"⟩ :=
    ContractRow.const_eq_pure.mpr ⟨decode_firstRow, rfl, rfl⟩
  have generated : secondRelease.registry.contractLineage = pure [⟨0, firstCodeHash, "v1"⟩] :=
    Build.Outcome.mapM_eq_pure.mpr (.cons made .nil)
  have apart : ¬ secondCodeHash.toList ++ owner = firstCodeHash.toList ++ owner := by decide
  have first : contractIdFromCodeHash firstCodeHash owner = firstId := by
    simp only [contractIdFromCodeHash, Blake3.hash, if_true]
  have second : contractIdFromCodeHash secondCodeHash owner = secondId := by
    simp only [contractIdFromCodeHash, Blake3.hash, apart, if_false]
  refine ⟨_, generated, ?_⟩
  rcases no_release_strands_state (.single second_follows) decode_firstRelease decode_secondRelease
    generated owner with same | ⟨listed, -⟩
  · rw [first, second] at same
    exact absurd same (by decide)
  · rwa [first] at listed

end

end FreenetMigrate.Contract
