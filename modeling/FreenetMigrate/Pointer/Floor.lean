import FreenetMigrate.Pointer.Resolution

namespace FreenetMigrate.PointerClient

open Pointer Joins

variable {VerifyingKey : Type} [Ed25519 VerifyingKey]

def served (params : Bytes) (authorVk : VerifyingKey) (resolutions : List Resolution) :
    Set PointerRecord :=
  {record | ∃ resolution ∈ resolutions, certified params authorVk resolution.answer = some record}

variable {contractId : Bytes → ContractInstanceId} {authorVk : VerifyingKey} {appId params : Bytes}

def certifiedAll (params : Bytes) (authorVk : VerifyingKey) (resolutions : List Resolution) :
    List PointerRecord :=
  resolutions.filterMap fun resolution => certified params authorVk resolution.answer

theorem served_eq (resolutions : List Resolution) :
    served params authorVk resolutions =
      everHeld none (certifiedAll params authorVk resolutions) := by
  ext record
  simp [served, everHeld, certifiedAll]

theorem resolveAll_floorFor (accepted : pointerParams authorVk appId = .ok params)
    {best : Option PointerRecord}
    (verified : ∀ record, best = some record → verify record params authorVk = .ok ())
    (resolutions : List Resolution) :
    resolveAll contractId authorVk appId (floorFor best) resolutions =
      .ok (floorFor (keepGreatest best (certifiedAll params authorVk resolutions))) := by
  induction resolutions generalizing best with
  | nil => rfl
  | cons resolution rest ih =>
    have before : floorBefore resolution.restarted (floorFor best) = .ok (floorFor best) := by
      unfold floorBefore
      split
      · exact rebuild_floorFor verified
      · rfl
    have step : resolveNext contractId authorVk appId (floorFor best) resolution =
        .ok (floorFor (keepGreatest best (certified params authorVk resolution.answer).toList)) := by
      simp only [resolveNext, before, resolve_eq accepted, Bind.bind, Except.bind, Pure.pure,
        Except.pure, persist_verdict]
    have stillVerified : ∀ record,
        keepGreatest best (certified params authorVk resolution.answer).toList = some record →
        verify record params authorVk = .ok () := by
      intro record kept
      rcases mem_of_keepGreatest kept with held | newcomer
      · exact verified record held
      · exact (certified_eq_some.mp (Option.mem_toList.mp newcomer)).2
    rw [resolveAll, List.foldlM_cons, step]
    change resolveAll contractId authorVk appId _ rest = _
    rw [ih stillVerified, ← keepGreatest_append]
    congr 3
    simp only [certifiedAll, List.filterMap_cons]
    cases certified params authorVk resolution.answer <;> rfl

theorem le_floorOf {other record greatest : PointerRecord} (below : other ≤ greatest)
    (same : floorOf record = floorOf greatest) :
    other.version < record.version ∨
      (other.version = record.version ∧ record.codeHash ≤ other.codeHash) := by
  simp only [floorOf, PointerFloor.mk.injEq, Option.some.injEq] at same
  rw [same.1, same.2]
  rcases below.lt_or_eq with less | rfl
  · rcases PointerRecord.lt_iff.mp less with older | ⟨tie, loses | ⟨hash, -⟩⟩
    · exact .inl older
    · exact .inr ⟨tie, loses.le⟩
    · exact .inr ⟨tie, hash.ge⟩
  · exact .inr ⟨rfl, le_rfl⟩

/-- Whatever floor an outcome offers is that of the record just served, and no record served
    earlier is newer or wins the tie against it. -/
theorem nextFloor_not_older (accepted : pointerParams authorVk appId = .ok params)
    {before : List Resolution} {floor next : PointerFloor} {answer : PointerFetch}
    {outcome : PointerOutcome}
    (reached : resolveAll contractId authorVk appId .neverResolved before = .ok floor)
    (result : resolve contractId authorVk appId floor answer = .ok (some (.ok outcome)))
    (learned : outcome.nextFloor = some next) :
    ∃ record, certified params authorVk answer = some record ∧ next = floorOf record ∧
      ∀ other ∈ served params authorVk before, other.version < record.version ∨
        (other.version = record.version ∧ record.codeHash ≤ other.codeHash) := by
  have start : floorFor none = .neverResolved := rfl
  rw [← start, resolveAll_floorFor accepted (by simp)] at reached
  obtain rfl := Except.ok.inj reached
  rw [resolve_eq accepted, Except.ok.injEq, Option.some.injEq] at result
  cases answer with
  | unreachable =>
    cases result
    cases learned
  | absent =>
    simp only [verdict, Except.ok.injEq] at result
    rw [← result] at learned
    split at learned <;> cases learned
  | state bytes =>
    cases found : certified params authorVk (.state bytes) with
    | none =>
      rcases judge_uncertified (armed contractId authorVk params
        (floorFor (keepGreatest none (certifiedAll params authorVk before)))) found
        with judged | ⟨e, judged⟩
      · rw [verdict, judged] at result
        cases result
        cases learned
      · rw [verdict, judged] at result
        cases result
    | some record =>
      obtain ⟨same, verified⟩ := certified_eq_some.mp found
      obtain rfl := PointerFetch.state.inj same
      rw [verdict, judge_certified verified, Except.ok.injEq] at result
      rw [← result] at learned
      refine ⟨record, rfl, order_nextFloor verified learned, ?_⟩
      intro other member
      have kept := persist_order (armed contractId authorVk params
        (floorFor (keepGreatest none (certifiedAll params authorVk before)))) rfl verified
      rw [persist, learned, Option.getD_some, order_nextFloor verified learned] at kept
      rw [served_eq] at member
      obtain ⟨current, found, -, bound⟩ := keepGreatest_isGreatest _ _ ⟨other, member⟩
      rw [found] at kept
      exact le_floorOf ((bound member).trans (le_max_left current record)) kept

/-- The client keeps the contract's order over whole runs: the floor stands for the greatest
    verifying record served so far, in whatever order and however often it was served. -/
theorem floor_is_greatest (contractId : Bytes → ContractInstanceId)
    (accepted : pointerParams authorVk appId = .ok params) (resolutions : List Resolution) :
    ∃ floor, resolveAll contractId authorVk appId .neverResolved resolutions = .ok floor ∧
      (served params authorVk resolutions = ∅ → floor = .neverResolved) ∧
      ((served params authorVk resolutions).Nonempty →
        ∃ best ∈ served params authorVk resolutions,
          (∀ other ∈ served params authorVk resolutions,
            PointerContract.merge best other = best) ∧
          floor.version = best.version ∧ floor.codeHash = some best.codeHash ∧
          floor.isWithdrawn = best.isTombstone) ∧
      (∀ others, served params authorVk others = served params authorVk resolutions →
        resolveAll contractId authorVk appId .neverResolved others = .ok floor) ∧
      ∀ answer outcome next,
        resolve contractId authorVk appId floor answer = .ok (some (.ok outcome)) →
        outcome.nextFloor = some next →
        ∃ record, certified params authorVk answer = some record ∧
          next.version = record.version ∧ next.codeHash = some record.codeHash ∧
          ∀ other ∈ served params authorVk resolutions, other.version < record.version ∨
            (other.version = record.version ∧ record.codeHash ≤ other.codeHash) := by
  have start : floorFor none = .neverResolved := rfl
  have reached (rs : List Resolution) :
      resolveAll contractId authorVk appId .neverResolved rs =
        .ok (floorFor (keepGreatest none (certifiedAll params authorVk rs))) := by
    rw [← start]
    exact resolveAll_floorFor accepted (by simp) rs
  refine ⟨_, reached resolutions, ?_, ?_, ?_, ?_⟩
  · intro empty
    rw [served_eq] at empty
    rw [keepGreatest_eq_none.mpr (Set.not_nonempty_iff_eq_empty.mpr empty), start]
  · intro nonempty
    rw [served_eq] at nonempty ⊢
    obtain ⟨best, kept, member, bound⟩ := keepGreatest_isGreatest _ _ nonempty
    refine ⟨best, member, ?_, ?_⟩
    · intro other served
      rw [PointerContract.merge_eq_max, max_eq_left (bound served)]
    · rw [kept]
      refine ⟨rfl, rfl, ?_⟩
      rw [Bool.eq_iff_iff]
      simp [floorFor, floorOf, PointerFloor.isWithdrawn, PointerRecord.isTombstone]
  · intro others same
    rw [served_eq, served_eq] at same
    rw [reached, keepGreatest_congr same]
  · intro answer outcome next result learned
    obtain ⟨record, found, rfl, newest⟩ := nextFloor_not_older accepted (reached resolutions)
      result learned
    exact ⟨record, found, rfl, rfl, newest⟩

section

open PointerContract (VectorKey vectorAppId vectorParams vectorRecord)

theorem pointerParams_vector : pointerParams VectorKey.author vectorAppId = .ok vectorParams := by
  decide +kernel

theorem verify_vectorRecord : verify vectorRecord vectorParams VectorKey.author = .ok () := by
  decide +kernel

/-- The published record and then, after a restart, an absent answer. -/
theorem floor_is_greatest_vector :
    ∃ floor, resolveAll (fun _ => Fixed.zero 32) VectorKey.author vectorAppId .neverResolved
        [⟨false, .state vectorRecord.encode⟩, ⟨true, .absent⟩] = .ok floor ∧
      floor.version = 7 ∧ floor.codeHash = some vectorRecord.codeHash := by
  have found : certified vectorParams VectorKey.author (.state vectorRecord.encode) =
      some vectorRecord := certified_eq_some.mpr ⟨rfl, verify_vectorRecord⟩
  have once : served vectorParams VectorKey.author
      [⟨false, .state vectorRecord.encode⟩, ⟨true, .absent⟩] = {vectorRecord} := by
    ext record
    have nothing : certified vectorParams VectorKey.author .absent = none := rfl
    simp [served, found, nothing, eq_comm]
  obtain ⟨floor, reached, -, greatest, -⟩ := floor_is_greatest (fun _ => Fixed.zero 32)
    pointerParams_vector [⟨false, .state vectorRecord.encode⟩, ⟨true, .absent⟩]
  obtain ⟨best, member, -, version, hash, -⟩ := greatest (once ▸ Set.singleton_nonempty _)
  rw [once] at member
  obtain rfl := Set.mem_singleton_iff.mp member
  exact ⟨floor, reached, version, hash⟩

end

end FreenetMigrate.PointerClient
