import FreenetMigrate.Pointer.Merge
import FreenetMigrate.Pointer.Resolver

namespace FreenetMigrate.PointerClient

open Pointer Joins

inductive PointerFetch
  | state (bytes : Bytes)
  | absent
  | unreachable
  deriving DecidableEq

variable {VerifyingKey : Type} [Ed25519 VerifyingKey]

def resolve (contractId : Bytes → ContractInstanceId) (authorVk : VerifyingKey) (appId : Bytes)
    (floor : PointerFloor) (answer : PointerFetch) :
    Except PointerError (Option (Except PointerError PointerOutcome)) := do
  let resolver ← PointerResolver.new contractId authorVk appId floor
  let resolver := resolver.nextAction.2
  let resolver := match answer with
    | .state bytes => (resolver.onResponse resolver.pointerId bytes).2
    | .absent => (resolver.onAbsent resolver.pointerId).2
    | .unreachable => (resolver.onUnreachable resolver.pointerId).2
  return resolver.takeOutcome.1

def persist (floor : PointerFloor) : Option (Except PointerError PointerOutcome) → PointerFloor
  | some (.ok outcome) => outcome.nextFloor.getD floor
  | _ => floor

/-- A restarted caller builds its floor again from the columns it stored. -/
def rebuild (floor : PointerFloor) : Except PointerError PointerFloor :=
  match floor.codeHash with
  | none => .ok .neverResolved
  | some codeHash =>
    if floor.isWithdrawn then PointerFloor.withdrawnAt floor.version
    else PointerFloor.atVersion floor.version codeHash

def floorBefore (restarted : Bool) (floor : PointerFloor) : Except PointerError PointerFloor :=
  if restarted then rebuild floor else .ok floor

structure Resolution where
  restarted : Bool
  answer : PointerFetch

def resolveNext (contractId : Bytes → ContractInstanceId) (authorVk : VerifyingKey) (appId : Bytes)
    (floor : PointerFloor) (resolution : Resolution) : Except PointerError PointerFloor := do
  let floor ← floorBefore resolution.restarted floor
  let outcome ← resolve contractId authorVk appId floor resolution.answer
  return persist floor outcome

def resolveAll (contractId : Bytes → ContractInstanceId) (authorVk : VerifyingKey) (appId : Bytes)
    (floor : PointerFloor) (resolutions : List Resolution) : Except PointerError PointerFloor :=
  resolutions.foldlM (resolveNext contractId authorVk appId) floor

def certified (params : Bytes) (authorVk : VerifyingKey) : PointerFetch → Option PointerRecord
  | .state bytes => (do
      let record ← decode bytes
      verify record params authorVk
      return record : Except PointerError PointerRecord).toOption
  | _ => none

variable {contractId : Bytes → ContractInstanceId} {authorVk : VerifyingKey} {appId params : Bytes}

theorem decode_eq_ok {bytes : Bytes} {record : PointerRecord} :
    decode bytes = .ok record ↔ bytes = record.encode := by
  unfold decode
  split
  · rename_i length
    constructor
    · intro decoded
      cases decoded
      simp
    · rintro rfl
      simp
  · rename_i length
    constructor
    · intro decoded
      cases decoded
    · rintro rfl
      exact absurd record.encode_length length

theorem certified_eq_some {answer : PointerFetch} {record : PointerRecord} :
    certified params authorVk answer = some record ↔
      answer = .state record.encode ∧ verify record params authorVk = .ok () := by
  cases answer with
  | absent => simp [certified]
  | unreachable => simp [certified]
  | state bytes =>
    simp only [certified, Bind.bind, Except.bind, Pure.pure, Except.pure, PointerFetch.state.injEq]
    cases decoded : decode bytes with
    | error e =>
      simp only [Except.toOption, reduceCtorEq, false_iff, not_and]
      rintro rfl
      rw [decode_eq_ok.mpr rfl] at decoded
      cases decoded
    | ok found =>
      obtain rfl := decode_eq_ok.mp decoded
      cases verified : verify found params authorVk with
      | error e =>
        simp only [Except.toOption, verified, reduceCtorEq, false_iff, not_and]
        intro same
        rw [← PointerRecord.encode_injective same, verified]
        simp
      | ok =>
        simp only [Except.toOption, verified, Option.some.injEq]
        constructor
        · rintro rfl
          exact ⟨rfl, verified⟩
        · rintro ⟨same, -⟩
          exact PointerRecord.encode_injective same

theorem version_of_verify {record : PointerRecord}
    (verified : verify record params authorVk = .ok ()) :
    ¬ (record.version = 0 ∨ MAX_VERSION < record.version) := by
  unfold verify at verified
  split at verified
  · cases verified
  · rename_i positive
    split at verified
    · cases verified
    · rename_i below
      exact not_or.mpr ⟨positive, below⟩

def floorOf (record : PointerRecord) : PointerFloor := ⟨record.version, some record.codeHash⟩

def floorFor (best : Option PointerRecord) : PointerFloor := best.elim .neverResolved floorOf

theorem nextFloor_adopt {record : PointerRecord}
    (verified : verify record params authorVk = .ok ()) :
    (PointerResolver.adopt record).nextFloor = some (floorOf record) := by
  have bound := version_of_verify verified
  unfold PointerResolver.adopt
  split
  · rename_i tombstone
    have hash : record.codeHash = TOMBSTONE_CODE_HASH := by simpa [PointerRecord.isTombstone] using tombstone
    simp only [PointerOutcome.nextFloor, PointerFloor.withdrawnAt, bound, if_false, Except.toOption,
      floorOf, hash]
  · rename_i published
    have hash : ¬ record.codeHash = TOMBSTONE_CODE_HASH := by
      simpa [PointerRecord.isTombstone] using published
    simp only [PointerOutcome.nextFloor, PointerFloor.atVersion, bound, hash, if_false,
      Except.toOption, floorOf]

theorem nextFloor_unchanged (record : PointerRecord) :
    (PointerResolver.unchanged record).nextFloor = (PointerResolver.adopt record).nextFloor := by
  unfold PointerResolver.unchanged PointerResolver.adopt
  split <;> rfl

/-- Against the floor of the greatest record so far, a certified record leaves the floor of the
    greater of the two. -/
theorem persist_order (resolver : PointerResolver VerifyingKey) {best : Option PointerRecord}
    {record : PointerRecord} (floor : resolver.floor = floorFor best)
    (verified : verify record params authorVk = .ok ()) :
    persist resolver.floor (some (.ok (resolver.order record))) =
      floorFor (keepGreater best record) := by
  have adopted := nextFloor_adopt verified
  cases best with
  | none =>
    simp only [floor, floorFor, PointerFloor.neverResolved, Option.elim_none, PointerResolver.order,
      if_true, persist, adopted, Option.getD_some, keepGreater, Option.elim_some]
  | some current =>
    simp only [floor, floorFor, floorOf, Option.elim_some, PointerResolver.order, persist,
      keepGreater]
    rcases lt_trichotomy record.version current.version with older | same | newer
    · have below : record < current := PointerRecord.lt_iff.mpr (.inl older)
      rw [compare_lt_iff_lt.mpr older, max_eq_left below.le]
      rfl
    · rw [compare_eq_iff_eq.mpr same]
      rcases lt_trichotomy record.codeHash current.codeHash with wins | tie | loses
      · have above : current < record := PointerRecord.lt_iff.mpr (.inr ⟨same.symm, .inl wins⟩)
        simp only [compare_lt_iff_lt.mpr wins, adopted, Option.getD_some, max_eq_right above.le, floorOf]
      · simp only [compare_eq_iff_eq.mpr tie, nextFloor_unchanged, adopted, Option.getD_some, floorOf]
        rcases max_choice current record with kept | kept <;> rw [kept]
        rw [same, tie]
      · have below : record < current := PointerRecord.lt_iff.mpr (.inr ⟨same, .inl loses⟩)
        simp only [compare_gt_iff_gt.mpr loses, max_eq_left below.le]
        rfl
    · have above : current < record := PointerRecord.lt_iff.mpr (.inl newer)
      rw [compare_gt_iff_gt.mpr newer, max_eq_right above.le]
      simp only [adopted, Option.getD_some, floorOf]

omit [Ed25519 VerifyingKey] in
theorem order_cases (resolver : PointerResolver VerifyingKey) (record : PointerRecord) :
    resolver.order record = PointerResolver.adopt record ∨
      resolver.order record = PointerResolver.unchanged record ∨
      resolver.order record = .stale record.version resolver.floor.version ∨
      resolver.order record = .competingRecord record.version := by
  unfold PointerResolver.order
  split
  · split
    · exact .inl rfl
    · split
      · exact .inl rfl
      · exact .inr (.inr (.inl rfl))
  · split
    · exact .inr (.inr (.inl rfl))
    · exact .inl rfl
    · split
      · exact .inl rfl
      · exact .inr (.inl rfl)
      · exact .inr (.inr (.inr rfl))

theorem order_nextFloor {resolver : PointerResolver VerifyingKey} {record : PointerRecord}
    {next : PointerFloor} (verified : verify record params authorVk = .ok ())
    (learned : (resolver.order record).nextFloor = some next) : next = floorOf record := by
  have adopted := nextFloor_adopt verified
  rcases order_cases resolver record with order | order | order | order <;> rw [order] at learned
  · exact Option.some.inj (learned.symm.trans adopted)
  · exact Option.some.inj (learned.symm.trans ((nextFloor_unchanged record).trans adopted))
  · cases learned
  · cases learned

def armed (contractId : Bytes → ContractInstanceId) (authorVk : VerifyingKey) (params : Bytes)
    (floor : PointerFloor) : PointerResolver VerifyingKey where
  params := params
  authorVk := authorVk
  pointerId := contractId params
  floor := floor
  outstanding := true
  phase := .fetching

theorem judge_certified {resolver : PointerResolver VerifyingKey} {record : PointerRecord}
    (verified : verify record resolver.params resolver.authorVk = .ok ()) :
    resolver.judge record.encode = .ok (resolver.order record) := by
  have nonempty : record.encode.isEmpty = false := by simp [record.encode_ne_nil]
  simp only [PointerResolver.judge, nonempty, Bool.false_eq_true, if_false, decode_eq_ok.mpr rfl,
    verified, Bind.bind, Except.bind, Pure.pure, Except.pure]

theorem judge_uncertified (resolver : PointerResolver VerifyingKey) {bytes : Bytes}
    (nothing : certified resolver.params resolver.authorVk (.state bytes) = none) :
    resolver.judge bytes = .ok .unavailable ∨ ∃ e, resolver.judge bytes = .error e := by
  unfold PointerResolver.judge
  split
  · exact .inl rfl
  · simp only [certified, Bind.bind, Except.bind, Pure.pure, Except.pure] at nothing ⊢
    cases decoded : decode bytes with
    | error e => exact .inr ⟨e, rfl⟩
    | ok record =>
      cases verified : verify record resolver.params resolver.authorVk with
      | error e => exact .inr ⟨e, by simp only [verified]⟩
      | ok => simp [decoded, verified, Except.toOption] at nothing

def verdict (resolver : PointerResolver VerifyingKey) :
    PointerFetch → Except PointerError PointerOutcome
  | .state bytes => resolver.judge bytes
  | .absent => .ok (if resolver.floor.hasEverResolved then .unavailable else .neverPublished)
  | .unreachable => .ok .unavailable

theorem resolve_eq (accepted : pointerParams authorVk appId = .ok params) (floor : PointerFloor)
    (answer : PointerFetch) :
    resolve contractId authorVk appId floor answer =
      .ok (some (verdict (armed contractId authorVk params floor) answer)) := by
  simp only [resolve, PointerResolver.new, accepted, Bind.bind, Except.bind, Pure.pure, Except.pure,
    PointerResolver.nextAction]
  cases answer <;>
    simp only [PointerResolver.onResponse, PointerResolver.onAbsent, PointerResolver.onUnreachable,
      PointerResolver.accepts, beq_self_eq_true, Bool.and_true, if_true] <;> rfl

/-- One resolution keeps the floor of the greatest record certified so far. -/
theorem persist_verdict {best : Option PointerRecord} (answer : PointerFetch) :
    persist (floorFor best)
        (some (verdict (armed contractId authorVk params (floorFor best)) answer)) =
      floorFor (keepGreatest best (certified params authorVk answer).toList) := by
  cases found : certified params authorVk answer with
  | some record =>
    obtain ⟨rfl, verified⟩ := certified_eq_some.mp found
    rw [verdict, judge_certified verified]
    exact persist_order (armed contractId authorVk params (floorFor best)) rfl verified
  | none =>
    simp only [Option.toList_none, keepGreatest_nil]
    cases answer with
    | state bytes =>
      rcases judge_uncertified (armed contractId authorVk params (floorFor best)) found
        with judged | ⟨e, judged⟩
      · rw [verdict, judged]
        rfl
      · rw [verdict, judged]
        rfl
    | absent =>
      simp only [verdict, persist]
      split <;> rfl
    | unreachable => rfl

theorem rebuild_floorFor {best : Option PointerRecord}
    (verified : ∀ record, best = some record → verify record params authorVk = .ok ()) :
    rebuild (floorFor best) = .ok (floorFor best) := by
  cases best with
  | none => rfl
  | some record =>
    have bound := version_of_verify (verified record rfl)
    simp only [floorFor, Option.elim_some, floorOf, rebuild, PointerFloor.isWithdrawn,
      PointerFloor.withdrawnAt, PointerFloor.atVersion, bound, if_false]
    by_cases tombstone : record.codeHash = TOMBSTONE_CODE_HASH <;> simp [tombstone]

end FreenetMigrate.PointerClient
