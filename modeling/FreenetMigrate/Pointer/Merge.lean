import FreenetMigrate.Joins.Greatest
import FreenetMigrate.Pointer.Contract

namespace FreenetMigrate.Pointer

/-- What one record is compared by: its version, then its code hash and its signature, the lower
    of each being the greater record. -/
def PointerRecord.rank (record : PointerRecord) : UInt32 ×ₗ (Fixed 32)ᵒᵈ ×ₗ (Fixed 64)ᵒᵈ :=
  toLex (record.version, toLex (.toDual record.codeHash, .toDual record.signature))

theorem PointerRecord.rank_injective : Function.Injective PointerRecord.rank := by
  intro left right same
  obtain ⟨version, hash, signature⟩ := left
  simp only [rank, toLex_inj, Prod.mk.injEq, OrderDual.toDual_inj] at same
  obtain ⟨rfl, rfl, rfl⟩ := same
  rfl

instance : LinearOrder PointerRecord := LinearOrder.lift' PointerRecord.rank PointerRecord.rank_injective

theorem PointerRecord.lt_iff {left right : PointerRecord} :
    left < right ↔ left.version < right.version ∨ (left.version = right.version ∧
      (right.codeHash < left.codeHash ∨ (left.codeHash = right.codeHash ∧
        right.signature < left.signature))) := by
  change left.rank < right.rank ↔ _
  rw [rank, rank, Prod.Lex.toLex_lt_toLex]
  simp only [Prod.Lex.toLex_lt_toLex, OrderDual.toDual_lt_toDual, OrderDual.toDual_inj]

/-- At one version the full encodings compare as the code hashes and then the signatures do. -/
theorem PointerRecord.encode_lt_encode {left right : PointerRecord}
    (version : left.version = right.version) : left.encode < right.encode ↔ right < left := by
  rw [lt_iff, encode, encode, append_lt_append (by simp), append_lt_append (by simp), version]
  simp only [lt_irrefl, true_and, false_or]
  constructor
  · rintro (hash | ⟨same, signature⟩)
    · exact .inl hash
    · exact .inr ⟨Fixed.ext (List.append_cancel_left same).symm, signature⟩
  · rintro (hash | ⟨same, signature⟩)
    · exact .inl hash
    · exact .inr ⟨by rw [same], signature⟩

end FreenetMigrate.Pointer

namespace FreenetMigrate.PointerContract

open Pointer Joins

/-- The contract's merge is the join of the order on records. -/
theorem merge_eq_max (current candidate : PointerRecord) :
    merge current candidate = max current candidate := by
  unfold merge
  rcases lt_trichotomy candidate.version current.version with less | same | more
  · have below : candidate < current := PointerRecord.lt_iff.mpr (.inl less)
    rw [compare_lt_iff_lt.mpr less, max_eq_left below.le]
  · rw [compare_eq_iff_eq.mpr same]
    simp only [PointerRecord.encode_lt_encode same]
    split
    · rename_i above
      exact (max_eq_right above.le).symm
    · rename_i notAbove
      exact (max_eq_left (not_lt.mp notAbove)).symm
  · have above : current < candidate := PointerRecord.lt_iff.mpr (.inl more)
    rw [compare_gt_iff_gt.mpr more, max_eq_right above.le]

variable {VerifyingKey : Type} [Ed25519 VerifyingKey] {params : Bytes}

variable (VerifyingKey) in
def held (params bytes : Bytes) : Option PointerRecord :=
  (decodeVerified VerifyingKey bytes params).toOption

theorem held_eq_some {bytes : Bytes} {record : PointerRecord} :
    held VerifyingKey params bytes = some record ↔
      decodeVerified VerifyingKey bytes params = .ok record := by
  unfold held
  cases decodeVerified VerifyingKey bytes params <;> simp [Except.toOption]

theorem decode_eq_ok {bytes : Bytes} {record : PointerRecord} :
    decode bytes = .ok record ↔ bytes = record.encode := by
  unfold decode
  split
  · rename_i length
    constructor
    · intro decoded
      cases decoded
      simp
    · rintro rfl
      simp
  · rename_i length
    constructor
    · intro decoded
      cases decoded
    · rintro rfl
      exact absurd record.encode_length length

theorem decodeVerified_eq_ok {bytes : Bytes} {record : PointerRecord}
    {parsed : PointerParams VerifyingKey} (accepted : PointerParams.parse VerifyingKey params = .ok parsed) :
    decodeVerified VerifyingKey bytes params = .ok record ↔
      bytes = record.encode ∧ verify record params parsed.authorVk = .ok () := by
  simp only [decodeVerified, accepted, Bind.bind, Except.bind, Pure.pure, Except.pure]
  cases decoded : decode bytes with
  | error e =>
    simp only [reduceCtorEq, false_iff, not_and]
    rintro rfl
    rw [decode_eq_ok.mpr rfl] at decoded
    cases decoded
  | ok found =>
    obtain rfl := decode_eq_ok.mp decoded
    cases verified : verify found params parsed.authorVk with
    | error e =>
      simp only [verified, reduceCtorEq, false_iff, not_and]
      intro same
      rw [← PointerRecord.encode_injective same, verified]
      simp
    | ok =>
      simp only [verified, Except.ok.injEq]
      constructor
      · rintro rfl
        exact ⟨rfl, verified⟩
      · rintro ⟨same, -⟩
        exact PointerRecord.encode_injective same

theorem held_encode {bytes : Bytes} {record : PointerRecord}
    (holds : held VerifyingKey params bytes = some record) : bytes = record.encode := by
  rw [held_eq_some] at holds
  cases accepted : PointerParams.parse VerifyingKey params with
  | error e => simp [decodeVerified, accepted, Bind.bind, Except.bind] at holds
  | ok parsed => exact ((decodeVerified_eq_ok accepted).mp holds).1

def candidates (VerifyingKey : Type) [Ed25519 VerifyingKey] (params : Bytes)
    (data : List UpdateData) : List PointerRecord :=
  data.filterMap fun update => update.payload.bind (held VerifyingKey params)

def OnlyVerified (VerifyingKey : Type) [Ed25519 VerifyingKey] (params : Bytes)
    (data : List UpdateData) : Prop :=
  ∀ update ∈ data, ∀ bytes, update.payload = some bytes →
    bytes = [] ∨ ∃ record, held VerifyingKey params bytes = some record

@[simp] theorem held_nil : held VerifyingKey params [] = none := by
  cases holds : held VerifyingKey params [] with
  | none => rfl
  | some record => exact absurd (held_encode holds).symm record.encode_ne_nil

theorem applyUpdate_candidate {parsed : PointerParams VerifyingKey} {update : UpdateData}
    {bytes : Bytes} {record : PointerRecord} (progress : Option PointerRecord × Bool)
    (accepted : PointerParams.parse VerifyingKey params = .ok parsed)
    (payload : update.payload = some bytes) (holds : held VerifyingKey params bytes = some record) :
    applyUpdate params parsed.authorVk progress update = .ok (keepGreater progress.1 record, true) := by
  obtain ⟨rfl, verified⟩ := (decodeVerified_eq_ok accepted).mp (held_eq_some.mp holds)
  have nonempty : record.encode.isEmpty = false := by simp [record.encode_ne_nil]
  simp only [applyUpdate, payload, nonempty, Bool.false_eq_true, if_false, decode_eq_ok.mpr rfl,
    Except.mapError, verified, Bind.bind, Except.bind, Pure.pure, Except.pure, merge_eq_max, keepGreater]

theorem applyUpdate_empty {authorVk : VerifyingKey} {update : UpdateData}
    (progress : Option PointerRecord × Bool)
    (nothing : update.payload = none ∨ update.payload = some []) :
    applyUpdate params authorVk progress update = .ok progress := by
  rcases nothing with payload | payload <;> simp [applyUpdate, payload]

theorem foldlM_applyUpdate {parsed : PointerParams VerifyingKey} {data : List UpdateData}
    (accepted : PointerParams.parse VerifyingKey params = .ok parsed)
    (verified : OnlyVerified VerifyingKey params data) (best : Option PointerRecord) (saw : Bool) :
    data.foldlM (applyUpdate params parsed.authorVk) (best, saw) =
      .ok (keepGreatest best (candidates VerifyingKey params data),
        saw || !(candidates VerifyingKey params data).isEmpty) := by
  induction data generalizing best saw with
  | nil => simp [candidates, Pure.pure, Except.pure]
  | cons update rest ih =>
    have remaining : OnlyVerified VerifyingKey params rest :=
      fun other member => verified other (List.mem_cons_of_mem _ member)
    rw [List.foldlM_cons]
    cases payload : update.payload with
    | none =>
      rw [applyUpdate_empty _ (.inl payload)]
      simp only [Bind.bind, Except.bind, ih remaining, candidates, List.filterMap_cons, payload,
        Option.bind_none]
    | some bytes =>
      rcases verified update (List.mem_cons_self ..) bytes payload with rfl | ⟨record, holds⟩
      · rw [applyUpdate_empty _ (.inr payload)]
        simp only [Bind.bind, Except.bind, ih remaining, candidates, List.filterMap_cons, payload,
          Option.bind_some, held_nil]
      · rw [applyUpdate_candidate _ accepted payload holds]
        simp only [Bind.bind, Except.bind, ih remaining, candidates, List.filterMap_cons, payload,
          Option.bind_some, holds, keepGreatest_cons, List.isEmpty_cons, Bool.not_false,
          Bool.or_true, Bool.true_or]

/-- `update_state` on verified records: the greatest of the held record and the candidates is
    stored, and with no record at all the call fails. -/
theorem updateState_verified {parsed : PointerParams VerifyingKey} {data : List UpdateData}
    (accepted : PointerParams.parse VerifyingKey params = .ok parsed)
    (verified : OnlyVerified VerifyingKey params data) (state : Bytes) :
    updateState VerifyingKey params state data =
      match keepGreatest (held VerifyingKey params state) (candidates VerifyingKey params data) with
      | some winner => .ok winner.encode
      | none => .error (.deser "no usable pointer record in the update, and no local state to keep") := by
  have found : (decodeVerified VerifyingKey state params).toOption = held VerifyingKey params state := rfl
  simp only [updateState, accepted, Except.mapError, Bind.bind, Except.bind, found,
    foldlM_applyUpdate accepted verified, Bool.false_or, Pure.pure, Except.pure]
  cases kept : keepGreatest (held VerifyingKey params state) (candidates VerifyingKey params data) with
  | some winner => simp
  | none =>
    have nothing := keepGreatest_eq_none.mp kept
    have empty : candidates VerifyingKey params data = [] := by
      by_contra some
      obtain ⟨record, member⟩ := List.exists_mem_of_ne_nil _ some
      exact nothing ⟨record, .inr member⟩
    simp [empty, throw, throwThe, MonadExceptOf.throw]

end FreenetMigrate.PointerContract
