import FreenetMigrate.Bytes.LittleEndian
import FreenetMigrate.Pointer.Update
import FreenetMigrate.Pointer.Resolution

namespace FreenetMigrate.Pointer

/-- What the crate's keys are: the points that 32 bytes decode to, each with the bytes it came from. -/
class LawfulEd25519 (VerifyingKey : Type) [Ed25519 VerifyingKey] : Prop where
  asBytes_of_fromBytes : ∀ {bytes : Fixed 32} {key : VerifyingKey},
    Ed25519.fromBytes bytes = some key → Ed25519.asBytes key = bytes
  fromBytes_asBytes : ∀ key : VerifyingKey, Ed25519.fromBytes (Ed25519.asBytes key) = some key

/-- The loop from the top byte down compares the numbers. -/
theorem lessFromTop_iff {ys ps : Bytes} (same : ys.length = ps.length) :
    lessFromTop ys ps = true ↔ littleEndian ys.reverse < littleEndian ps.reverse := by
  induction ys generalizing ps with
  | nil =>
    obtain rfl := List.eq_nil_of_length_eq_zero same.symm
    simp [lessFromTop]
  | cons y ys ih =>
    cases ps with
    | nil => simp at same
    | cons p ps =>
      have lengths : ys.length = ps.length := by simpa using same
      rw [List.reverse_cons, List.reverse_cons, littleEndian_concat_lt (by simpa using lengths),
        ← ih lengths, lessFromTop]
      rcases lt_trichotomy y p with less | rfl | more
      · simp [less]
      · simp
      · simp [more, more.not_gt, more.ne']

theorem littleEndian_fieldPrime : littleEndian fieldPrime = 2 ^ 255 - 19 := by decide +kernel

/-- A key is canonical exactly when its number, the sign bit cleared, is below the field prime. -/
theorem isCanonicalFieldElement_iff (key : Fixed 32) :
    isCanonicalFieldElement key = true ↔ littleEndian key.toList % 2 ^ 255 < 2 ^ 255 - 19 := by
  obtain ⟨bytes, length⟩ := key
  obtain ⟨lower, top, rfl⟩ : ∃ lower top, bytes = lower ++ [top] := by
    have filled : bytes ≠ [] := by
      rintro rfl
      cases length
    exact ⟨bytes.dropLast, bytes.getLast filled, (List.dropLast_append_getLast filled).symm⟩
  have shorter : lower.length = 31 := by simpa using length
  have masked : (lower ++ [top]).set 31 ((lower ++ [top]).getD 31 0 &&& 0x7f) =
      lower ++ [top &&& 0x7f] := by
    rw [List.set_append_right _ _ shorter.le, shorter]
    simp [shorter]
  have place : 256 ^ lower.length * 128 = 2 ^ 255 := by rw [shorter]; norm_num
  unfold isCanonicalFieldElement
  rw [masked, lessFromTop_iff (by simp [shorter, fieldPrime]), List.reverse_reverse,
    List.reverse_reverse, littleEndian_clear, littleEndian_fieldPrime, place]

end FreenetMigrate.Pointer

namespace FreenetMigrate.PointerClient

open Pointer

variable {VerifyingKey : Type} [Ed25519 VerifyingKey]

theorem length_take_key {bytes : Bytes}
    (fits : MIN_PARAMS_LEN ≤ bytes.length ∧ bytes.length ≤ MAX_PARAMS_LEN) :
    (bytes.take 32).length = 32 := by
  simp only [MIN_PARAMS_LEN, VERIFYING_KEY_LEN] at fits
  rw [List.length_take]
  omega

variable (VerifyingKey) in
def parsePointerParams (bytes : Bytes) : Except PointerError (VerifyingKey × Bytes) :=
  if h : MIN_PARAMS_LEN ≤ bytes.length ∧ bytes.length ≤ MAX_PARAMS_LEN then
    let key : Fixed 32 := ⟨bytes.take 32, length_take_key h⟩
    let appId := bytes.drop VERIFYING_KEY_LEN
    if isCanonicalFieldElement key then
      match Ed25519.fromBytes key with
      | none => .error .paramsKey
      | some (authorVk : VerifyingKey) =>
        if Ed25519.isWeak authorVk then .error .paramsKeyWeak else
        match appId.find? fun b => !isValidAppIdByte b with
        | some bad => .error (.paramsAppId bad)
        | none => .ok (authorVk, appId)
    else .error .paramsKeyNonCanonical
  else .error (.paramsLength bytes.length)

end FreenetMigrate.PointerClient

namespace FreenetMigrate.PointerContract

open Pointer PointerClient

def PointerError.toClient : PointerError → PointerClient.PointerError
  | .paramsLength n => .paramsLength n
  | .paramsKey => .paramsKey
  | .paramsKeyNonCanonical => .paramsKeyNonCanonical
  | .paramsKeyWeak => .paramsKeyWeak
  | .paramsAppId b => .paramsAppId b
  | .stateLength n => .stateLength n
  | .zeroVersion => .zeroVersion
  | .signatureUnset => .signatureUnset
  | .badSignature => .badSignature
  | .reservedVersion => .reservedVersion

theorem mapError_eq_ok {α ε φ : Type} {f : ε → φ} {x : Except ε α} {a : α} :
    x.mapError f = .ok a ↔ x = .ok a := by
  cases x <;> simp [Except.mapError]

variable {VerifyingKey : Type} [Ed25519 VerifyingKey]

section Consumer

theorem pointerParams_eq (authorVk : VerifyingKey) (appId : Bytes) :
    pointerParams authorVk appId =
      (PointerParams.encode authorVk appId).mapError PointerError.toClient := by
  unfold pointerParams PointerParams.encode
  cases appId.find? fun b => !isValidAppIdByte b <;> dsimp only <;> split_ifs <;> rfl

theorem parsePointerParams_eq (bytes : Bytes) :
    parsePointerParams VerifyingKey bytes = ((PointerParams.parse VerifyingKey bytes).map fun parsed =>
      (parsed.authorVk, parsed.appId)).mapError PointerError.toClient := by
  unfold parsePointerParams PointerParams.parse
  split
  · rename_i length
    dsimp only
    generalize (⟨bytes.take 32, _⟩ : Fixed 32) = key
    cases (Ed25519.fromBytes key : Option VerifyingKey) with
    | none => split <;> rfl
    | some authorVk =>
      cases (bytes.drop VERIFYING_KEY_LEN).find? fun b => !isValidAppIdByte b <;> dsimp only <;>
        split_ifs <;> rfl
  · rfl

theorem client_verify_eq (record : PointerRecord) (params : Bytes) (authorVk : VerifyingKey) :
    PointerClient.verify record params authorVk =
      (verify record params authorVk).mapError PointerError.toClient := by
  unfold PointerClient.verify verify
  split_ifs <;> rfl

end Consumer

structure Addressable (authorVk : VerifyingKey) (appId : Bytes) : Prop where
  nonempty : appId ≠ []
  short : appId.length ≤ MAX_APP_ID_LEN
  plain : ∀ b ∈ appId, isValidAppIdByte b = true
  canonical : isCanonicalFieldElement (Ed25519.asBytes authorVk) = true
  strong : Ed25519.isWeak authorVk = false

def layout (authorVk : VerifyingKey) (appId : Bytes) : Bytes :=
  (Ed25519.asBytes authorVk).toList ++ appId

theorem find_invalid_eq_none {appId : Bytes} :
    (appId.find? fun b => !isValidAppIdByte b) = none ↔ ∀ b ∈ appId, isValidAppIdByte b = true := by
  simp

theorem encode_eq_ok {authorVk : VerifyingKey} {appId params : Bytes} :
    PointerParams.encode authorVk appId = .ok params ↔
      Addressable authorVk appId ∧ params = layout authorVk appId := by
  unfold PointerParams.encode
  by_cases length : (appId.isEmpty || decide (MAX_APP_ID_LEN < appId.length)) = true
  · rw [if_pos length]
    simp only [reduceCtorEq, false_iff, not_and]
    intro fits
    have short := fits.short
    simp [fits.nonempty] at length
    omega
  · rw [if_neg length]
    simp only [Bool.or_eq_true, List.isEmpty_iff, decide_eq_true_eq, not_or, not_lt] at length
    cases bad : appId.find? fun b => !isValidAppIdByte b with
    | some b =>
      simp only [reduceCtorEq, false_iff, not_and]
      intro fits
      rw [find_invalid_eq_none.mpr fits.plain] at bad
      cases bad
    | none =>
      have plain := find_invalid_eq_none.mp bad
      by_cases canonical : isCanonicalFieldElement (Ed25519.asBytes authorVk) = true
      · by_cases weak : Ed25519.isWeak authorVk = true
        · simp only [canonical, weak, if_true, reduceCtorEq, false_iff, not_and]
          intro fits
          rw [fits.strong] at weak
          cases weak
        · simp only [canonical, weak, if_true, Bool.false_eq_true, if_false, Except.ok.injEq]
          constructor
          · rintro rfl
            exact ⟨⟨length.1, length.2, plain, canonical, by simpa using weak⟩, rfl⟩
          · rintro ⟨-, rfl⟩
            rfl
      · simp only [canonical, Bool.false_eq_true, if_false, reduceCtorEq, false_iff, not_and]
        exact fun fits => absurd fits.canonical canonical

variable [LawfulEd25519 VerifyingKey]

/-- `parse` inverts the layout: it accepts exactly the layouts of what both sides ask for. -/
theorem parse_eq_ok {params : Bytes} {parsed : PointerParams VerifyingKey} :
    PointerParams.parse VerifyingKey params = .ok parsed ↔
      Addressable parsed.authorVk parsed.appId ∧ params = layout parsed.authorVk parsed.appId := by
  obtain ⟨authorVk, appId⟩ := parsed
  unfold PointerParams.parse
  by_cases length : MIN_PARAMS_LEN ≤ params.length ∧ params.length ≤ MAX_PARAMS_LEN
  · rw [dif_pos length]
    have long : 32 < params.length := length.1
    have short : params.length ≤ 96 := length.2
    obtain ⟨key, rest, rfl⟩ : ∃ (key : Fixed 32) (rest : Bytes), params = key.toList ++ rest :=
      ⟨⟨params.take 32, by rw [List.length_take]; omega⟩, params.drop 32,
        (List.take_append_drop 32 params).symm⟩
    have taken : ∀ h, (⟨(key.toList ++ rest).take 32, h⟩ : Fixed 32) = key :=
      fun h => Fixed.ext (by simp)
    have dropped : (key.toList ++ rest).drop VERIFYING_KEY_LEN = rest := by simp [VERIFYING_KEY_LEN]
    have filled : rest ≠ [] := by
      rintro rfl
      simp at long
    have fits : rest.length ≤ MAX_APP_ID_LEN := by
      simp only [List.length_append, Fixed.length_toList] at short
      simp only [MAX_APP_ID_LEN]
      omega
    simp only [taken, dropped]
    constructor
    · intro accepted
      split at accepted
      · rename_i canonical
        split at accepted
        · cases accepted
        · rename_i found decoded
          split at accepted
          · cases accepted
          · rename_i strong
            split at accepted
            · cases accepted
            · rename_i plain
              cases accepted
              have own := LawfulEd25519.asBytes_of_fromBytes decoded
              exact ⟨⟨filled, fits, find_invalid_eq_none.mp plain, own ▸ canonical,
                by simpa using strong⟩, by rw [layout, own]⟩
      · cases accepted
    · rintro ⟨accepted, same⟩
      obtain ⟨sameKey, rfl⟩ := List.append_inj same (by simp)
      obtain rfl : key = Ed25519.asBytes authorVk := Fixed.ext sameKey
      have plain := find_invalid_eq_none.mpr accepted.plain
      simp only [accepted.canonical, if_true, LawfulEd25519.fromBytes_asBytes, accepted.strong,
        Bool.false_eq_true, if_false, plain]
  · rw [dif_neg length]
    simp only [reduceCtorEq, false_iff, not_and]
    rintro fits rfl
    have positive := List.length_pos_iff.mpr fits.nonempty
    have short := fits.short
    simp [layout, MIN_PARAMS_LEN, MAX_PARAMS_LEN, VERIFYING_KEY_LEN] at length short positive
    omega

theorem layout_injective {authorVk other : VerifyingKey} {appId otherId : Bytes}
    (same : layout authorVk appId = layout other otherId) : authorVk = other ∧ appId = otherId := by
  obtain ⟨sameKey, sameId⟩ := List.append_inj same (by simp)
  have decoded := LawfulEd25519.fromBytes_asBytes authorVk
  rw [Fixed.ext sameKey, LawfulEd25519.fromBytes_asBytes] at decoded
  exact ⟨(Option.some.inj decoded).symm, sameId⟩

theorem parse_of_encode {authorVk : VerifyingKey} {appId params : Bytes}
    (encoded : PointerParams.encode authorVk appId = .ok params) :
    PointerParams.parse VerifyingKey params = .ok ⟨authorVk, appId⟩ :=
  parse_eq_ok.mpr (encode_eq_ok.mp encoded)

theorem encode_of_parse {params : Bytes} {parsed : PointerParams VerifyingKey}
    (accepted : PointerParams.parse VerifyingKey params = .ok parsed) :
    PointerParams.encode parsed.authorVk parsed.appId = .ok params :=
  encode_eq_ok.mpr (parse_eq_ok.mp accepted)

section Records

omit [LawfulEd25519 VerifyingKey]

variable {params : Bytes} {parsed : PointerParams VerifyingKey}

/-- Under params that parse the consumer certifies the records the contract holds. -/
theorem certified_eq_held (accepted : PointerParams.parse VerifyingKey params = .ok parsed)
    (bytes : Bytes) :
    certified params parsed.authorVk (.state bytes) = held VerifyingKey params bytes := by
  ext record
  rw [certified_eq_some, held_eq_some, decodeVerified_eq_ok accepted, client_verify_eq,
    mapError_eq_ok, PointerFetch.state.injEq]

theorem validateState_eq_valid (accepted : PointerParams.parse VerifyingKey params = .ok parsed)
    (bytes : Bytes) :
    validateState VerifyingKey params bytes = .ok .valid ↔
      ∃ record, held VerifyingKey params bytes = some record := by
  constructor
  · intro valid
    simp only [validateState, accepted, Except.mapError, Bind.bind, Except.bind] at valid
    cases decoded : decode bytes with
    | error e => simp [decoded, Pure.pure, Except.pure] at valid
    | ok record =>
      cases verified : verify record params parsed.authorVk with
      | error e => simp [decoded, verified, Pure.pure, Except.pure] at valid
      | ok =>
        have same := decode_eq_ok.mp decoded
        exact ⟨record, held_eq_some.mpr ((decodeVerified_eq_ok accepted).mpr ⟨same, verified⟩)⟩
  · rintro ⟨record, holds⟩
    exact validateState_of_held accepted holds

end Records

section Consumer

omit [LawfulEd25519 VerifyingKey]

theorem judge_error (resolver : PointerResolver VerifyingKey) {bytes : Bytes} (filled : bytes ≠ [])
    (nothing : certified resolver.params resolver.authorVk (.state bytes) = none) :
    ∃ e, resolver.judge bytes = .error e := by
  rcases judge_uncertified resolver nothing with unavailable | failed
  · have some : bytes.isEmpty = false := by simp [filled]
    simp only [PointerResolver.judge, some, Bool.false_eq_true, if_false, Bind.bind, Except.bind,
      Pure.pure, Except.pure] at unavailable
    cases decoded : PointerClient.decode bytes with
    | error e => simp [decoded] at unavailable
    | ok record =>
      cases verified : PointerClient.verify record resolver.params resolver.authorVk with
      | error e => simp [decoded, verified] at unavailable
      | ok =>
        have certifies := certified_eq_some.mpr
          ⟨congrArg PointerFetch.state (PointerClient.decode_eq_ok.mp decoded), verified⟩
        rw [nothing] at certifies
        cases certifies
  · exact failed

omit [Ed25519 VerifyingKey] in
theorem order_neverResolved {resolver : PointerResolver VerifyingKey}
    (fresh : resolver.floor = .neverResolved) (record : PointerRecord) :
    resolver.order record = PointerResolver.adopt record := by
  simp only [PointerResolver.order, fresh, PointerFloor.neverResolved, if_true]

end Consumer

theorem resolve_neverResolved (contractId : Bytes → ContractInstanceId)
    {params appId : Bytes} {authorVk : VerifyingKey} {parsed : PointerParams VerifyingKey}
    (accepted : PointerParams.parse VerifyingKey params = .ok parsed)
    (built : pointerParams authorVk appId = .ok params) {bytes : Bytes} (filled : bytes ≠ []) :
    match held VerifyingKey params bytes with
    | some record => resolve contractId authorVk appId .neverResolved (.state bytes) =
        .ok (some (.ok (PointerResolver.adopt record)))
    | none => ∃ e, resolve contractId authorVk appId .neverResolved (.state bytes) =
        .ok (some (.error e)) := by
  have encoded := built
  rw [pointerParams_eq, mapError_eq_ok] at encoded
  obtain rfl : parsed = ⟨authorVk, appId⟩ :=
    Except.ok.inj (accepted.symm.trans (parse_of_encode encoded))
  rw [resolve_eq built, ← certified_eq_held accepted]
  cases found : certified params authorVk (.state bytes) with
  | some record =>
    obtain ⟨same, verified⟩ := certified_eq_some.mp found
    obtain rfl := PointerFetch.state.inj same
    dsimp only
    rw [verdict, judge_certified verified, order_neverResolved rfl]
  | none =>
    obtain ⟨e, failed⟩ := judge_error (armed contractId authorVk params .neverResolved) filled found
    exact ⟨e, by rw [verdict, failed]⟩

/-- Publisher, consumer and contract agree on params and on records. Both encoders rebuild what
    `parse` accepts, and `parse` reads back what they build and accepts nothing else; canonical keys
    are the ones below the field prime; and the contract's valid bodies are the ones that resolve. -/
theorem params_and_records_agree :
    (∀ (params : Bytes) (parsed : PointerParams VerifyingKey),
      PointerParams.parse VerifyingKey params = .ok parsed →
      PointerParams.encode parsed.authorVk parsed.appId = .ok params ∧
      pointerParams parsed.authorVk parsed.appId = .ok params ∧
      parsePointerParams VerifyingKey params = .ok (parsed.authorVk, parsed.appId)) ∧
    (∀ (authorVk : VerifyingKey) (appId : Bytes),
      ((∃ params, PointerParams.encode authorVk appId = .ok params) ↔ ∃ parsed,
        PointerParams.parse VerifyingKey ((Ed25519.asBytes authorVk).toList ++ appId) = .ok parsed) ∧
      ∀ params, PointerParams.encode authorVk appId = .ok params →
        ∃ parsed, PointerParams.parse VerifyingKey params = .ok parsed ∧
          Ed25519.asBytes parsed.authorVk = Ed25519.asBytes authorVk ∧ parsed.appId = appId) ∧
    (∀ key : Fixed 32, isCanonicalFieldElement key = true ↔
      littleEndian key.toList % 2 ^ 255 < 2 ^ 255 - 19) ∧
    (∀ (contractId : Bytes → ContractInstanceId) (params appId : Bytes) (authorVk : VerifyingKey)
      (parsed : PointerParams VerifyingKey), PointerParams.parse VerifyingKey params = .ok parsed →
      pointerParams authorVk appId = .ok params → ∀ bytes, bytes ≠ [] →
      (validateState VerifyingKey params bytes = .ok .valid ↔
        ∃ outcome, resolve contractId authorVk appId .neverResolved (.state bytes) =
            .ok (some (.ok outcome)) ∧
          ((∃ pointer, outcome = .resolved pointer) ∨ ∃ version, outcome = .withdrawn version)) ∧
      (validateState VerifyingKey params bytes ≠ .ok .valid →
        ∃ e, resolve contractId authorVk appId .neverResolved (.state bytes) =
          .ok (some (.error e)))) := by
  refine ⟨?_, ?_, isCanonicalFieldElement_iff, ?_⟩
  · intro params parsed accepted
    have encoded := encode_of_parse accepted
    refine ⟨encoded, ?_, ?_⟩
    · rw [pointerParams_eq, encoded]
      rfl
    · rw [parsePointerParams_eq, accepted]
      rfl
  · intro authorVk appId
    refine ⟨?_, ?_⟩
    · constructor
      · rintro ⟨params, encoded⟩
        obtain ⟨fits, rfl⟩ := encode_eq_ok.mp encoded
        exact ⟨_, parse_of_encode encoded⟩
      · rintro ⟨parsed, accepted⟩
        obtain ⟨fits, same⟩ := parse_eq_ok.mp accepted
        obtain ⟨rfl, rfl⟩ := layout_injective same
        exact ⟨_, encode_of_parse accepted⟩
    · intro params encoded
      exact ⟨_, parse_of_encode encoded, rfl, rfl⟩
  · intro contractId params appId authorVk parsed accepted built bytes filled
    have resolved := resolve_neverResolved contractId accepted built filled
    rw [Ne, validateState_eq_valid accepted]
    cases found : held VerifyingKey params bytes with
    | some record =>
      rw [found] at resolved
      refine ⟨⟨?_, fun _ => ⟨record, rfl⟩⟩, fun none => absurd ⟨record, rfl⟩ none⟩
      intro _
      refine ⟨_, resolved, ?_⟩
      unfold PointerResolver.adopt
      split
      · exact .inr ⟨_, rfl⟩
      · exact .inl ⟨_, rfl⟩
    | none =>
      rw [found] at resolved
      obtain ⟨e, failed⟩ := resolved
      refine ⟨⟨?_, ?_⟩, fun _ => ⟨e, failed⟩⟩
      · rintro ⟨record, impossible⟩
        cases impossible
      · rintro ⟨outcome, taken, -⟩
        rw [failed] at taken
        cases taken

instance : LawfulEd25519 VectorKey where
  asBytes_of_fromBytes {bytes key} decoded := by
    simp only [Ed25519.fromBytes] at decoded
    split at decoded
    · rename_i same
      exact same.symm
    · cases decoded
  fromBytes_asBytes key := by
    cases key
    decide

theorem params_and_records_agree_vector :
    PointerParams.encode VectorKey.author vectorAppId = .ok vectorParams ∧
    ∃ outcome, resolve (fun _ => Fixed.zero 32) VectorKey.author vectorAppId .neverResolved
      (.state vectorRecord.encode) = .ok (some (.ok outcome)) := by
  obtain ⟨codec, -, -, bodies⟩ := @params_and_records_agree VectorKey _ _
  obtain ⟨encoded, built, -⟩ := codec vectorParams _ parse_vectorParams
  obtain ⟨resolves, -⟩ := bodies (fun _ => Fixed.zero 32) vectorParams vectorAppId .author _
    parse_vectorParams built vectorRecord.encode vectorRecord.encode_ne_nil
  obtain ⟨outcome, taken, -⟩ :=
    resolves.mp (validateState_of_held parse_vectorParams held_vectorRecord)
  exact ⟨encoded, outcome, taken⟩

end FreenetMigrate.PointerContract
