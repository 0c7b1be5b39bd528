import FreenetMigrate.Pointer.Convergence

namespace FreenetMigrate.PointerContract

open Pointer Joins

/-- The errors the platform takes for a stale rebroadcast and answers with a summary. -/
def ContractError.IsInvalidUpdate : ContractError → Prop
  | .invalidUpdate | .invalidUpdateWithInfo _ => True
  | _ => False

def IsCandidate (data : List UpdateData) (bytes : Bytes) : Prop :=
  ∃ update ∈ data, update.payload = some bytes ∧ bytes ≠ []

variable {VerifyingKey : Type} [Ed25519 VerifyingKey] {params : Bytes}

def Flawed (params : Bytes) (authorVk : VerifyingKey) (bytes : Bytes) : Prop :=
  bytes.length ≠ STATE_LEN ∨ ∃ record : PointerRecord, bytes = record.encode ∧
    (record.version = 0 ∨ record.version = 4294967295 ∨ record.signature = Fixed.zero 64 ∨
      Ed25519.verifyStrict authorVk (signingMessage params record.version record.codeHash)
        record.signature = false)

theorem reserved_iff (version : UInt32) : MAX_VERSION < version ↔ version = 4294967295 := by
  rw [UInt32.lt_iff_toNat_lt, ← UInt32.toNat_inj]
  have bound := version.toNat_lt
  have most : MAX_VERSION.toNat = 4294967294 := rfl
  have reserved : (4294967295 : UInt32).toNat = 4294967295 := rfl
  omega

theorem verify_eq_ok {record : PointerRecord} {authorVk : VerifyingKey} :
    verify record params authorVk = .ok () ↔ record.version ≠ 0 ∧ record.version ≠ 4294967295 ∧
      record.signature ≠ Fixed.zero 64 ∧
      Ed25519.verifyStrict authorVk (signingMessage params record.version record.codeHash)
        record.signature = true := by
  unfold verify
  simp only [reserved_iff]
  by_cases zero : record.version = 0
  · simp [zero]
  by_cases reserved : record.version = 4294967295
  · simp [reserved]
  by_cases unset : record.signature = Fixed.zero 64
  · simp [zero, reserved, unset]
  · simp [zero, reserved, unset]

variable {parsed : PointerParams VerifyingKey}

theorem flawed_iff (accepted : PointerParams.parse VerifyingKey params = .ok parsed) {bytes : Bytes} :
    Flawed params parsed.authorVk bytes ↔ held VerifyingKey params bytes = none := by
  by_cases length : bytes.length = STATE_LEN
  · obtain ⟨record, rfl⟩ : ∃ record : PointerRecord, bytes = record.encode :=
      ⟨.ofBytes bytes length, by simp⟩
    have only : ∀ other : PointerRecord, record.encode = other.encode → other = record :=
      fun other same => (PointerRecord.encode_injective same).symm
    have good : held VerifyingKey params record.encode ≠ none ↔
        verify record params parsed.authorVk = .ok () := by
      rw [Option.ne_none_iff_exists']
      constructor
      · rintro ⟨other, holds⟩
        obtain ⟨same, verified⟩ := (decodeVerified_eq_ok accepted).mp (held_eq_some.mp holds)
        exact only other same ▸ verified
      · intro verified
        exact ⟨record, held_eq_some.mpr ((decodeVerified_eq_ok accepted).mpr ⟨rfl, verified⟩)⟩
    rw [← not_iff_not, ← ne_eq (held VerifyingKey params record.encode), good, verify_eq_ok]
    unfold Flawed
    constructor
    · intro sound
      push Not at sound
      simpa using sound.2 record rfl
    · rintro ⟨zero, reserved, unset, verified⟩ (wrong | ⟨other, same, failing⟩)
      · exact wrong record.encode_length
      · obtain rfl := only other same
        simp [zero, reserved, unset, verified] at failing
  · have nothing : held VerifyingKey params bytes = none := by
      cases holds : held VerifyingKey params bytes with
      | none => rfl
      | some record => exact absurd (held_encode holds ▸ record.encode_length) length
    simp only [nothing, iff_true]
    exact .inl length

theorem onlyVerified_iff (accepted : PointerParams.parse VerifyingKey params = .ok parsed)
    {data : List UpdateData} :
    OnlyVerified VerifyingKey params data ↔
      ∀ bytes, IsCandidate data bytes → ¬ Flawed params parsed.authorVk bytes := by
  simp only [flawed_iff accepted, ← ne_eq, Option.ne_none_iff_exists']
  constructor
  · rintro verified bytes ⟨update, member, payload, nonempty⟩
    exact (verified update member bytes payload).resolve_left nonempty
  · intro sound update member bytes payload
    by_cases empty : bytes = []
    · exact .inl empty
    · exact .inr (sound bytes ⟨update, member, payload, empty⟩)

/-- A fold ends in an error as soon as one element is refused from every accumulator, and the
    error is one that some step raises. -/
theorem foldlM_error {α β ε : Type} (step : β → α → Except ε β) {raised : ε → Prop}
    (raises : ∀ acc a error, step acc a = .error error → raised error) (items : List α)
    (refused : ∃ a ∈ items, ∀ acc, ∃ error, step acc a = .error error) (start : β) :
    ∃ error, items.foldlM step start = .error error ∧ raised error := by
  induction items generalizing start with
  | nil =>
    obtain ⟨a, member, -⟩ := refused
    cases member
  | cons head rest ih =>
    rw [List.foldlM_cons]
    cases first : step start head with
    | error error => exact ⟨error, rfl, raises start head error first⟩
    | ok next =>
      apply ih
      obtain ⟨a, member, refuses⟩ := refused
      rcases List.mem_cons.mp member with rfl | member
      · obtain ⟨error, refusal⟩ := refuses start
        rw [first] at refusal
        cases refusal
      · exact ⟨a, member, refuses⟩

theorem applyUpdate_error {authorVk : VerifyingKey} {progress : Option PointerRecord × Bool}
    {update : UpdateData} {error : ContractError}
    (refusal : applyUpdate params authorVk progress update = .error error) :
    ¬ error.IsInvalidUpdate := by
  unfold applyUpdate at refusal
  split at refusal
  · cases refusal
  · rename_i bytes payload
    split at refusal
    · cases refusal
    · cases decoded : decode bytes with
      | error e =>
        simp only [decoded, Except.mapError, Bind.bind, Except.bind, Except.error.injEq] at refusal
        subst refusal
        exact id
      | ok record =>
        cases verified : verify record params authorVk with
        | error e =>
          simp only [decoded, verified, Except.mapError, Bind.bind, Except.bind,
            Except.error.injEq] at refusal
          subst refusal
          exact id
        | ok =>
          simp [decoded, verified, Except.mapError, Bind.bind, Except.bind, Pure.pure,
            Except.pure] at refusal

theorem applyUpdate_flawed (accepted : PointerParams.parse VerifyingKey params = .ok parsed)
    {update : UpdateData} {bytes : Bytes} (payload : update.payload = some bytes)
    (nonempty : bytes ≠ []) (flawed : Flawed params parsed.authorVk bytes)
    (progress : Option PointerRecord × Bool) :
    ∃ error, applyUpdate params parsed.authorVk progress update = .error error := by
  have unusable := (flawed_iff accepted).mp flawed
  have filled : bytes.isEmpty = false := by simp [nonempty]
  simp only [applyUpdate, payload, filled, Bool.false_eq_true, if_false]
  cases decoded : decode bytes with
  | error e => exact ⟨_, rfl⟩
  | ok record =>
    cases verified : verify record params parsed.authorVk with
    | error e => exact ⟨_, by simp only [Except.mapError, verified, Bind.bind, Except.bind]; rfl⟩
    | ok =>
      have holds : held VerifyingKey params bytes = some record :=
        held_eq_some.mpr ((decodeVerified_eq_ok accepted).mpr ⟨decode_eq_ok.mp decoded, verified⟩)
      rw [unusable] at holds
      cases holds

/-- One flawed candidate fails the call, wherever it stands and whatever the others are. -/
theorem updateState_flawed (accepted : PointerParams.parse VerifyingKey params = .ok parsed)
    (state : Bytes) {data : List UpdateData} {bytes : Bytes} (candidate : IsCandidate data bytes)
    (flawed : Flawed params parsed.authorVk bytes) :
    ∃ error, updateState VerifyingKey params state data = .error error ∧ ¬ error.IsInvalidUpdate := by
  obtain ⟨update, member, payload, nonempty⟩ := candidate
  obtain ⟨error, failed, benign⟩ := foldlM_error (applyUpdate params parsed.authorVk)
    (fun _ _ _ refusal => applyUpdate_error refusal) data
    ⟨update, member, applyUpdate_flawed accepted payload nonempty flawed⟩
    ((decodeVerified VerifyingKey state params).toOption, false)
  refine ⟨error, ?_, benign⟩
  simp only [updateState, accepted, Except.mapError, Bind.bind, Except.bind, failed]

/-- What the fold keeps of a batch without flaws: a record that was held or put forward, and that
    every other one of these loses to. -/
theorem updateState_sound (accepted : PointerParams.parse VerifyingKey params = .ok parsed)
    {state next : Bytes} {data : List UpdateData} (verified : OnlyVerified VerifyingKey params data)
    (updated : updateState VerifyingKey params state data = .ok next) :
    ∃ winner, next = winner.encode ∧ IsGreatest (everHeld (held VerifyingKey params state)
      (candidates VerifyingKey params data)) winner := by
  rw [updateState_verified accepted verified] at updated
  cases kept : keepGreatest (held VerifyingKey params state) (candidates VerifyingKey params data) with
  | none =>
    rw [kept] at updated
    cases updated
  | some winner =>
    rw [kept] at updated
    refine ⟨winner, (Except.ok.inj updated).symm, ?_⟩
    obtain ⟨value, same, greatest⟩ := keepGreatest_isGreatest _ _ ⟨winner, mem_of_keepGreatest kept⟩
    rw [kept] at same
    exact Option.some.inj same ▸ greatest

theorem mem_everHeld {state : Bytes} {data : List UpdateData} {record : PointerRecord} :
    record ∈ everHeld (held VerifyingKey params state) (candidates VerifyingKey params data) ↔
      held VerifyingKey params state = some record ∨
        ∃ bytes, IsCandidate data bytes ∧ held VerifyingKey params bytes = some record := by
  apply or_congr_right
  rw [mem_candidates]
  constructor
  · rintro ⟨update, member, bytes, payload, holds⟩
    exact ⟨bytes, ⟨update, member, payload, held_encode holds ▸ record.encode_ne_nil⟩, holds⟩
  · rintro ⟨bytes, ⟨update, member, payload, -⟩, holds⟩
    exact ⟨update, member, bytes, payload, holds⟩

theorem validateState_of_held (accepted : PointerParams.parse VerifyingKey params = .ok parsed)
    {bytes : Bytes} {record : PointerRecord} (holds : held VerifyingKey params bytes = some record) :
    validateState VerifyingKey params bytes = .ok .valid := by
  obtain ⟨rfl, verified⟩ := (decodeVerified_eq_ok accepted).mp (held_eq_some.mp holds)
  simp only [validateState, accepted, decode_eq_ok.mpr rfl, Except.mapError, verified, Bind.bind,
    Except.bind, Pure.pure, Except.pure]

/-- Without a record to keep a batch without flaws fails, and that is the only way it does. -/
theorem updateState_error (accepted : PointerParams.parse VerifyingKey params = .ok parsed)
    {state : Bytes} {data : List UpdateData} (verified : OnlyVerified VerifyingKey params data) :
    (∃ error, updateState VerifyingKey params state data = .error error) ↔
      held VerifyingKey params state = none ∧ ∀ bytes, ¬ IsCandidate data bytes := by
  have empty : (∀ bytes, ¬ IsCandidate data bytes) ↔ candidates VerifyingKey params data = [] := by
    rw [List.eq_nil_iff_forall_not_mem]
    constructor
    · intro none record member
      obtain ⟨update, inBatch, bytes, payload, holds⟩ := mem_candidates.mp member
      exact none bytes ⟨update, inBatch, payload, held_encode holds ▸ record.encode_ne_nil⟩
    · rintro none bytes ⟨update, inBatch, payload, nonempty⟩
      obtain ⟨record, holds⟩ := (verified update inBatch bytes payload).resolve_left nonempty
      exact none record (mem_candidates.mpr ⟨update, inBatch, bytes, payload, holds⟩)
  rw [updateState_verified accepted verified, empty]
  cases holds : held VerifyingKey params state with
  | some record =>
    obtain ⟨winner, kept, -⟩ := keepGreatest_some record (candidates VerifyingKey params data)
    simp [kept]
  | none =>
    cases put : candidates VerifyingKey params data with
    | nil => simp
    | cons first rest =>
      obtain ⟨winner, kept, -⟩ := keepGreatest_some first rest
      have same : keepGreatest none (first :: rest) = some winner := kept
      simp [same]

variable {state next : Bytes} {data : List UpdateData}

/-- What is stored is valid, loses to nothing verified, and is bytes that were already there. -/
theorem updateState_stored (accepted : PointerParams.parse VerifyingKey params = .ok parsed)
    (verified : OnlyVerified VerifyingKey params data)
    (updated : updateState VerifyingKey params state data = .ok next) :
    validateState VerifyingKey params next = .ok .valid ∧
    (∃ winner, held VerifyingKey params next = some winner ∧ ∀ rival,
      held VerifyingKey params state = some rival ∨
        (∃ bytes, IsCandidate data bytes ∧ held VerifyingKey params bytes = some rival) →
      merge winner rival = winner ∧ merge rival winner = winner) ∧
    ((∃ record, held VerifyingKey params state = some record) ∧ next = state ∨
      IsCandidate data next) := by
  obtain ⟨winner, rfl, member, bound⟩ := updateState_sound accepted verified updated
  have source := mem_everHeld.mp member
  have readable : held VerifyingKey params winner.encode = some winner := by
    rcases source with holds | ⟨bytes, -, holds⟩ <;> exact held_encode_of_held holds
  refine ⟨validateState_of_held accepted readable, ⟨winner, readable, ?_⟩, ?_⟩
  · intro rival seen
    have below : rival ≤ winner := bound (mem_everHeld.mpr seen)
    rw [merge_eq_max, merge_eq_max]
    exact ⟨max_eq_left below, max_eq_right below⟩
  · rcases source with holds | ⟨bytes, candidate, holds⟩
    · exact .inl ⟨⟨winner, holds⟩, (held_encode holds).symm⟩
    · exact .inr (held_encode holds ▸ candidate)

theorem updateState_empty (accepted : PointerParams.parse VerifyingKey params = .ok parsed)
    (verified : OnlyVerified VerifyingKey params data) {error : ContractError}
    (failed : updateState VerifyingKey params state data = .error error) :
    ¬ error.IsInvalidUpdate ∧ (∀ bytes, ¬ IsCandidate data bytes) ∧
      held VerifyingKey params state = none := by
  obtain ⟨unusable, none⟩ := (updateState_error accepted verified).mp ⟨error, failed⟩
  refine ⟨?_, none, unusable⟩
  rw [updateState_verified accepted verified] at failed
  split at failed
  · cases failed
  · cases failed
    exact id

theorem exists_flawed (accepted : PointerParams.parse VerifyingKey params = .ok parsed)
    (unverified : ¬ OnlyVerified VerifyingKey params data) :
    ∃ bytes, IsCandidate data bytes ∧ Flawed params parsed.authorVk bytes := by
  by_contra none
  push Not at none
  exact unverified ((onlyVerified_iff accepted).mpr none)

/-- `update_state` is monotone, closed and all-or-nothing. What it stores is valid, is the bytes of
    the old verified record or of a candidate, and loses to none of them; it fails exactly on a
    flawed candidate or with nothing to store, and never with an error that is answered. -/
theorem updateState_monotone_closed (accepted : PointerParams.parse VerifyingKey params = .ok parsed)
    (state : Bytes) (data : List UpdateData) :
    (∀ next, updateState VerifyingKey params state data = .ok next →
      validateState VerifyingKey params next = .ok .valid ∧
      (∃ winner, held VerifyingKey params next = some winner ∧ ∀ rival,
        held VerifyingKey params state = some rival ∨
          (∃ bytes, IsCandidate data bytes ∧ held VerifyingKey params bytes = some rival) →
        merge winner rival = winner ∧ merge rival winner = winner) ∧
      ((∃ record, held VerifyingKey params state = some record) ∧ next = state ∨
        IsCandidate data next)) ∧
    (∀ bytes, IsCandidate data bytes → Flawed params parsed.authorVk bytes →
      ∃ error, updateState VerifyingKey params state data = .error error) ∧
    (∀ error, updateState VerifyingKey params state data = .error error →
      ¬ error.IsInvalidUpdate ∧
      ((∃ bytes, IsCandidate data bytes ∧ Flawed params parsed.authorVk bytes) ∨
        (∀ bytes, ¬ IsCandidate data bytes) ∧ held VerifyingKey params state = none)) := by
  by_cases verified : OnlyVerified VerifyingKey params data
  · have sound := (onlyVerified_iff accepted).mp verified
    refine ⟨fun next => updateState_stored accepted verified, ?_, ?_⟩
    · intro bytes candidate flawed
      exact absurd flawed (sound bytes candidate)
    · intro error failed
      obtain ⟨benign, empty⟩ := updateState_empty accepted verified failed
      exact ⟨benign, .inr empty⟩
  · obtain ⟨bytes, candidate, flawed⟩ := exists_flawed accepted verified
    obtain ⟨error, failed, benign⟩ := updateState_flawed accepted state candidate flawed
    refine ⟨?_, fun _ _ _ => ⟨error, failed⟩, ?_⟩
    · intro next updated
      rw [failed] at updated
      cases updated
    · intro other same
      rw [failed] at same
      cases same
      exact ⟨benign, .inl ⟨bytes, candidate, flawed⟩⟩

/-- The published record stands, and one flawed payload behind it fails the whole call. -/
theorem updateState_monotone_closed_vector :
    validateState VectorKey vectorParams vectorRecord.encode = .ok .valid ∧
    ∃ error, updateState VectorKey vectorParams []
      [.state vectorRecord.encode, .delta [], .delta [1]] = .error error := by
  have stands : updateState VectorKey vectorParams [] [.state vectorRecord.encode] =
      .ok vectorRecord.encode := by decide +kernel
  have flawed : Flawed vectorParams VectorKey.author [1] := .inl (by decide)
  have candidate : IsCandidate [.state vectorRecord.encode, .delta [], .delta [1]] [1] :=
    ⟨.delta [1], by simp, rfl, by simp⟩
  exact ⟨((updateState_monotone_closed parse_vectorParams [] _).1 _ stands).1,
    (updateState_monotone_closed parse_vectorParams [] _).2.1 [1] candidate flawed⟩

end FreenetMigrate.PointerContract
