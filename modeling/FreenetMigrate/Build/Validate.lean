import FreenetMigrate.Build.ParamsHex
import FreenetMigrate.Text.Base58

namespace FreenetMigrate.Build

open Text Outcome

/-- The base58 crate is the standard codec. Its decoder fails on other characters, and on more bytes
    than the array has room for. -/
class LawfulBs58 [Bs58] : Prop where
  encode_eq : ∀ bytes, Bs58.encode bytes = Base58.encode bytes
  onto_eq_ok : ∀ {capacity : Nat} {text : String} {bytes : Bytes},
    Bs58.onto capacity text = .ok bytes ↔ Base58.decode text = some bytes ∧ bytes.length ≤ capacity

abbrev standardBs58 : Bs58 where
  encode := Base58.encode
  onto capacity text :=
    match Base58.decode text with
    | none => .error "provided string contained invalid character"
    | some bytes =>
      if bytes.length ≤ capacity then .ok bytes
      else .error "buffer provided to decode base58 encoded string into was too small"

theorem standardBs58_lawful : @LawfulBs58 standardBs58 := by
  let _ := standardBs58
  refine ⟨fun _ => rfl, ?_⟩
  intro capacity text bytes
  change (match Base58.decode text with | none => _ | some bytes => _) = _ ↔ _
  cases Base58.decode text with
  | none => simp
  | some found =>
    by_cases room : found.length ≤ capacity
    · simp only [if_pos room, Except.ok.injEq, Option.some.injEq]
      constructor
      · rintro rfl
        exact ⟨rfl, room⟩
      · exact And.left
    · simp only [if_neg room, reduceCtorEq, Option.some.injEq, false_iff, not_and]
      rintro rfl
      exact room

theorem filled_toList {n : Nat} {bytes : Bytes} (length : bytes.length = n) :
    (filled n bytes).toList = bytes := by
  unfold filled
  exact List.take_left' length

/-- The length tells the encodings of thirty-two bytes apart. -/
theorem not_spells_and_base58 {text : String} {bytes others : Fixed 32}
    (spells : Spells text.toList bytes.toList) :
    Base58.decode text ≠ some others.toList := by
  intro decoded
  have long := spells.length_eq
  rw [bytes.length_toList, ← Base58.encode_of_decode decoded] at long
  have short := Base58.length_encode_le others.length_toList
  omega

section Hashes

variable [Bs58]

theorem decodeHash32_hex {value : String} {hash : Fixed 32} (length : len value.toList = 64)
    (digits : ∀ c ∈ value.toList, IsHexDigit c) :
    decodeHash32 value = pure hash ↔ Spells value.toList hash.toList := by
  have ascii := isAscii_of_hexText digits
  rw [len_of_ascii ascii] at length
  have reads : Reads value.toList (decodePairs value.toList (List.range' 0 32 2)) :=
    @decodePairs_of_ascii [] value.toList 32 ascii length
  unfold decodeHash32
  dsimp only
  rw [if_pos ⟨by rw [len_of_ascii ascii, length], List.all_eq_true.mpr digits⟩, bind_eq_pure]
  constructor
  · rintro ⟨bytes, read, same⟩
    rw [adapt_eq_pure, reads.eq_pure, unsign_of_hexText digits] at read
    have whole : bytes.length = 32 := by
      have count := read.length_eq
      omega
    rw [← pure_inj.mp same, filled_toList whole]
    exact read
  · intro spells
    refine ⟨hash.toList, ?_, ?_⟩
    · rw [adapt_eq_pure, reads.eq_pure, unsign_of_hexText digits]
      exact spells
    · rw [pure_inj]
      exact Fixed.ext (filled_toList hash.length_toList)

theorem decodeHash32_base58 [LawfulBs58] {value : String} {hash : Fixed 32}
    (other : ¬ (len value.toList = 64 ∧ ∀ c ∈ value.toList, IsHexDigit c)) :
    decodeHash32 value = pure hash ↔ Base58.decode value = some hash.toList := by
  unfold decodeHash32
  dsimp only
  rw [if_neg fun hexForm => other ⟨hexForm.1, List.all_eq_true.mp hexForm.2⟩, bind_eq_pure]
  cases written : Bs58.onto 32 value with
  | error e =>
    simp only [Except.mapError, ofExcept_error]
    constructor
    · rintro ⟨bytes, impossible, -⟩
      exact absurd impossible throw_ne_pure
    · intro decoded
      have wrote := LawfulBs58.onto_eq_ok.mpr ⟨decoded, hash.length_toList.le⟩
      rw [written] at wrote
      cases wrote
  | ok bytes =>
    have decoded := (LawfulBs58.onto_eq_ok.mp written).1
    simp only [Except.mapError, ofExcept_ok, pure_inj, exists_eq_left', decoded, Option.some.injEq]
    by_cases whole : bytes.length = 32
    · rw [if_neg (by simpa using whole)]
      simp only [pure_inj]
      rw [← Fixed.toList_injective.eq_iff, filled_toList whole]
    · rw [if_pos whole]
      constructor
      · intro impossible
        exact absurd impossible throw_ne_pure
      · rintro rfl
        exact absurd hash.length_toList whole

theorem decodeHash32_eq_pure [LawfulBs58] {value : String} {hash : Fixed 32} :
    decodeHash32 value = pure hash ↔
      Spells value.toList hash.toList ∨ Base58.decode value = some hash.toList := by
  by_cases hexForm : len value.toList = 64 ∧ ∀ c ∈ value.toList, IsHexDigit c
  · rw [decodeHash32_hex hexForm.1 hexForm.2]
    constructor
    · exact .inl
    · rintro (spells | decoded)
      · exact spells
      · have short := Base58.length_encode_le hash.length_toList
        rw [Base58.encode_of_decode decoded, ← len_of_ascii (isAscii_of_hexText hexForm.2)] at short
        omega
  · rw [decodeHash32_base58 hexForm]
    constructor
    · exact .inr
    · rintro (spells | decoded)
      · have digits := ((hexText_iff _).mpr ⟨_, spells⟩).2
        have length := spells.length_eq
        rw [hash.length_toList, ← len_of_ascii (isAscii_of_hexText digits)] at length
        exact absurd ⟨length, digits⟩ hexForm
      · exact decoded

theorem seeRow_eq_pure {component : String} {seen next : List UInt32 × List (Fixed 32)}
    {row : UInt32 × String} :
    seeRow component seen row = pure next ↔ ∃ decoded, decodeHash32 row.2 = pure decoded ∧
      row.1 ∉ seen.1 ∧ decoded ∉ seen.2 ∧ next = (row.1 :: seen.1, decoded :: seen.2) := by
  unfold seeRow
  rw [bind_eq_pure]
  apply exists_congr
  intro decoded
  apply and_congr_right
  intro _
  by_cases generation : row.1 ∈ seen.1
  · simp [generation, throw_ne_pure]
  by_cases hash : decoded ∈ seen.2
  · simp [generation, hash, throw_ne_pure]
  · simp [generation, hash, pure_inj, eq_comm]

theorem foldlM_seeRow {component : String} {rows : List (UInt32 × String)}
    {seen : List UInt32 × List (Fixed 32)} :
    (∃ next, rows.foldlM (seeRow component) seen = pure next) ↔
      (∀ row ∈ rows, ∃ hash, decodeHash32 row.2 = pure hash ∧ row.1 ∉ seen.1 ∧ hash ∉ seen.2) ∧
        (rows.map Prod.fst).Nodup ∧ (rows.map fun row => decodeHash32 row.2).Nodup := by
  induction rows generalizing seen with
  | nil => simp
  | cons row rest ih =>
    have first : (∃ next, (row :: rest).foldlM (seeRow component) seen = pure next) ↔
        ∃ hash, (decodeHash32 row.2 = pure hash ∧ row.1 ∉ seen.1 ∧ hash ∉ seen.2) ∧
          ∃ next, rest.foldlM (seeRow component) (row.1 :: seen.1, hash :: seen.2) = pure next := by
      simp only [List.foldlM_cons, bind_eq_pure, seeRow_eq_pure]
      constructor
      · rintro ⟨next, -, ⟨hash, read, generation, fresh, rfl⟩, others⟩
        exact ⟨hash, ⟨read, generation, fresh⟩, next, others⟩
      · rintro ⟨hash, ⟨read, generation, fresh⟩, next, others⟩
        exact ⟨next, _, ⟨hash, read, generation, fresh, rfl⟩, others⟩
    rw [first, List.forall_mem_cons]
    simp only [ih, List.map_cons, List.nodup_cons, List.mem_cons, not_or, List.mem_map, not_exists,
      not_and]
    constructor
    · rintro ⟨hash, fresh, others, generations, hashes⟩
      refine ⟨⟨⟨hash, fresh⟩, ?_⟩, ⟨?_, generations⟩, ?_, hashes⟩
      · intro other member
        obtain ⟨found, read, later, apart⟩ := others other member
        exact ⟨found, read, later.2, apart.2⟩
      · intro other member same
        obtain ⟨found, -, later, -⟩ := others other member
        exact later.1 same
      · intro other member same
        obtain ⟨found, read, -, apart⟩ := others other member
        rw [read, fresh.1, pure_inj] at same
        exact apart.1 same
    · rintro ⟨⟨⟨hash, fresh⟩, others⟩, ⟨later, generations⟩, apart, hashes⟩
      refine ⟨hash, fresh, ?_, generations, hashes⟩
      intro other member
      obtain ⟨found, read, unseen, new⟩ := others other member
      refine ⟨found, read, ⟨later other member, unseen⟩, ?_, new⟩
      rintro rfl
      exact apart other member (read.trans fresh.1.symm)

theorem validateUnique_eq_pure {component : String} {rows : List (UInt32 × String)} :
    validateUnique component rows = pure () ↔
      (∀ row ∈ rows, ∃ hash, decodeHash32 row.2 = pure hash) ∧
        (rows.map Prod.fst).Nodup ∧ (rows.map fun row => decodeHash32 row.2).Nodup := by
  have fold := @foldlM_seeRow _ component rows ([], [])
  simp only [List.not_mem_nil, not_false_eq_true, and_true] at fold
  rw [← fold]
  unfold validateUnique
  rw [bind_eq_pure]
  exact ⟨fun ⟨next, passes, _⟩ => ⟨next, passes⟩, fun ⟨next, passes⟩ => ⟨next, passes, rfl⟩⟩

end Hashes

section Keys

variable [Bs58] [Blake3]

/-- Everything in the row decodes, and the flag tells whether its key is the derived one. -/
def DelegateRow.Valid (row : DelegateRow) : Prop :=
  ∃ codeHash delegateKey params, row.codeHashBytes = pure codeHash ∧
    row.delegateKeyBytes = pure delegateKey ∧ row.paramsBytes = pure params ∧
      (deriveDelegateKey codeHash params = delegateKey ↔ row.irregularKey = false)

theorem DelegateRow.checkKey_eq_pure (row : DelegateRow) :
    row.checkKey = pure () ↔ row.Valid := by
  unfold checkKey Valid
  simp only [bind_eq_pure]
  constructor
  · rintro ⟨codeHash, code, delegateKey, key, params, read, check⟩
    refine ⟨codeHash, delegateKey, params, code, key, read, ?_⟩
    by_cases derives : deriveDelegateKey codeHash params = delegateKey
    · cases flag : row.irregularKey with
      | false => exact iff_of_true derives rfl
      | true =>
        rw [if_pos ⟨flag, derives⟩] at check
        exact absurd check throw_ne_pure
    · cases flag : row.irregularKey with
      | true => simp [derives]
      | false =>
        rw [if_neg (fun both => derives both.2), if_pos ⟨flag, derives⟩] at check
        exact absurd check throw_ne_pure
  · rintro ⟨codeHash, delegateKey, params, code, key, read, exact⟩
    refine ⟨codeHash, code, delegateKey, key, params, read, ?_⟩
    have stale : ¬ (row.irregularKey = true ∧ deriveDelegateKey codeHash params = delegateKey) := by
      rintro ⟨flag, derives⟩
      rw [exact.mp derives] at flag
      cases flag
    have wrong : ¬ (row.irregularKey = false ∧ deriveDelegateKey codeHash params ≠ delegateKey) :=
      fun both => both.2 (exact.mpr both.1)
    rw [if_neg stale, if_neg wrong]

namespace Registry

/-- What validation asks of a registry. Code hashes are compared as they decode. -/
structure Valid (registry : Registry) : Prop where
  contractHashes : ∀ row ∈ registry.contract, ∃ hash, row.codeHashBytes = pure hash
  contractGenerations : (registry.contract.map (·.generation)).Nodup
  contractDistinct : (registry.contract.map (·.codeHashBytes)).Nodup
  delegateGenerations : (registry.delegate.map (·.generation)).Nodup
  delegateDistinct : (registry.delegate.map (·.codeHashBytes)).Nodup
  delegateRows : ∀ row ∈ registry.delegate, row.Valid

theorem validate_eq_pure (registry : Registry) : registry.validate = pure () ↔ registry.Valid := by
  have codeHashes (rows : List DelegateRow) (valid : ∀ row ∈ rows, row.Valid) :
      ∀ row ∈ rows, ∃ hash, row.codeHashBytes = pure hash := by
    intro row member
    obtain ⟨codeHash, delegateKey, params, code, -⟩ := valid row member
    exact ⟨codeHash, code⟩
  unfold validate
  rw [then_eq_pure, then_eq_pure, validateUnique_eq_pure, validateUnique_eq_pure, forM_eq_pure]
  simp only [DelegateRow.checkKey_eq_pure, List.map_map, List.forall_mem_map]
  constructor
  · rintro ⟨⟨contracts, generations, hashes⟩, ⟨-, others, codes⟩, rows⟩
    exact ⟨contracts, generations, hashes, others, codes, rows⟩
  · rintro ⟨contracts, generations, hashes, others, codes, rows⟩
    exact ⟨⟨contracts, generations, hashes⟩, ⟨codeHashes _ rows, others, codes⟩, rows⟩

end Registry

/-- A hash is read in hex of any case and in base58, and in no way twice. A registry passes exactly
    where it is valid. -/
theorem validate_exact [LawfulBs58] :
    (∀ (value : String) (hash : Fixed 32), Spells value.toList hash.toList →
      decodeHash32 value = pure hash) ∧
    (∀ hash : Fixed 32, decodeHash32 (Bs58.encode hash.toList) = pure hash) ∧
    (∀ (value : String) (hash other : Fixed 32), Spells value.toList hash.toList →
      Bs58.onto 32 value ≠ .ok other.toList) ∧
    ∀ registry : Registry, registry.validate = pure () ↔ registry.Valid := by
  refine ⟨?_, ?_, ?_, Registry.validate_eq_pure⟩
  · intro value hash spells
    exact decodeHash32_eq_pure.mpr (.inl spells)
  · intro hash
    rw [LawfulBs58.encode_eq]
    exact decodeHash32_eq_pure.mpr (.inr (Base58.decode_encode _))
  · intro value hash other spells decoded
    exact not_spells_and_base58 spells (LawfulBs58.onto_eq_ok.mp decoded).1

end Keys

def riverV2CodeHash : Fixed 32 :=
  ⟨[0xcf, 0xb9, 0x77, 0x4c, 0x03, 0xcd, 0x95, 0x42, 0x49, 0x55, 0xad, 0xab, 0x70, 0xa4, 0x1d, 0x75,
      0x75, 0xcd, 0x33, 0x12, 0xf0, 0x9f, 0xd3, 0xf1, 0x6d, 0x6e, 0xf5, 0x48, 0xba, 0x8c, 0xf0, 0x51], rfl⟩

def riverV2DelegateKey : Fixed 32 :=
  ⟨[0xe3, 0xad, 0x5c, 0x5b, 0x1a, 0x82, 0x10, 0x89, 0x53, 0x6b, 0xe8, 0x4d, 0x67, 0x43, 0x29, 0xb3,
      0x7f, 0x46, 0xd2, 0xfb, 0xa3, 0xe7, 0x02, 0x60, 0x08, 0xfa, 0xe8, 0x5f, 0x35, 0x56, 0x51, 0x1f], rfl⟩

def riverV2 : Registry where
  contract := []
  delegate := [⟨2, "cfb9774c03cd95424955adab70a41d7575cd3312f09fd3f16d6ef548ba8cf051",
    "e3ad5c5b1a821089536be84d674329b37f46d2fba3e7026008fae85f3556511f", "", false, "V2"⟩]

theorem validate_exact_riverV2 :
    @Registry.validate standardBs58 ⟨fun _ => riverV2DelegateKey⟩ riverV2 = pure () := by
  let _ := standardBs58
  let _ : Blake3 := ⟨fun _ => riverV2DelegateKey⟩
  have := standardBs58_lawful
  have code : decodeHash32 "cfb9774c03cd95424955adab70a41d7575cd3312f09fd3f16d6ef548ba8cf051" =
      pure riverV2CodeHash := validate_exact.1 _ _ (by unfold Spells; decide +kernel)
  have key : decodeHash32 "e3ad5c5b1a821089536be84d674329b37f46d2fba3e7026008fae85f3556511f" =
      pure riverV2DelegateKey := validate_exact.1 _ _ (by unfold Spells; decide +kernel)
  refine (validate_exact.2.2.2 riverV2).mpr ⟨by simp [riverV2], by simp [riverV2], by simp [riverV2],
    by simp [riverV2], by simp [riverV2], ?_⟩
  intro row member
  obtain rfl := List.mem_singleton.mp member
  exact ⟨_, _, [], code, key, rfl, iff_of_true rfl rfl⟩

end FreenetMigrate.Build
