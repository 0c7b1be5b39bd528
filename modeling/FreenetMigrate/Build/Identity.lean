import FreenetMigrate.Build.Lineage
import FreenetMigrate.Migrate.SecretStore
import FreenetMigrate.Journal.Operations

namespace FreenetMigrate.Build

open Text Outcome Migrate Journal MigrationJournal

/-- No row marked irregular records the key of another row. -/
def RecordsApart (lineage : List DelegateConst) : Prop :=
  lineage.Pairwise fun row other => row.irregularKey = true ∨ other.irregularKey = true →
    row.delegateKey ≠ other.delegateKey

instance (lineage : List DelegateConst) : Decidable (RecordsApart lineage) :=
  inferInstanceAs (Decidable (List.Pairwise _ _))

def RegularApart (lineage : List DelegateConst) : Prop :=
  lineage.Pairwise fun row other => row.irregularKey = false → other.irregularKey = false →
    row.delegateKey ≠ other.delegateKey

theorem nodup_map_iff {marker : DelegateKey → Bytes} {lineage : List DelegateConst}
    (exact : ∀ {p q : DelegateKey}, marker p = marker q ↔ p.bytes = q.bytes) :
    (lineage.map fun row => marker (lineageKey row.entry)).Nodup ↔
      (lineage.map DelegateConst.delegateKey).Nodup := by
  rw [List.Nodup, List.Nodup, List.pairwise_map, List.pairwise_map]
  simp only [ne_eq, exact, lineageKey_bytes]
  rfl

theorem delegateKey_nodup_iff {lineage : List DelegateConst} (regular : RegularApart lineage) :
    (lineage.map DelegateConst.delegateKey).Nodup ↔ RecordsApart lineage := by
  rw [List.Nodup, List.pairwise_map]
  constructor
  · intro distinct
    exact distinct.imp fun apart => fun _ => apart
  · intro recorded
    apply (regular.and recorded).imp
    rintro row other ⟨derived, trusted⟩
    cases first : row.irregularKey with
    | true => exact trusted (.inl first)
    | false =>
      cases second : other.irregularKey with
      | true => exact trusted (.inr second)
      | false => exact derived first second

section Registries

variable [Bs58] [Blake3]

def Registry.DerivesApart (registry : Registry) : Prop :=
  ∀ row ∈ registry.delegate, ∀ other ∈ registry.delegate, ∀ codeHash params codeHash' params',
    row.codeHashBytes = pure codeHash → row.paramsBytes = pure params →
    other.codeHashBytes = pure codeHash' → other.paramsBytes = pure params' →
    deriveDelegateKey codeHash params = deriveDelegateKey codeHash' params' →
    codeHash = codeHash' ∧ params = params'

theorem Registry.Valid.regularApart {registry : Registry} (valid : registry.Valid)
    (apart : registry.DerivesApart) {lineage : List DelegateConst}
    (decoded : registry.delegateLineage = pure lineage) : RegularApart lineage := by
  rw [Registry.delegateLineage, mapM_eq_pure] at decoded
  have distinct : registry.delegate.Pairwise fun row other =>
      row.irregularKey = false → other.irregularKey = false →
        row.delegateKeyBytes ≠ other.delegateKeyBytes := by
    have codes := valid.delegateDistinct
    rw [List.Nodup, List.pairwise_map] at codes
    apply codes.imp_of_mem
    intro row other member otherMember differ regular otherRegular same
    obtain ⟨code, key, params, readCode, readKey, readParams, derives⟩ :=
      valid.delegateRows row member
    obtain ⟨code', key', params', readCode', readKey', readParams', derives'⟩ :=
      valid.delegateRows other otherMember
    rw [readKey, readKey', pure_inj] at same
    have collide : deriveDelegateKey code params = deriveDelegateKey code' params' := by
      rw [derives.mpr regular, derives'.mpr otherRegular, same]
    have codesAgree := (apart row member other otherMember code params code' params' readCode
      readParams readCode' readParams' collide).1
    exact differ (by rw [readCode, readCode', codesAgree])
  apply pairwise_of_forall₂ _ decoded distinct
  intro row other const otherConst decodes otherDecodes keysDiffer regular otherRegular same
  obtain ⟨-, key, -, irregular, -⟩ := DelegateRow.const_eq_pure.mp decodes
  obtain ⟨-, otherKey, -, otherIrregular, -⟩ := DelegateRow.const_eq_pure.mp otherDecodes
  refine keysDiffer (irregular.symm.trans regular) (otherIrregular.symm.trans otherRegular) ?_
  rw [key, otherKey, same]

theorem derivesApart_pair {registry : Registry} {row other : DelegateRow}
    {codeHash otherHash : Fixed 32} (rows : registry.delegate = [row, other]) (code : row.codeHashBytes = pure codeHash)
    (otherCode : other.codeHashBytes = pure otherHash) (params : row.paramsBytes = pure [])
    (otherParams : other.paramsBytes = pure [])
    (differ : deriveDelegateKey codeHash [] ≠ deriveDelegateKey otherHash []) :
    registry.DerivesApart := by
  have reads (row' : DelegateRow) (member : row' ∈ registry.delegate) (hash : Fixed 32) (bytes : Bytes)
      (readHash : row'.codeHashBytes = pure hash) (readBytes : row'.paramsBytes = pure bytes) :
      bytes = [] ∧ (hash = codeHash ∨ hash = otherHash) := by
    rw [rows, List.mem_pair] at member
    rcases member with rfl | rfl
    · rw [code, pure_inj] at readHash
      rw [params, pure_inj] at readBytes
      exact ⟨readBytes.symm, .inl readHash.symm⟩
    · rw [otherCode, pure_inj] at readHash
      rw [otherParams, pure_inj] at readBytes
      exact ⟨readBytes.symm, .inr readHash.symm⟩
  intro first member second otherMember hash bytes hash' bytes' readHash readBytes readHash'
    readBytes' same
  obtain ⟨rfl, found⟩ := reads first member hash bytes readHash readBytes
  obtain ⟨rfl, found'⟩ := reads second otherMember hash' bytes' readHash' readBytes'
  rcases found with rfl | rfl <;> rcases found' with rfl | rfl
  · exact ⟨rfl, rfl⟩
  · exact absurd same differ
  · exact absurd same.symm differ
  · exact ⟨rfl, rfl⟩

end Registries

def riverV1CodeHash : Fixed 32 :=
  ⟨[0x78, 0x39, 0x96, 0xbd, 0xe3, 0xbc, 0x22, 0x35, 0xaf, 0xfe, 0xc9, 0xde, 0xb8, 0xa0, 0xf7, 0xe9,
      0xd2, 0x1f, 0xa1, 0x31, 0xdc, 0xf0, 0x03, 0x00, 0x0b, 0xb0, 0x3f, 0x46, 0x7d, 0xb0, 0xf8, 0x31], rfl⟩

def riverV1DelegateKey : Fixed 32 :=
  ⟨[0x1a, 0x93, 0x30, 0x82, 0x0e, 0x80, 0x6c, 0xda, 0x54, 0xec, 0xa7, 0xda, 0xb2, 0x2b, 0x84, 0xf2,
      0x0c, 0xfa, 0x79, 0x3e, 0xbe, 0x61, 0xa2, 0x61, 0x53, 0x12, 0xcc, 0x6e, 0x6e, 0xbc, 0xff, 0xf6], rfl⟩

def riverV1Derived : Fixed 32 :=
  ⟨[0xda, 0x21, 0x16, 0xd3, 0xba, 0x97, 0x8b, 0x20, 0x4b, 0x44, 0x48, 0xa4, 0x34, 0x5f, 0xaf, 0x30,
      0xd0, 0xde, 0xe8, 0x1b, 0xfc, 0x58, 0x63, 0x27, 0x74, 0x1d, 0xd5, 0x95, 0xa3, 0x0b, 0xa6, 0xe3], rfl⟩

abbrev riverDigests : Blake3 where
  hash bytes := if bytes = riverV2CodeHash.toList then riverV2DelegateKey else riverV1Derived

section Samples

local instance : Bs58 := standardBs58

local instance : Blake3 := riverDigests

local instance : LawfulBs58 := standardBs58_lawful

def riverV1 : DelegateRow :=
  ⟨1, "783996bde3bc2235affec9deb8a0f7e9d21fa131dcf003000bb03f467db0f831",
    "1a9330820e806cda54eca7dab22b84f20cfa793ebe61a2615312cc6e6ebcfff6", "", true, "V1"⟩

def riverSecond (delegateKey : String) (irregularKey : Bool) : DelegateRow :=
  ⟨2, "cfb9774c03cd95424955adab70a41d7575cd3312f09fd3f16d6ef548ba8cf051", delegateKey, "",
    irregularKey, "V2"⟩

def riverRegistry (delegateKey : String) (irregularKey : Bool) : Registry :=
  ⟨[], [riverV1, riverSecond delegateKey irregularKey]⟩

theorem riverV1_codeHash : riverV1.codeHashBytes = pure riverV1CodeHash :=
  decodeHash32_eq_pure.mpr (.inl (by unfold Spells; decide +kernel))

theorem riverV1_delegateKey : riverV1.delegateKeyBytes = pure riverV1DelegateKey :=
  decodeHash32_eq_pure.mpr (.inl (by unfold Spells; decide +kernel))

theorem riverSecond_codeHash (delegateKey : String) (irregularKey : Bool) :
    (riverSecond delegateKey irregularKey).codeHashBytes = pure riverV2CodeHash :=
  decodeHash32_eq_pure.mpr (.inl (by dsimp only [riverSecond]; unfold Spells; decide +kernel))

theorem riverSecond_params (delegateKey : String) (irregularKey : Bool) :
    (riverSecond delegateKey irregularKey).paramsBytes = pure [] :=
  (DelegateRow.paramsBytes_eq_pure _ _).mpr rfl

variable {delegateKey : String} {irregularKey : Bool} {key : Fixed 32}

theorem riverRegistry_accepted (read : decodeHash32 delegateKey = pure key)
    (exact : riverV2DelegateKey = key ↔ irregularKey = false) :
    (riverRegistry delegateKey irregularKey).validate = pure () := by
  refine (Registry.validate_eq_pure _).mpr ⟨by simp [riverRegistry], by simp [riverRegistry],
    by simp [riverRegistry], by simp [riverRegistry, riverV1, riverSecond], ?_, ?_⟩
  · have apart : riverV1CodeHash ≠ riverV2CodeHash := by decide
    simp [riverRegistry, riverV1_codeHash, riverSecond_codeHash, pure_inj, apart]
  · have second : (riverSecond delegateKey irregularKey).Valid :=
      ⟨_, key, [], riverSecond_codeHash .., read, riverSecond_params .., exact⟩
    have first : riverV1.Valid :=
      ⟨_, _, [], riverV1_codeHash, riverV1_delegateKey, rfl, by decide⟩
    simp [riverRegistry, first, second]

theorem riverRegistry_derivesApart : (riverRegistry delegateKey irregularKey).DerivesApart :=
  derivesApart_pair rfl riverV1_codeHash (riverSecond_codeHash ..) rfl (riverSecond_params ..)
    (by decide)

theorem riverRegistry_delegateLineage (read : decodeHash32 delegateKey = pure key) :
    (riverRegistry delegateKey irregularKey).delegateLineage =
      pure [⟨1, riverV1CodeHash, riverV1DelegateKey, true, "V1"⟩,
        ⟨2, riverV2CodeHash, key, irregularKey, "V2"⟩] := by
  rw [Registry.delegateLineage, mapM_eq_pure]
  refine .cons ?_ (.cons ?_ .nil)
  · exact DelegateRow.const_eq_pure.mpr ⟨riverV1_codeHash, riverV1_delegateKey, rfl, rfl, rfl⟩
  · exact DelegateRow.const_eq_pure.mpr ⟨riverSecond_codeHash .., read, rfl, rfl, rfl⟩

theorem riverV2_delegateKey :
    decodeHash32 "e3ad5c5b1a821089536be84d674329b37f46d2fba3e7026008fae85f3556511f" =
      pure riverV2DelegateKey :=
  decodeHash32_eq_pure.mpr (.inl (by unfold Spells; decide +kernel))

end Samples

/-- Rows that derive their keys have keys of their own. What rows marked irregular record is trusted:
    every row has an entry and markers of its own exactly where they record no key of another row. -/
theorem delegate_identity [Bs58] [Blake3] {registry : Registry} (accepted : registry.validate = pure ())
    (apart : registry.DerivesApart) :
    ∃ lineage, registry.delegateLineage = pure lineage ∧ RegularApart lineage ∧
      ((lineage.map DelegateConst.delegateKey).Nodup ↔ RecordsApart lineage) ∧
      ((newPending (lineage.map DelegateConst.entry)).entries.size = registry.delegate.length ↔
        RecordsApart lineage) ∧
      (RecordsApart lineage → ∀ row ∈ lineage,
        (newPending (lineage.map DelegateConst.entry)).entries[row.delegateKey]? =
          some ⟨row.generation, .fresh⟩) ∧
      ((lineage.map fun row => predWipMarker (lineageKey row.entry)).Nodup ↔ RecordsApart lineage) ∧
      ((lineage.map fun row => predDoneMarker (lineageKey row.entry)).Nodup ↔ RecordsApart lineage) := by
  have valid := registry.validate_eq_pure.mp accepted
  obtain ⟨lineage, decoded⟩ := valid.delegateLineage
  have regular := valid.regularApart apart decoded
  have keys := delegateKey_nodup_iff regular
  have length : lineage.length = registry.delegate.length := by
    rw [Registry.delegateLineage, mapM_eq_pure] at decoded
    exact decoded.length_eq.symm
  have entries : (lineage.map DelegateConst.entry).map DelegateLineageEntry.delegateKey =
      lineage.map DelegateConst.delegateKey := by
    rw [List.map_map]
    rfl
  refine ⟨lineage, decoded, regular, keys, ?_, ?_, ?_, ?_⟩
  · have size := size_newPending (lineage.map DelegateConst.entry)
    rw [entries, List.length_map, length, keys] at size
    exact size
  · intro recorded row member
    exact getElem?_newPending (entries ▸ keys.mpr recorded) (List.mem_map_of_mem member)
  · rw [← keys]
    exact nodup_map_iff predWipMarker_eq_iff
  · rw [← keys]
    exact nodup_map_iff predDoneMarker_eq_iff

section Samples

local instance : Bs58 := standardBs58

local instance : Blake3 := riverDigests

theorem delegate_identity_river :
    ∃ lineage, (riverRegistry "e3ad5c5b1a821089536be84d674329b37f46d2fba3e7026008fae85f3556511f"
        false).delegateLineage = pure lineage ∧
      (newPending (lineage.map DelegateConst.entry)).entries.size = 2 := by
  obtain ⟨lineage, decoded, -, -, size, -⟩ := delegate_identity
    (riverRegistry_accepted riverV2_delegateKey (iff_of_true rfl rfl)) riverRegistry_derivesApart
  refine ⟨lineage, decoded, size.mpr ?_⟩
  rw [riverRegistry_delegateLineage riverV2_delegateKey, pure_inj] at decoded
  subst decoded
  decide

/-- Two rows marked irregular may record one key: the registry is accepted, and the journal has one
    entry for both. -/
theorem key_recorded_twice :
    let registry :=
      riverRegistry "1a9330820e806cda54eca7dab22b84f20cfa793ebe61a2615312cc6e6ebcfff6" true
    registry.validate = pure () ∧ registry.DerivesApart ∧ registry.delegate.length = 2 ∧
      ∃ lineage, registry.delegateLineage = pure lineage ∧
        ¬ (lineage.map DelegateConst.delegateKey).Nodup ∧
        (newPending (lineage.map DelegateConst.entry)).entries.size = 1 := by
  have read := riverV1_delegateKey
  exact ⟨riverRegistry_accepted read (by decide), riverRegistry_derivesApart, rfl, _,
    riverRegistry_delegateLineage read, by decide, by decide⟩

end Samples
end FreenetMigrate.Build
