import FreenetMigrate.Pointer.Signing
import FreenetMigrate.Publisher.Tool

namespace FreenetMigrate.Publisher

open Text Pointer PointerContract Build
open PointerClient (ContractInstanceId)

theorem bind_eq_ok {ε α β : Type} {x : Except ε α} {f : α → Except ε β} {b : β} :
    (x >>= f) = .ok b ↔ ∃ a, x = .ok a ∧ f a = .ok b := by
  cases x with
  | error e => simp [Bind.bind, Except.bind]
  | ok a => simp [Bind.bind, Except.bind]

def isCommentLine (line : String) : Bool :=
  match line.toList with
  | '#' :: body => body.getLast? == some '\n' && !body.dropLast.contains '\n'
  | _ => false

theorem find_behind_comment {line : String} (comment : isCommentLine line = true) (rest : List Char) :
    (lines (line.toList ++ rest)).find? isCodeLine = (lines rest).find? isCodeLine := by
  unfold isCommentLine at comment
  split at comment
  · rename_i body same
    rw [Bool.and_eq_true, beq_iff_eq, Bool.not_eq_true', List.contains_eq_mem,
      decide_eq_false_iff_not] at comment
    obtain ⟨ended, single⟩ := comment
    obtain ⟨front, rfl⟩ := List.getLast?_eq_some_iff.mp ended
    rw [List.dropLast_concat] at single
    have first : '\n' ∉ '#' :: front := by
      rw [List.mem_cons]
      exact not_or.mpr ⟨by decide, single⟩
    have skipped : isCodeLine (withoutReturn ('#' :: front)) = false := by
      have hash : ∃ more, withoutReturn ('#' :: front) = '#' :: more := by
        unfold withoutReturn
        split
        · rename_i returned
          cases front with
          | nil => exact absurd returned (by decide)
          | cons c front => exact ⟨_, List.dropLast_cons_cons⟩
        · exact ⟨front, rfl⟩
      obtain ⟨more, shown⟩ := hash
      rw [shown]
      rfl
    rw [same, List.cons_append, List.append_assoc, List.singleton_append, lines, ← List.cons_append,
      linesFrom_line [] rest first, List.nil_append, List.find?_cons_of_neg (by simp [skipped])]
    rfl
  · cases comment

theorem pointerCodeHash_eq : pointerCodeHash = some PointerClient.POINTER_CODE_HASH_B58 := by
  have last : lines "8wnAPaSRY1oYZCz723fdwK6BgzL6q8ozP3buVovXnt6v\n".toList =
      [PointerClient.POINTER_CODE_HASH_B58.toList] := by decide +kernel
  have code : isCodeLine PointerClient.POINTER_CODE_HASH_B58.toList = true := by decide +kernel
  have bare : trim PointerClient.POINTER_CODE_HASH_B58.toList =
      PointerClient.POINTER_CODE_HASH_B58.toList := by decide +kernel
  unfold pointerCodeHash CODEHASH
  simp only [String.toList_append, List.append_assoc]
  iterate 9 rw [find_behind_comment (by decide +kernel)]
  rw [last, List.find?_cons_of_pos code, Option.map_some, bare, String.ofList_toList]

section Publish

variable [Bs58] [Blake3] {SigningKey VerifyingKey : Type} [Ed25519 VerifyingKey]
  [Signer SigningKey VerifyingKey]

theorem contractKeyFromParams_eq [LawfulBs58] (params : Bytes) :
    contractKeyFromParams (pointerCodeHash.getD "") params =
      .ok (Contract.contractIdFromCodeHash PointerClient.pointerCodeHash params) := by
  have decoded := Base58.decode_encode PointerClient.pointerCodeHash.toList
  rw [PointerClient.encode_pointerCodeHash] at decoded
  have written : Bs58.onto 32 PointerClient.POINTER_CODE_HASH_B58 =
      .ok PointerClient.pointerCodeHash.toList :=
    LawfulBs58.onto_eq_ok.mpr ⟨decoded, PointerClient.pointerCodeHash.length_toList.le⟩
  have whole : filled 32 PointerClient.pointerCodeHash.toList = PointerClient.pointerCodeHash :=
    Fixed.ext (filled_toList PointerClient.pointerCodeHash.length_toList)
  rw [contractKeyFromParams, pointerCodeHash_eq, Option.getD_some, written]
  simp only [Except.map, whole]

omit [Signer SigningKey VerifyingKey] in
theorem derive_eq_ok [LawfulBs58] {vk : VerifyingKey} {appId : Bytes} {key : ContractInstanceId}
    {params : Bytes} :
    derive vk appId = .ok (key, params) ↔ Addressable vk appId ∧ params = layout vk appId ∧
      key = Contract.contractIdFromCodeHash PointerClient.pointerCodeHash params := by
  simp only [derive, bind_eq_ok, mapError_eq_ok, encode_eq_ok, contractKeyFromParams_eq, Pure.pure,
    Except.pure, Except.ok.injEq, Prod.mk.injEq]
  constructor
  · rintro ⟨found, ⟨addressable, rfl⟩, derived, rfl, rfl, rfl⟩
    exact ⟨addressable, rfl, rfl⟩
  · rintro ⟨addressable, rfl, rfl⟩
    exact ⟨_, ⟨addressable, rfl⟩, _, rfl, rfl, rfl⟩

def signedLines (key : ContractInstanceId) (params : Bytes) (record : PointerRecord) : List String :=
  keyLines key params ++ [s!"version={record.version}", s!"code_hash={toHex record.codeHash.toList}",
    s!"state={toHex record.encode}"]

def signedRecord (sk : SigningKey) (vk : VerifyingKey) (appId : Bytes) (version : UInt32)
    (codeHash : Fixed 32) : PointerRecord :=
  ⟨version, codeHash,
    Signer.sign VerifyingKey sk (signingMessage (layout vk appId) version codeHash)⟩

/-- `sign` succeeds exactly for the author's own key, with params the contract takes and a version
    that can be superseded. Then it prints the record, and what it checks itself never fails. -/
theorem signRecordLines_eq_ok [LawfulBs58] [LawfulEd25519 VerifyingKey]
    [LawfulSigner SigningKey VerifyingKey] {sk : SigningKey} {vk : VerifyingKey} {appId : Bytes}
    {version : UInt32} {codeHash : Fixed 32} {lines : List String} :
    signRecordLines sk vk appId version codeHash = .ok lines ↔
      Signer.verifyingKey sk = vk ∧ Addressable vk appId ∧ version ≠ 0 ∧ version ≤ MAX_VERSION ∧
      lines = signedLines
        (Contract.contractIdFromCodeHash PointerClient.pointerCodeHash (layout vk appId))
        (layout vk appId) (signedRecord sk vk appId version codeHash) := by
  have own : Ed25519.asBytes (Signer.verifyingKey sk : VerifyingKey) = Ed25519.asBytes vk ↔
      Signer.verifyingKey sk = vk := by
    constructor
    · intro same
      have decoded := LawfulEd25519.fromBytes_asBytes (Signer.verifyingKey sk : VerifyingKey)
      rw [same, LawfulEd25519.fromBytes_asBytes] at decoded
      exact (Option.some.inj decoded).symm
    · intro same
      rw [same]
  unfold signRecordLines
  by_cases same : Signer.verifyingKey sk = vk
  · have verifies (addressable : Addressable vk appId) {record : PointerRecord}
        (signed : signRecord VerifyingKey sk (layout vk appId) version codeHash = .ok record) :
        decodeVerified VerifyingKey record.encode (layout vk appId) = .ok record := by
      have parses : PointerParams.parse VerifyingKey (layout vk appId) = .ok ⟨vk, appId⟩ :=
        parse_eq_ok.mpr ⟨addressable, rfl⟩
      exact (decodeVerified_eq_ok parses).mpr
        ⟨rfl, verify_signRecord addressable.strong same signed⟩
    rw [if_neg (not_not.mpr (own.mpr same)), same]
    simp only [bind_eq_ok, Prod.exists, derive_eq_ok, mapError_eq_ok, signRecord_eq_ok, Pure.pure,
      Except.pure, Except.ok.injEq]
    constructor
    · rintro ⟨key, params, ⟨addressable, rfl, rfl⟩, record, ⟨positive, below, -, rfl⟩, -, -, rfl⟩
      exact ⟨trivial, addressable, positive, below, rfl⟩
    · rintro ⟨-, addressable, positive, below, rfl⟩
      have parses : PointerParams.parse VerifyingKey (layout vk appId) = .ok ⟨vk, appId⟩ :=
        parse_eq_ok.mpr ⟨addressable, rfl⟩
      have signed : signRecord VerifyingKey sk (layout vk appId) version codeHash =
          .ok (signedRecord sk vk appId version codeHash) :=
        signRecord_eq_ok.mpr ⟨positive, below, ⟨_, parses⟩, rfl⟩
      exact ⟨_, _, ⟨addressable, rfl, rfl⟩, _, ⟨positive, below, ⟨_, parses⟩, rfl⟩, _,
        verifies addressable signed, rfl⟩
  · rw [if_pos fun equal => same (own.mp equal)]
    simp [same]

def verifiedLines (key : ContractInstanceId) (record : PointerRecord) : List String :=
  [s!"key={b58 key}", s!"version={record.version}", s!"code_hash={toHex record.codeHash.toList}",
    "verified=true"]

structure Expected (key : ContractInstanceId) (record : PointerRecord) (expectVersion : Option UInt32)
    (expectCodeHash : Option (Fixed 32)) (expectKey : Option String) : Prop where
  version : ∀ want, expectVersion = some want → want = record.version
  codeHash : ∀ want, expectCodeHash = some want → want = record.codeHash
  key : ∀ want, expectKey = some want → want = b58 key

omit [Blake3] in
theorem mismatches_eq_nil {key : ContractInstanceId} {record : PointerRecord}
    {expectVersion : Option UInt32} {expectCodeHash : Option (Fixed 32)} {expectKey : Option String} :
    mismatches key record expectVersion expectCodeHash expectKey = [] ↔
      Expected key record expectVersion expectCodeHash expectKey := by
  have absent {α : Type} [DecidableEq α] (given : Option α) (actual : α) (say : α → String) :
      (given.filter fun want => actual != want).toList.map say = [] ↔
        ∀ want, given = some want → want = actual := by
    cases given with
    | none => simp
    | some want =>
      by_cases same : want = actual
      · simp [Option.filter_some, same]
      · simp [Option.filter_some, same, Ne.symm same]
  unfold mismatches
  rw [List.append_eq_nil_iff, List.append_eq_nil_iff, absent, absent, absent]
  exact ⟨fun ⟨⟨version, codeHash⟩, key⟩ => ⟨version, codeHash, key⟩,
    fun expected => ⟨⟨expected.version, expected.codeHash⟩, expected.key⟩⟩

omit [Signer SigningKey VerifyingKey] in
theorem verifyRecordLines_eq_ok [LawfulBs58] {vk : VerifyingKey} {appId state : Bytes}
    {expectVersion : Option UInt32} {expectCodeHash : Option (Fixed 32)} {expectKey : Option String}
    {lines : List String} :
    verifyRecordLines vk appId state expectVersion expectCodeHash expectKey = .ok lines ↔
      Addressable vk appId ∧ ∃ record, held VerifyingKey (layout vk appId) state = some record ∧
        Expected (Contract.contractIdFromCodeHash PointerClient.pointerCodeHash (layout vk appId))
          record expectVersion expectCodeHash expectKey ∧
        lines = verifiedLines
          (Contract.contractIdFromCodeHash PointerClient.pointerCodeHash (layout vk appId)) record := by
  unfold verifyRecordLines
  simp only [bind_eq_ok, Prod.exists, derive_eq_ok, mapError_eq_ok, held_eq_some]
  constructor
  · rintro ⟨key, params, ⟨addressable, rfl, rfl⟩, record, decoded, printed⟩
    refine ⟨addressable, record, decoded, ?_⟩
    split at printed
    · cases printed
    · rename_i nothing
      rw [Bool.not_eq_true, Bool.not_eq_false', List.isEmpty_iff] at nothing
      exact ⟨mismatches_eq_nil.mp nothing, (Except.ok.inj printed).symm⟩
  · rintro ⟨addressable, record, decoded, expected, rfl⟩
    refine ⟨_, _, ⟨addressable, rfl, rfl⟩, record, decoded, ?_⟩
    rw [mismatches_eq_nil.mpr expected]
    rfl

section Run

variable {env : Env} {args : List String} {text : String}

theorem run_sign_eq_ok : run SigningKey VerifyingKey env ("sign" :: args) = .ok text ↔
    ∃ opts lines, Opts.parse args FLAGS_SIGN = .ok opts ∧
      cmdSign SigningKey VerifyingKey opts env = .ok lines ∧ println lines = text := by
  have other : ("sign" == "key") = false := by decide
  have own : ("sign" == "sign") = true := by decide
  rw [run, other, own, if_neg Bool.false_ne_true, if_pos rfl]
  simp only [bind_eq_ok, Pure.pure, Except.pure, Except.ok.injEq, ← exists_and_left]

theorem run_verify_eq_ok : run SigningKey VerifyingKey env ("verify" :: args) = .ok text ↔
    ∃ opts lines, Opts.parse args FLAGS_VERIFY = .ok opts ∧
      cmdVerify VerifyingKey opts env = .ok lines ∧ println lines = text := by
  have key : ("verify" == "key") = false := by decide
  have sign : ("verify" == "sign") = false := by decide
  have own : ("verify" == "verify") = true := by decide
  rw [run, key, sign, own, if_neg Bool.false_ne_true, if_neg Bool.false_ne_true, if_pos rfl]
  simp only [bind_eq_ok, Pure.pure, Except.pure, Except.ok.injEq, ← exists_and_left]

omit [Blake3] [Signer SigningKey VerifyingKey] in
theorem authorVk_of_get {opts given : Opts} {reader : Env} {vk : VerifyingKey}
    (read : opts.authorVk VerifyingKey env = .ok vk)
    (same : given.get "--author-vk" = opts.get "--author-vk") :
    given.authorVk VerifyingKey reader = .ok vk := by
  have required : given.req "--author-vk" = opts.req "--author-vk" := by
    rw [Opts.req, Opts.req, same]
  simp only [Opts.authorVk, bind_eq_ok] at read ⊢
  obtain ⟨raw, found, tag, tagged, bytes, decoded, key⟩ := read
  refine ⟨raw, required.trans found, tag, tagged, bytes, decoded, ?_⟩
  split at key
  · exact key
  · cases key

omit [Bs58] [Blake3] in
theorem appId_of_get {opts given : Opts} (same : given.get "--app-id" = opts.get "--app-id") :
    given.appId = opts.appId := by
  rw [Opts.appId, Opts.appId, Opts.req, Opts.req, same]

omit [Blake3] [Bs58] in
/-- What is printed of a state is read back as that state, where no file has the name. -/
theorem state_of_printed {given : Opts} {reader : Env} {state : Bytes}
    (shown : given.get "--state" = some (toHex state))
    (noFile : reader.file (toHex state) = none) : given.state reader = .ok state := by
  have spells := spells_hex state
  have digits := ((hexText_iff _).mpr ⟨state, spells⟩).2
  have tight : trim (hex state) = hex state :=
    trim_of_tight (tight_of_visible fun c member => (hexDigit_plain (digits c member)).2)
  have named : (toHex state == "-") = false := by
    rw [beq_eq_false_iff_ne]
    intro same
    have length := spells.length_eq
    have one := congrArg String.toList same
    rw [toHex, String.toList_ofList] at one
    rw [one] at length
    have single : "-".toList.length = 1 := rfl
    omega
  simp only [Opts.state, Opts.req, shown, named, Bind.bind, Except.bind, Bool.false_eq_true, if_false,
    noFile]
  rw [toHex, String.toList_ofList, tight, fromHex_eq_ok.mpr spells]
  rfl

omit [Bs58] [Blake3] in
theorem optU32_of_printed {given : Opts} {version : UInt32} {flag : String}
    (printed : ∀ want, given.get flag = some want → want = toString version) :
    ∃ expected, given.optU32 flag = .ok expected ∧ ∀ want, expected = some want → want = version := by
  unfold Opts.optU32
  cases found : given.get flag with
  | none => exact ⟨none, rfl, by simp⟩
  | some text =>
    have digits : (toString version).toList = Nat.toDigits 10 version.toNat := String.toList_ofList
    obtain rfl := printed text found
    refine ⟨some version, ?_, by simp⟩
    simp only [Opts.parseU32, digits, u32FromStr_toDigits]
    rfl

omit [Blake3] in
theorem optCodeHash_of_printed [LawfulBs58] {given : Opts} {codeHash : Fixed 32} {flag : String}
    (printed : ∀ want, given.get flag = some want → want = toHex codeHash.toList) :
    ∃ expected, given.optCodeHash flag = .ok expected ∧
      ∀ want, expected = some want → want = codeHash := by
  unfold Opts.optCodeHash
  cases found : given.get flag with
  | none => exact ⟨none, rfl, by simp⟩
  | some text =>
    have spells := spells_hex codeHash.toList
    have segment : keyToken (.ofList (hex codeHash.toList)) = hex codeHash.toList :=
      keyToken_value [] (token_plain (.inl spells)) (.inl rfl)
    have decoded : decodeKeyMaterial (toHex codeHash.toList) 32 flag = .ok codeHash.toList := by
      rw [decodeKeyMaterial_eq_ok, toHex, segment]
      exact ⟨codeHash.length_toList, .inl spells⟩
    have whole : filled 32 codeHash.toList = codeHash := Fixed.ext (filled_toList codeHash.length_toList)
    obtain rfl := printed text found
    refine ⟨some codeHash, ?_, by simp⟩
    simp only [Opts.codeHash, Opts.req, found, decoded, whole, Bind.bind, Except.bind, Pure.pure,
      Except.pure]
    rfl

/-- A check of what was printed: for the same author and app, with the printed state and with no
    expectation that was not printed. -/
structure Rechecks (opts given : Opts) (key : ContractInstanceId) (record : PointerRecord) : Prop where
  author : given.get "--author-vk" = opts.get "--author-vk"
  app : given.get "--app-id" = opts.get "--app-id"
  state : given.get "--state" = some (toHex record.encode)
  version : ∀ want, given.get "--expect-version" = some want → want = toString record.version
  codeHash : ∀ want, given.get "--expect-code-hash" = some want → want = toHex record.codeHash.toList
  key : ∀ want, given.get "--expect-key" = some want → want = b58 key

/-- What `sign` prints stands for a record that the contract keeps, at the address a consumer derives
    by itself, which a consumer that never resolved adopts. And `verify` confirms the printed state for
    the same author and app, in any process, whichever of the printed values it is told to expect. -/
theorem sign_then_verify [LawfulBs58] [LawfulEd25519 VerifyingKey]
    [LawfulSigner SigningKey VerifyingKey]
    (published : run SigningKey VerifyingKey env ("sign" :: args) = .ok text) :
    ∃ (opts : Opts) (vk : VerifyingKey) (appId : Bytes) (record : PointerRecord)
      (key : ContractInstanceId), Opts.parse args FLAGS_SIGN = .ok opts ∧
      opts.authorVk VerifyingKey env = .ok vk ∧ opts.appId = .ok appId ∧
      opts.reqU32 "--version" = .ok record.version ∧
      opts.codeHash "--code-hash" = .ok record.codeHash ∧
      text = println (signedLines key (layout vk appId) record) ∧
      PointerClient.pointerContractId vk appId = some (.ok key) ∧
      validateState VerifyingKey (layout vk appId) record.encode = .ok .valid ∧
      PointerClient.resolve (Contract.contractIdFromCodeHash PointerClient.pointerCodeHash) vk appId
        .neverResolved (.state record.encode) =
          .ok (some (.ok (PointerClient.PointerResolver.adopt record))) ∧
      ∀ (reader : Env) (checks : List String) (given : Opts),
        Opts.parse checks FLAGS_VERIFY = .ok given → Rechecks opts given key record →
        reader.file (toHex record.encode) = none →
        run SigningKey VerifyingKey reader ("verify" :: checks) =
          .ok (println (verifiedLines key record)) := by
  obtain ⟨opts, lines, parsed, printed, rfl⟩ := run_sign_eq_ok.mp published
  simp only [cmdSign, bind_eq_ok] at printed
  obtain ⟨vk, author, appId, app, version, number, codeHash, hash, sk, -, signed⟩ := printed
  obtain ⟨own, addressable, positive, below, rfl⟩ := signRecordLines_eq_ok.mp signed
  have accepted : PointerParams.parse VerifyingKey (layout vk appId) = .ok ⟨vk, appId⟩ :=
    parse_eq_ok.mpr ⟨addressable, rfl⟩
  have built : PointerClient.pointerParams vk appId = .ok (layout vk appId) := by
    rw [pointerParams_eq, encode_eq_ok.mpr ⟨addressable, rfl⟩]
    rfl
  have made : signRecord VerifyingKey sk (layout vk appId) version codeHash =
      .ok (signedRecord sk vk appId version codeHash) :=
    signRecord_eq_ok.mpr ⟨positive, below, ⟨_, accepted⟩, rfl⟩
  have holds : held VerifyingKey (layout vk appId) (signedRecord sk vk appId version codeHash).encode =
      some (signedRecord sk vk appId version codeHash) :=
    held_eq_some.mpr ((decodeVerified_eq_ok accepted).mpr
      ⟨rfl, verify_signRecord addressable.strong own made⟩)
  refine ⟨opts, vk, appId, signedRecord sk vk appId version codeHash, _, parsed, author, app, number,
    hash, rfl, ?_, validateState_of_held accepted holds, ?_, ?_⟩
  · simp only [PointerClient.pointerContractId, built, PointerClient.pointerContractIdFromParams_eq,
      Option.map_some]
  · have resolved := resolve_neverResolved
      (Contract.contractIdFromCodeHash PointerClient.pointerCodeHash) accepted built
      (signedRecord sk vk appId version codeHash).encode_ne_nil
    rw [holds] at resolved
    exact resolved
  · intro reader checks given read rechecks noFile
    obtain ⟨expectVersion, readVersion, sameVersion⟩ := optU32_of_printed rechecks.version
    obtain ⟨expectHash, readHash, sameHash⟩ := optCodeHash_of_printed rechecks.codeHash
    refine run_verify_eq_ok.mpr ⟨given, _, read, ?_, rfl⟩
    simp only [cmdVerify, bind_eq_ok]
    refine ⟨vk, authorVk_of_get author rechecks.author, appId,
      (appId_of_get rechecks.app).trans app, _, state_of_printed rechecks.state noFile,
      expectVersion, readVersion, expectHash, readHash, ?_⟩
    exact verifyRecordLines_eq_ok.mpr
      ⟨addressable, _, holds, ⟨sameVersion, sameHash, rechecks.key⟩, rfl⟩

end Run

section Exact

variable [LawfulBs58] [LawfulEd25519 VerifyingKey]

variable (SigningKey VerifyingKey) in
/-- `sign` prints a record exactly for the author's own key, params the contract takes and a version
    that can be superseded. What it refuses is the key, the params or the version: that CODEHASH does
    not decode, or that the fresh record does not verify, is never what is wrong. -/
theorem sign_exact [LawfulSigner SigningKey VerifyingKey] (sk : SigningKey) (vk : VerifyingKey)
    (appId : Bytes) (version : UInt32) (codeHash : Fixed 32) :
    (∀ lines, signRecordLines sk vk appId version codeHash = .ok lines ↔
      Signer.verifyingKey sk = vk ∧ Addressable vk appId ∧ version ≠ 0 ∧ version ≤ MAX_VERSION ∧
      lines = signedLines
        (Contract.contractIdFromCodeHash PointerClient.pointerCodeHash (layout vk appId))
        (layout vk appId) (signedRecord sk vk appId version codeHash)) ∧
    ∀ e, signRecordLines sk vk appId version codeHash = .error e →
      Signer.verifyingKey sk ≠ vk ∨
      (∃ reason, PointerParams.encode vk appId = .error reason ∧ e = reason.display) ∨
      version = 0 ∧ e = PointerError.zeroVersion.display ∨
      MAX_VERSION < version ∧ e = PointerError.reservedVersion.display := by
  refine ⟨fun lines => signRecordLines_eq_ok, ?_⟩
  intro e refused
  by_cases own : Signer.verifyingKey sk = vk
  · right
    cases encoded : PointerParams.encode vk appId with
    | error reason =>
      simp only [signRecordLines, own, derive, encoded, ne_eq, not_true_eq_false, if_false,
        Except.mapError, Bind.bind, Except.bind, Except.error.injEq] at refused
      exact .inl ⟨reason, rfl, refused.symm⟩
    | ok params =>
      right
      obtain ⟨addressable, rfl⟩ := encode_eq_ok.mp encoded
      have derived : derive vk appId = .ok (_, layout vk appId) :=
        derive_eq_ok.mpr ⟨addressable, rfl, rfl⟩
      by_cases zero : version = 0
      · simp only [signRecordLines, own, derived, signRecord, zero, ne_eq, not_true_eq_false, if_true,
          if_false, Except.mapError, Bind.bind, Except.bind, Except.error.injEq] at refused
        exact .inl ⟨zero, refused.symm⟩
      · by_cases reserved : MAX_VERSION < version
        · simp only [signRecordLines, own, derived, signRecord, zero, reserved, ne_eq,
            not_true_eq_false, if_true, if_false, Except.mapError, Bind.bind, Except.bind,
            Except.error.injEq] at refused
          exact .inr ⟨reserved, refused.symm⟩
        · rw [signRecordLines_eq_ok.mpr ⟨own, addressable, zero, not_lt.mp reserved, rfl⟩] at refused
          cases refused
  · exact .inl own

omit [Signer SigningKey VerifyingKey] in
variable (VerifyingKey) in
/-- `verify` confirms exactly what the contract keeps and the expectations allow, and prints the fields
    of the record. One state is confirmed for one app of an author only, where a signature verifies one
    message. -/
theorem verify_exact :
    (∀ (vk : VerifyingKey) (appId state : Bytes) (expectVersion : Option UInt32)
      (expectCodeHash : Option (Fixed 32)) (expectKey : Option String) (lines : List String),
      verifyRecordLines vk appId state expectVersion expectCodeHash expectKey = .ok lines ↔
        Addressable vk appId ∧ validateState VerifyingKey (layout vk appId) state = .ok .valid ∧
        ∃ record, decode state = .ok record ∧
          Expected (Contract.contractIdFromCodeHash PointerClient.pointerCodeHash (layout vk appId))
            record expectVersion expectCodeHash expectKey ∧
          lines = verifiedLines
            (Contract.contractIdFromCodeHash PointerClient.pointerCodeHash (layout vk appId)) record) ∧
    (SingleMessage VerifyingKey → ∀ (vk : VerifyingKey) (appId other state : Bytes)
      (lines others : List String),
      verifyRecordLines vk appId state none none none = .ok lines →
      verifyRecordLines vk other state none none none = .ok others → appId = other) := by
  constructor
  · intro vk appId state expectVersion expectCodeHash expectKey lines
    rw [verifyRecordLines_eq_ok]
    constructor
    · rintro ⟨addressable, record, holds, expected, same⟩
      have accepted : PointerParams.parse VerifyingKey (layout vk appId) = .ok ⟨vk, appId⟩ :=
        parse_eq_ok.mpr ⟨addressable, rfl⟩
      obtain ⟨rfl, -⟩ := (decodeVerified_eq_ok accepted).mp (held_eq_some.mp holds)
      exact ⟨addressable, validateState_of_held accepted holds, record, decode_eq_ok.mpr rfl, expected,
        same⟩
    · rintro ⟨addressable, valid, record, decoded, expected, same⟩
      have accepted : PointerParams.parse VerifyingKey (layout vk appId) = .ok ⟨vk, appId⟩ :=
        parse_eq_ok.mpr ⟨addressable, rfl⟩
      obtain ⟨found, holds⟩ := (validateState_eq_valid accepted state).mp valid
      obtain ⟨rfl, -⟩ := (decodeVerified_eq_ok accepted).mp (held_eq_some.mp holds)
      obtain rfl : record = found := by
        rw [decode_eq_ok.mpr rfl] at decoded
        exact (Except.ok.inj decoded).symm
      exact ⟨addressable, record, holds, expected, same⟩
  · intro single vk appId other state lines others printed also
    obtain ⟨addressable, record, holds, -⟩ := verifyRecordLines_eq_ok.mp printed
    obtain ⟨otherAddressable, changed, otherHolds, -⟩ := verifyRecordLines_eq_ok.mp also
    have accepted : PointerParams.parse VerifyingKey (layout vk appId) = .ok ⟨vk, appId⟩ :=
      parse_eq_ok.mpr ⟨addressable, rfl⟩
    have otherAccepted : PointerParams.parse VerifyingKey (layout vk other) = .ok ⟨vk, other⟩ :=
      parse_eq_ok.mpr ⟨otherAddressable, rfl⟩
    obtain ⟨same, -⟩ := (decodeVerified_eq_ok accepted).mp (held_eq_some.mp holds)
    obtain ⟨otherSame, -⟩ := (decodeVerified_eq_ok otherAccepted).mp (held_eq_some.mp otherHolds)
    obtain rfl : record = changed := PointerRecord.encode_injective (same.symm.trans otherSame)
    have params := (accepted_unique accepted otherAccepted rfl (held_eq_some.mp holds)
      (held_eq_some.mp otherHolds) rfl).1
    exact (layout_injective params).2

end Exact

end Publish

section

open PointerContract (VectorKey vectorKeyBytes vectorAppId vectorParams vectorRecord)

local instance : Bs58 := standardBs58
local instance : LawfulBs58 := standardBs58_lawful

def authorPointerKey : Fixed 32 := ⟨[
    0xf8, 0xb9, 0x28, 0x56, 0x2c, 0x1d, 0xdb, 0xbb, 0x81, 0x5f, 0x84, 0x49, 0xf7, 0x65, 0xd5, 0x5b,
    0x04, 0xcb, 0xd6, 0x6f, 0xb6, 0xe1, 0xa9, 0x33, 0x36, 0xf7, 0xda, 0x45, 0x5f, 0x49, 0x13, 0x89], rfl⟩

local instance : Blake3 := ⟨fun _ => authorPointerKey⟩

inductive Author
  | author
  deriving DecidableEq

def authorSignature (message : Bytes) : Fixed 64 :=
  if message = signingMessage vectorParams vectorRecord.version vectorRecord.codeHash then
    vectorRecord.signature
  else ⟨List.replicate 64 2, rfl⟩

instance : Ed25519 Author where
  fromBytes bytes := if bytes = vectorKeyBytes then some .author else none
  asBytes _ := vectorKeyBytes
  isWeak _ := false
  verifyStrict _ message signature := signature == authorSignature message

instance : Signer Author Author where
  fromBytes _ := .author
  verifyingKey key := key
  sign _ := authorSignature

instance : LawfulEd25519 Author where
  asBytes_of_fromBytes {bytes key} decoded := by
    simp only [Ed25519.fromBytes] at decoded
    split at decoded
    · rename_i same
      exact same.symm
    · cases decoded
  fromBytes_asBytes key := by
    cases key
    decide

instance : LawfulSigner Author Author where
  verifies _ message _ := beq_self_eq_true (authorSignature message)
  sign_ne_zero _ message := by
    simp only [Signer.sign, authorSignature]
    split
    · decide
    · decide

def authorEnv : Env := ⟨.ok "signing_key = \"11111111111111111111111111111111\"", .ok [], fun _ => none, ""⟩

def authorArgs : List String :=
  ["--author-vk", toHex vectorKeyBytes.toList, "--app-id=river.room-contract", "--version", "7",
    "--code-hash", toHex vectorRecord.codeHash.toList]

def authorOpts : Opts :=
  ⟨[("--author-vk", toHex vectorKeyBytes.toList), ("--app-id", "river.room-contract"),
    ("--version", "7"), ("--code-hash", toHex vectorRecord.codeHash.toList)]⟩

theorem author_own : Signer.verifyingKey Author.author = Author.author := rfl

theorem author_addressable : Addressable Author.author vectorAppId where
  nonempty := by decide +kernel
  short := by decide +kernel
  plain := by decide +kernel
  canonical := by decide +kernel
  strong := rfl

theorem authorArgs_parsed : Opts.parse authorArgs FLAGS_SIGN = .ok authorOpts := by decide +kernel

theorem authorOpts_appId : authorOpts.appId = .ok vectorAppId := by decide +kernel

theorem authorOpts_version : authorOpts.reqU32 "--version" = .ok 7 := by decide +kernel

theorem authorOpts_codeHash :
    authorOpts.codeHash "--code-hash" = .ok vectorRecord.codeHash := by decide +kernel

theorem author_signs :
    ∃ text, run Author Author authorEnv ("sign" :: authorArgs) = .ok text := by
  have author : authorOpts.authorVk Author authorEnv = .ok .author := by decide +kernel
  have key : readSigningKeyFromStdin Author Author authorEnv = .ok .author := by decide +kernel
  obtain ⟨lines, signed⟩ : ∃ lines,
      signRecordLines Author.author Author.author vectorAppId 7 vectorRecord.codeHash = .ok lines :=
    ⟨_, signRecordLines_eq_ok.mpr ⟨author_own, author_addressable, by decide, by decide, rfl⟩⟩
  have printed : cmdSign Author Author authorOpts authorEnv = .ok lines := by
    simp only [cmdSign, bind_eq_ok]
    exact ⟨_, author, _, authorOpts_appId, _, authorOpts_version, _, authorOpts_codeHash, _, key, signed⟩
  exact ⟨_, run_sign_eq_ok.mpr ⟨_, _, authorArgs_parsed, printed, rfl⟩⟩

def readerEnv : Env := ⟨.error "closed", .error "closed", fun _ => none, ""⟩

def readerChecks : List String :=
  ["--author-vk", toHex vectorKeyBytes.toList, "--app-id=river.room-contract", "--state",
    toHex vectorRecord.encode, "--expect-version=7", "--expect-code-hash",
    toHex vectorRecord.codeHash.toList]

def readerOpts : Opts :=
  ⟨[("--author-vk", toHex vectorKeyBytes.toList), ("--app-id", "river.room-contract"),
    ("--state", toHex vectorRecord.encode), ("--expect-version", "7"),
    ("--expect-code-hash", toHex vectorRecord.codeHash.toList)]⟩

theorem readerChecks_parsed : Opts.parse readerChecks FLAGS_VERIFY = .ok readerOpts := by
  decide +kernel

theorem rechecks_reader (key : ContractInstanceId) :
    Rechecks authorOpts readerOpts key vectorRecord where
  author := rfl
  app := rfl
  state := by decide +kernel
  version := by
    intro want asked
    have printed : readerOpts.get "--expect-version" = some "7" := by decide +kernel
    exact Option.some.inj (asked.symm.trans printed)
  codeHash := by
    intro want asked
    have printed : readerOpts.get "--expect-code-hash" = some (toHex vectorRecord.codeHash.toList) := by
      decide +kernel
    exact Option.some.inj (asked.symm.trans printed)
  key := by
    intro want asked
    have silent : readerOpts.get "--expect-key" = none := by decide +kernel
    rw [silent] at asked
    cases asked

/-- The published record comes out of the tool and is what the contract keeps, and another process
    that is told its version and code hash confirms it. -/
theorem sign_then_verify_author : ∃ key : ContractInstanceId,
    run Author Author authorEnv ("sign" :: authorArgs) =
      .ok (println (signedLines key (layout Author.author vectorAppId) vectorRecord)) ∧
    validateState Author (layout Author.author vectorAppId) vectorRecord.encode = .ok .valid ∧
    run Author Author readerEnv ("verify" :: readerChecks) =
      .ok (println (verifiedLines key vectorRecord)) := by
  obtain ⟨text, published⟩ := author_signs
  obtain ⟨opts, vk, appId, record, key, read, -, app, number, hash, rfl, -, valid, -, confirmed⟩ :=
    sign_then_verify published
  obtain rfl := Except.ok.inj (authorArgs_parsed.symm.trans read)
  obtain rfl := Except.ok.inj (authorOpts_appId.symm.trans app)
  cases vk
  have accepted : PointerParams.parse Author (layout Author.author vectorAppId) =
      .ok ⟨.author, vectorAppId⟩ := parse_eq_ok.mpr ⟨author_addressable, rfl⟩
  -- The one signature that the author has for these values is the published one.
  obtain rfl : record = vectorRecord := by
    obtain ⟨found, holds⟩ := (validateState_eq_valid accepted _).mp valid
    obtain ⟨same, parsed, -, signed⟩ := decodeVerified_signed (held_eq_some.mp holds)
    obtain rfl := PointerRecord.encode_injective same
    have version := Except.ok.inj (authorOpts_version.symm.trans number)
    have codeHash := Except.ok.inj (authorOpts_codeHash.symm.trans hash)
    have own : record.signature = authorSignature
        (signingMessage (layout Author.author vectorAppId) record.version record.codeHash) :=
      beq_iff_eq.mp signed
    rw [← version, ← codeHash] at own
    have published : authorSignature (signingMessage (layout Author.author vectorAppId) 7
        vectorRecord.codeHash) = vectorRecord.signature := if_pos rfl
    have signature := own.trans published
    obtain ⟨_, _, _⟩ := record
    subst version codeHash signature
    rfl
  exact ⟨key, published, valid, confirmed readerEnv readerChecks readerOpts readerChecks_parsed
    (rechecks_reader key) rfl⟩

theorem sign_exact_author :
    ∃ lines, signRecordLines Author.author Author.author vectorAppId 7 vectorRecord.codeHash = .ok lines :=
  ⟨_, ((sign_exact Author Author .author .author vectorAppId 7 vectorRecord.codeHash).1 _).mpr
    ⟨author_own, author_addressable, by decide, by decide, rfl⟩⟩

/-- The published record is confirmed as the one of version 7, and for no other app. -/
theorem verify_exact_author :
    (∃ lines, verifyRecordLines VectorKey.author vectorAppId vectorRecord.encode (some 7) none none =
      .ok lines) ∧
    ∀ other lines, verifyRecordLines VectorKey.author other vectorRecord.encode none none none =
      .ok lines → vectorAppId = other := by
  have addressable : Addressable VectorKey.author vectorAppId := (parse_eq_ok.mp parse_vectorParams).1
  have confirms : ∀ expect : Option UInt32, (∀ want, expect = some want → want = 7) → ∃ lines,
      verifyRecordLines VectorKey.author vectorAppId vectorRecord.encode expect none none = .ok lines :=
    fun expect printed => ⟨_, ((verify_exact VectorKey).1 .author vectorAppId vectorRecord.encode expect
      none none _).mpr ⟨addressable, by decide +kernel, vectorRecord, decode_eq_ok.mpr rfl,
        ⟨printed, by simp, by simp⟩, rfl⟩⟩
  obtain ⟨lines, printed⟩ := confirms none (by simp)
  exact ⟨confirms (some 7) (by simp), fun other others also =>
    (verify_exact VectorKey).2 inferInstance .author vectorAppId other vectorRecord.encode lines others
      printed also⟩

end

end FreenetMigrate.Publisher
