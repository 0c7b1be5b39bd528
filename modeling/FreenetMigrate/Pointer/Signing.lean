import FreenetMigrate.Pointer.Successor
import FreenetMigrate.Pointer.Params

namespace FreenetMigrate.Pointer

/-- What is signed tells the three fields apart: the ones behind the params have a fixed length. -/
theorem signingMessage_injective {params other : Bytes} {version newer : UInt32}
    {codeHash otherHash : Fixed 32}
    (same : signingMessage params version codeHash = signingMessage other newer otherHash) :
    params = other ∧ version = newer ∧ codeHash = otherHash := by
  unfold signingMessage at same
  obtain ⟨front, hashes⟩ := List.append_inj' same (by simp)
  obtain ⟨domains, versions⟩ := List.append_inj' front (by simp)
  exact ⟨List.append_cancel_left domains, toBeBytes_injective (Fixed.ext versions), Fixed.ext hashes⟩

/-- The two domains differ in a byte that both have, whatever follows them. -/
theorem domains_apart (left right : Bytes) :
    Successor.SIGNING_DOMAIN ++ left ≠ SIGNING_DOMAIN ++ right := by
  intro same
  have heads := congrArg (List.take 9) same
  rw [List.take_append_of_le_length (by decide), List.take_append_of_le_length (by decide)] at heads
  revert heads
  decide

theorem successor_signingMessage_ne (codeHash hash : Fixed 32) (generation version : UInt32)
    (appId params : Bytes) :
    Successor.signingMessage codeHash generation appId ≠ signingMessage params version hash := by
  simp only [Successor.signingMessage, signingMessage, List.append_assoc]
  exact domains_apart _ _

class SingleMessage (VerifyingKey : Type) [Ed25519 VerifyingKey] : Prop where
  message_unique : ∀ {key : VerifyingKey} {message other : Bytes} {signature : Fixed 64},
    Ed25519.verifyStrict key message signature = true →
    Ed25519.verifyStrict key other signature = true → message = other

end FreenetMigrate.Pointer

namespace FreenetMigrate.PointerClient

open Pointer

def POINTER_SIGNING_DOMAIN : Bytes := ascii "freenet-pointer/state-v1"

/-- The client's own copy of what an author signs. -/
def pointerSigningMessage (params : Bytes) (version : UInt32) (codeHash : Fixed 32) : Bytes :=
  POINTER_SIGNING_DOMAIN ++ params ++ (toBeBytes version).toList ++ codeHash.toList

theorem pointerSigningMessage_eq : pointerSigningMessage = signingMessage := rfl

end FreenetMigrate.PointerClient

namespace FreenetMigrate.PointerContract

open Pointer PointerClient

variable {VerifyingKey : Type} [Ed25519 VerifyingKey]

theorem decodeVerified_signed {bytes params : Bytes} {record : PointerRecord}
    (accepted : decodeVerified VerifyingKey bytes params = .ok record) :
    bytes = record.encode ∧ ∃ parsed, PointerParams.parse VerifyingKey params = .ok parsed ∧
      Ed25519.verifyStrict parsed.authorVk
        (signingMessage params record.version record.codeHash) record.signature = true := by
  cases parses : PointerParams.parse VerifyingKey params with
  | error e => simp [decodeVerified, parses, Bind.bind, Except.bind] at accepted
  | ok parsed =>
    obtain ⟨same, verified⟩ := (decodeVerified_eq_ok parses).mp accepted
    exact ⟨same, parsed, rfl, (verify_eq_ok.mp verified).2.2.2⟩

theorem parse_author {params : Bytes} {parsed : PointerParams VerifyingKey}
    (accepted : PointerParams.parse VerifyingKey params = .ok parsed) :
    ∃ key : Fixed 32, key.toList = params.take 32 ∧ Ed25519.fromBytes key = some parsed.authorVk := by
  unfold PointerParams.parse at accepted
  split at accepted
  · rename_i length
    dsimp only at accepted
    split at accepted
    · split at accepted
      · cases accepted
      · rename_i found decoded
        split at accepted
        · cases accepted
        · split at accepted
          · cases accepted
          · cases accepted
            exact ⟨_, rfl, decoded⟩
    · cases accepted
  · cases accepted

theorem parse_same_author {params other : Bytes} {parsed otherParsed : PointerParams VerifyingKey}
    (accepted : PointerParams.parse VerifyingKey params = .ok parsed)
    (otherAccepted : PointerParams.parse VerifyingKey other = .ok otherParsed)
    (same : params.take 32 = other.take 32) : parsed.authorVk = otherParsed.authorVk := by
  obtain ⟨key, keyBytes, decoded⟩ := parse_author accepted
  obtain ⟨otherKey, otherBytes, otherDecoded⟩ := parse_author otherAccepted
  obtain rfl : key = otherKey := Fixed.ext (by rw [keyBytes, otherBytes, same])
  rw [decoded] at otherDecoded
  exact Option.some.inj otherDecoded

/-- Two accepted records whose signature verifies under one key are one record of one params blob. -/
theorem accepted_unique [SingleMessage VerifyingKey] {bytes altered params other : Bytes}
    {record changed : PointerRecord} {parsed otherParsed : PointerParams VerifyingKey}
    (parses : PointerParams.parse VerifyingKey params = .ok parsed)
    (otherParses : PointerParams.parse VerifyingKey other = .ok otherParsed)
    (author : parsed.authorVk = otherParsed.authorVk)
    (accepted : decodeVerified VerifyingKey bytes params = .ok record)
    (otherAccepted : decodeVerified VerifyingKey altered other = .ok changed)
    (signature : record.signature = changed.signature) :
    params = other ∧ record = changed ∧ bytes = altered := by
  obtain ⟨rfl, found, read, signed⟩ := decodeVerified_signed accepted
  obtain ⟨rfl, otherFound, otherRead, otherSigned⟩ := decodeVerified_signed otherAccepted
  obtain rfl := Except.ok.inj (parses.symm.trans read)
  obtain rfl := Except.ok.inj (otherParses.symm.trans otherRead)
  rw [← author, ← signature] at otherSigned
  obtain ⟨sameParams, version, hash⟩ :=
    signingMessage_injective (SingleMessage.message_unique signed otherSigned)
  have same : record = changed := by
    obtain ⟨_, _, _⟩ := record
    obtain ⟨_, _, _⟩ := changed
    simp only [PointerRecord.mk.injEq]
    exact ⟨version, hash, signature⟩
  exact ⟨sameParams, same, by rw [same]⟩

/-- A signature on a successor pointer is none on a record of the same key. -/
theorem successor_signature_ne [SingleMessage VerifyingKey] {pointer : Successor.SuccessorPointer}
    {appId bytes params : Bytes} {record : PointerRecord} {parsed : PointerParams VerifyingKey}
    (parses : PointerParams.parse VerifyingKey params = .ok parsed)
    (accepted : decodeVerified VerifyingKey bytes params = .ok record)
    (verified : pointer.verify parsed.authorVk appId = .ok ()) : pointer.sig ≠ record.signature := by
  intro same
  obtain ⟨-, found, read, signed⟩ := decodeVerified_signed accepted
  obtain rfl := Except.ok.inj (parses.symm.trans read)
  have released := (Successor.SuccessorPointer.verify_eq_ok.mp verified).2
  rw [same] at released
  exact successor_signingMessage_ne _ _ _ _ _ _ (SingleMessage.message_unique released signed)

variable (VerifyingKey) in
/-- Signed messages are told apart across apps, versions and primitives. So an accepted record is
    accepted for no other params of its author, nor altered under its signature; and for no other
    params at all where a signature verifies under one key only. -/
theorem signed_messages_unambiguous [SingleMessage VerifyingKey] :
    (∀ (params other : Bytes) (version newer : UInt32) (codeHash otherHash : Fixed 32),
      (signingMessage params version codeHash = signingMessage other newer otherHash ∨
        pointerSigningMessage params version codeHash = pointerSigningMessage other newer otherHash ∨
        signingMessage params version codeHash = pointerSigningMessage other newer otherHash) →
      params = other ∧ version = newer ∧ codeHash = otherHash) ∧
    (∀ (codeHash otherHash : Fixed 32) (generation other : UInt32) (appId otherId : Bytes),
      Successor.signingMessage codeHash generation appId =
        Successor.signingMessage otherHash other otherId →
      codeHash = otherHash ∧ generation = other ∧ appId = otherId) ∧
    (∀ (codeHash hash : Fixed 32) (generation version : UInt32) (appId params : Bytes),
      Successor.signingMessage codeHash generation appId ≠ signingMessage params version hash ∧
      Successor.signingMessage codeHash generation appId ≠
        pointerSigningMessage params version hash) ∧
    (∀ (bytes altered params other : Bytes) (record changed : PointerRecord),
      decodeVerified VerifyingKey bytes params = .ok record →
      decodeVerified VerifyingKey altered other = .ok changed →
      record.signature = changed.signature →
      (params.take VERIFYING_KEY_LEN = other.take VERIFYING_KEY_LEN ∨
        ∀ (key wrong : VerifyingKey) (message second : Bytes) (signature : Fixed 64),
          Ed25519.verifyStrict key message signature = true →
          Ed25519.verifyStrict wrong second signature = true → key = wrong) →
      params = other ∧ record = changed ∧ bytes = altered) := by
  refine ⟨?_, ?_, ?_, ?_⟩
  · intro params other version newer codeHash otherHash same
    rw [pointerSigningMessage_eq, or_self, or_self] at same
    exact signingMessage_injective same
  · intro codeHash otherHash generation other appId otherId same
    exact Successor.signingMessage_injective same
  · intro codeHash hash generation version appId params
    have apart := successor_signingMessage_ne codeHash hash generation version appId params
    exact ⟨apart, apart⟩
  · intro bytes altered params other record changed accepted otherAccepted signature author
    obtain ⟨-, parsed, parses, signed⟩ := decodeVerified_signed accepted
    obtain ⟨-, otherParsed, otherParses, otherSigned⟩ := decodeVerified_signed otherAccepted
    refine accepted_unique parses otherParses ?_ accepted otherAccepted signature
    rcases author with same | oneKey
    · exact parse_same_author parses otherParses same
    · rw [← signature] at otherSigned
      exact oneKey _ _ _ _ _ signed otherSigned

instance : SingleMessage VectorKey where
  message_unique signed otherSigned := by
    simp only [Ed25519.verifyStrict, Bool.and_eq_true, beq_iff_eq] at signed otherSigned
    exact signed.1.trans otherSigned.1.symm

/-- The published record with its version raised: the published signature is none on it. -/
theorem signed_messages_unambiguous_raised :
    decodeVerified VectorKey { vectorRecord with version := 8 }.encode vectorParams ≠
      .ok { vectorRecord with version := 8 } := by
  intro forged
  obtain ⟨-, same, -⟩ := (signed_messages_unambiguous VectorKey).2.2.2 _ _ _ _ _ _
    decodeVerified_vectorRecord forged rfl (.inl rfl)
  exact absurd same (by decide)

/-- Two keys, each of which verifies one message, under one signature. -/
inductive TwinKey
  | first
  | second
  deriving DecidableEq

namespace TwinKey

def bytes : TwinKey → Fixed 32
  | first => ⟨2 :: List.replicate 31 0, rfl⟩
  | second => ⟨3 :: List.replicate 31 0, rfl⟩

def params (key : TwinKey) : Bytes := key.bytes.toList ++ ascii "river"

def record : PointerRecord := ⟨1, .zero 32, ⟨List.replicate 64 1, rfl⟩⟩

instance : Ed25519 TwinKey where
  fromBytes found := if found = bytes first then some first else
    if found = bytes second then some second else none
  asBytes := bytes
  isWeak _ := false
  verifyStrict key message signature :=
    message == signingMessage key.params record.version record.codeHash &&
      signature == record.signature

instance : SingleMessage TwinKey where
  message_unique signed otherSigned := by
    simp only [Ed25519.verifyStrict, Bool.and_eq_true, beq_iff_eq] at signed otherSigned
    exact signed.1.trans otherSigned.1.symm

theorem decodeVerified_record (key : TwinKey) :
    decodeVerified TwinKey record.encode key.params = .ok record := by
  cases key with
  | first => decide +kernel
  | second => decide +kernel

end TwinKey

/-- Messages that are unique to a key say nothing about another key: one record, accepted for the
    params of two authors. -/
theorem record_of_two_authors :
    (∀ (key : TwinKey) (message other : Bytes) (signature : Fixed 64),
      Ed25519.verifyStrict key message signature = true →
      Ed25519.verifyStrict key other signature = true → message = other) ∧
    decodeVerified TwinKey TwinKey.record.encode (TwinKey.params .first) = .ok TwinKey.record ∧
    decodeVerified TwinKey TwinKey.record.encode (TwinKey.params .second) = .ok TwinKey.record ∧
    TwinKey.params .first ≠ TwinKey.params .second :=
  ⟨fun _ _ _ _ => SingleMessage.message_unique, TwinKey.decodeVerified_record .first,
    TwinKey.decodeVerified_record .second, by decide⟩

end FreenetMigrate.PointerContract
