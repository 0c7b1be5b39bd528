import FreenetMigrate.Pointer.Network
import FreenetMigrate.Publisher.Keys

namespace FreenetMigrate.Publisher

open Text Pointer Build

def SIGNING_KEY_ERRORS : List String :=
  ["no signing key on stdin (redirect a key file into this command)",
    "a 'signing_key' line was found but has no '= value'",
    "the value given for the signing key is tagged ':vk:', not ':sk:'",
    "the value given for the signing key is tagged ':sig:', not ':sk:'",
    "empty signing key",
    "signing key is neither 64-char hex nor valid base58"]

theorem rejectWrongKeyType_error {s e : String}
    (refused : rejectWrongKeyType s "sk" "signing key" = .error e) : e ∈ SIGNING_KEY_ERRORS := by
  simp only [rejectWrongKeyType] at refused
  split at refused
  · cases refused
  · generalize String.ofList ((s.toList.splitOn ':').getD ((s.toList.splitOn ':').length - 2) []) =
      tag at refused
    split at refused
    · cases refused
    · rename_i claimed
      simp only [Bool.or_eq_true, Bool.not_eq_true', beq_iff_eq, not_or, Bool.not_eq_false,
        List.contains_cons, List.contains_nil, Bool.or_false] at claimed
      obtain ⟨rfl | rfl | rfl, other⟩ := claimed
      · rw [if_neg (by decide)] at refused
        rw [← Except.error.inj refused]
        decide
      · exact absurd rfl other
      · rw [if_neg (by decide)] at refused
        rw [← Except.error.inj refused]
        decide

section Secret

variable [Bs58] {SigningKey VerifyingKey : Type} [Signer SigningKey VerifyingKey]

theorem decodeKeyMaterial_error {s e : String}
    (failed : decodeKeyMaterial s 32 "signing key" = .error e) :
    e ∈ SIGNING_KEY_ERRORS ∨ ∃ n : Nat, e = s!"signing key decoded to {n} bytes, expected 32" := by
  simp only [decodeKeyMaterial] at failed
  generalize keyToken s = token at failed
  split at failed
  · rw [← Except.error.inj failed]
    left
    decide
  · split at failed
    · rename_i hexadecimal
      obtain ⟨length, digits⟩ := hexadecimal
      rw [all_isSome_iff] at digits
      rw [len_of_digits digits] at length
      obtain ⟨bytes, spells⟩ := (hexText_iff token).mp ⟨by omega, digits⟩
      rw [fromHex_eq_ok.mpr spells] at failed
      cases failed
    · split at failed
      · rw [if_pos (by decide)] at failed
        rw [← Except.error.inj failed]
        left
        decide
      · split at failed
        · rename_i decoded _ _
          refine .inr ⟨decoded.length, (Except.error.inj failed).symm.trans ?_⟩
          simp only [String.append_assoc]
          rfl
        · cases failed

variable (VerifyingKey) in
/-- No error about the signing key quotes any of it: beyond the wrong tag or the number of bytes it
    decodes to, what is said depends on nothing in the text. -/
theorem signing_key_errors_tell_nothing {text e : String}
    (failed : (signingKeyFromText VerifyingKey text : Except String SigningKey) = .error e) :
    e ∈ SIGNING_KEY_ERRORS ∨ ∃ n : Nat, e = s!"signing key decoded to {n} bytes, expected 32" := by
  unfold signingKeyFromText at failed
  split at failed
  · rw [← Except.error.inj failed]
    left
    decide
  · cases found : signingKeyToken text with
    | error reason =>
      rw [found] at failed
      obtain rfl := Except.error.inj failed
      unfold signingKeyToken at found
      split at found
      · split at found
        · cases found
        · rw [← Except.error.inj found]
          left
          decide
      · cases found
    | ok token =>
      simp only [found, Bind.bind, Except.bind] at failed
      cases typed : rejectWrongKeyType token "sk" "signing key" with
      | error reason =>
        rw [typed] at failed
        obtain rfl := Except.error.inj failed
        exact .inl (rejectWrongKeyType_error typed)
      | ok =>
        cases decoded : decodeKeyMaterial token 32 "signing key" with
        | error reason =>
          simp only [typed, decoded] at failed
          obtain rfl := Except.error.inj failed
          exact decodeKeyMaterial_error decoded
        | ok bytes =>
          simp only [typed, decoded, Pure.pure, Except.pure] at failed
          cases failed

end Secret

/-- The line of a key file that has the signing key: `signing_key = value`, indented and spaced at
    will, the value in quotes or bare, with something behind it. -/
structure KeyLine where
  indent : List Char
  gap : List Char
  space : List Char
  quoted : Bool
  value : List Char
  rest : List Char

def KeyLine.text (line : KeyLine) : List Char :=
  line.indent ++ ("signing_key".toList ++ (line.gap ++ '=' :: (line.space ++
    if line.quoted then '"' :: (line.value ++ '"' :: line.rest) else line.value ++ line.rest)))

/-- A quoted value has no quote in it. A bare one has no comment sign in it and is not quoted or
    spaced itself, and only blanks and a comment stand behind it. -/
structure KeyLine.WellFormed (line : KeyLine) : Prop where
  indent : Blank line.indent
  gap : Blank line.gap
  space : Blank line.space
  filled : line.value ≠ []
  quoted : line.quoted = true → '"' ∉ line.value
  bare : line.quoted = false → Tight line.value ∧ '#' ∉ line.value ∧ line.value.head? ≠ some '"' ∧
    ∃ blank, Blank blank ∧ (line.rest = blank ∨ ∃ comment, line.rest = blank ++ '#' :: comment)
  single : '\n' ∉ line.text
  complete : line.text.getLast? ≠ some '\r'

theorem not_mem_of_blank {text : List Char} {c : Char} (blank : Blank text)
    (visible : isWhitespace c = false) : c ∉ text := by
  intro member
  rw [blank c member] at visible
  cases visible

theorem trimStart_visible {c : Char} (visible : isWhitespace c = false) (rest : List Char) :
    trimStart (c :: rest) = c :: rest := List.dropWhile_cons_of_neg (by simp [visible])

theorem rdropWhile_append (front : List Char) {c : Char} (visible : isWhitespace c = false)
    (back : List Char) :
    (front ++ c :: back).rdropWhile isWhitespace = front ++ c :: back.rdropWhile isWhitespace := by
  induction back using List.reverseRecOn with
  | nil => rw [List.rdropWhile_concat_neg _ _ _ (by simp [visible]), List.rdropWhile_nil]
  | append_singleton back last ih =>
    have grouped : front ++ c :: (back ++ [last]) = front ++ c :: back ++ [last] := by simp
    rw [grouped]
    by_cases blank : isWhitespace last = true
    · rw [List.rdropWhile_concat_pos _ _ _ blank, List.rdropWhile_concat_pos _ _ _ blank, ih]
    · rw [List.rdropWhile_concat_neg _ _ _ blank, List.rdropWhile_concat_neg _ _ _ blank, ← grouped]

theorem takeWhile_ne {c : Char} {front : List Char} (absent : c ∉ front) (back : List Char) :
    (front ++ c :: back).takeWhile (· != c) = front := by
  have apart : ∀ other ∈ front, (other != c) = true := by
    intro other member
    exact bne_iff_ne.mpr fun same => absent (same ▸ member)
  rw [List.takeWhile_append_of_pos apart]
  simp

/-- The value is found between its quotes, or between the blanks and the comment. -/
theorem unquote_shown {line : KeyLine} (formed : line.WellFormed) :
    unquoteTomlValue (line.space ++
      if line.quoted then '"' :: (line.value ++ '"' :: line.rest) else line.value ++ line.rest) =
        line.value := by
  unfold unquoteTomlValue
  cases quoted : line.quoted with
  | true =>
    have visible : isWhitespace '"' = false := by decide
    have kept : trim (line.space ++ '"' :: (line.value ++ '"' :: line.rest)) =
        '"' :: (line.value ++ '"' :: line.rest.rdropWhile isWhitespace) := by
      rw [trim, trimStart_blank formed.space, trimStart_visible visible]
      exact rdropWhile_append ('"' :: line.value) visible line.rest
    simp only [if_true, kept]
    rw [if_pos (by simp), takeWhile_ne (formed.quoted quoted)]
  | false =>
    obtain ⟨tight, plain, unquoted, blank, isBlank, behind⟩ := formed.bare quoted
    have head (rest : List Char) : (line.value ++ rest).head? ≠ some '"' := by
      rw [List.head?_append_of_ne_nil _ formed.filled]
      exact unquoted
    simp only [Bool.false_eq_true, if_false]
    rcases behind with rest | ⟨comment, rest⟩
    · rw [rest, trim_blank formed.space tight isBlank formed.filled]
      split
      · rename_i more same
        exact absurd (by rw [same]; rfl) unquoted
      · rw [if_neg (by simpa using plain)]
    · have visible : isWhitespace '#' = false := by decide
      have kept : trim (line.space ++ (line.value ++ line.rest)) =
          line.value ++ (blank ++ '#' :: comment.rdropWhile isWhitespace) := by
        have start : trimStart (line.value ++ line.rest) = line.value ++ line.rest := by
          cases value : line.value with
          | nil => exact absurd value formed.filled
          | cons c more => exact trimStart_visible (tight.1 c (by rw [value]; rfl)) _
        rw [trim, trimStart_blank formed.space, start, rest, ← List.append_assoc,
          rdropWhile_append _ visible, List.append_assoc]
      rw [kept]
      split
      · rename_i more same
        exact absurd (by rw [same]; rfl) (head _)
      · have absent : '#' ∉ line.value ++ blank := by
          intro member
          rcases List.mem_append.mp member with inValue | inBlank
          · exact plain inValue
          · exact not_mem_of_blank isBlank visible inBlank
        rw [if_pos (by simp), ← List.append_assoc, takeWhile_ne absent]
        have none : Blank ([] : List Char) := by simp [Blank]
        exact trim_blank none tight isBlank formed.filled

/-- A line that gives a value to `signing_key` itself, with blanks before and behind the word. -/
def GivesKey (line : List Char) : Prop :=
  ∃ indent gap value, Blank indent ∧ Blank gap ∧
    line = indent ++ ("signing_key".toList ++ (gap ++ '=' :: value))

theorem isSigningKeyLine_iff {line : List Char} : isSigningKeyLine line = true ↔ GivesKey line := by
  have blanks (text : List Char) : Blank (text.takeWhile isWhitespace) := fun _ => List.mem_takeWhile_imp
  unfold isSigningKeyLine
  simp only [Bool.and_eq_true, List.isPrefixOf_iff_prefix]
  constructor
  · rintro ⟨⟨behind, word⟩, ⟨value, sign⟩⟩
    rw [← word, List.drop_left] at sign
    refine ⟨_, _, value, blanks line, blanks behind, ?_⟩
    have indent : line = line.takeWhile isWhitespace ++ ("signing_key".toList ++ behind) := by
      rw [word]
      exact List.takeWhile_append_dropWhile.symm
    have gap : behind = behind.takeWhile isWhitespace ++ '=' :: value := by
      change behind = _ ++ ("=".toList ++ value)
      rw [sign]
      exact List.takeWhile_append_dropWhile.symm
    rw [← gap]
    exact indent
  · rintro ⟨indent, gap, value, indented, apart, rfl⟩
    have letter : isWhitespace 's' = false := by decide
    have sign : isWhitespace '=' = false := by decide
    have start : trimStart (indent ++ ("signing_key".toList ++ (gap ++ '=' :: value))) =
        "signing_key".toList ++ (gap ++ '=' :: value) := by
      rw [trimStart_blank indented]
      exact trimStart_visible letter _
    have equals : trimStart (gap ++ '=' :: value) = '=' :: value := by
      rw [trimStart_blank apart, trimStart_visible sign]
    rw [start, List.drop_left, equals]
    exact ⟨List.prefix_append _ _, _, rfl⟩

theorem GivesKey.of_withoutReturn {line : List Char} (gives : GivesKey (withoutReturn line)) :
    GivesKey line := by
  obtain ⟨indent, gap, value, indented, apart, same⟩ := gives
  unfold withoutReturn at same
  split at same
  · rename_i ended
    obtain ⟨front, rfl⟩ := List.getLast?_eq_some_iff.mp ended
    rw [List.dropLast_concat] at same
    exact ⟨indent, gap, value ++ ['\r'], indented, apart, by rw [same]; simp⟩
  · exact ⟨indent, gap, value, indented, apart, same⟩

theorem KeyLine.WellFormed.givesKey {line : KeyLine} (formed : line.WellFormed) :
    GivesKey line.text := ⟨_, _, _, formed.indent, formed.gap, rfl⟩

theorem splitOnce_text {line : KeyLine} (formed : line.WellFormed) :
    ∃ before, splitOnce (.ofList line.text) '=' = some (before, .ofList (line.space ++
      if line.quoted then '"' :: (line.value ++ '"' :: line.rest) else line.value ++ line.rest)) := by
  refine ⟨.ofList (line.indent ++ ("signing_key".toList ++ line.gap)), splitOnce_eq_some.mpr ?_⟩
  have sign : isWhitespace '=' = false := by decide
  constructor
  · simp [KeyLine.text]
  · have word : '=' ∉ "signing_key".toList := by decide
    rw [String.toList_ofList, List.mem_append, List.mem_append]
    rintro (inIndent | inWord | inGap)
    · exact not_mem_of_blank formed.indent sign inIndent
    · exact word inWord
    · exact not_mem_of_blank formed.gap sign inGap

structure OtherLines (before : List (List Char)) : Prop where
  single : ∀ line ∈ before, '\n' ∉ line
  other : ∀ line ∈ before, ¬ GivesKey line

theorem lines_behind (before : List (List Char)) (tail : List Char)
    (single : ∀ line ∈ before, '\n' ∉ line) :
    lines (before.flatMap (· ++ ['\n']) ++ tail) = before.map withoutReturn ++ lines tail := by
  induction before with
  | nil => rfl
  | cons line before ih =>
    have rest := ih fun other member => single other (List.mem_cons_of_mem _ member)
    unfold lines at rest ⊢
    rw [List.flatMap_cons, List.append_assoc, List.append_assoc, List.singleton_append,
      linesFrom_line [] _ (single line List.mem_cons_self), rest]
    rfl

theorem lines_text {line : KeyLine} (formed : line.WellFormed) {after : List Char}
    (ending : after = [] ∨ ∃ more, after = '\n' :: more ∨ after = '\r' :: '\n' :: more) :
    ∃ more, lines (line.text ++ after) = line.text :: more := by
  have filled : line.text ≠ [] := by
    unfold KeyLine.text
    simp
  rcases ending with rfl | ⟨more, rfl | rfl⟩
  · refine ⟨[], ?_⟩
    rw [List.append_nil, lines, linesFrom_last [] formed.single, List.nil_append,
      List.isEmpty_eq_false_iff.mpr filled]
    rfl
  · refine ⟨lines more, ?_⟩
    rw [lines, linesFrom_line [] more formed.single, List.nil_append,
      withoutReturn_of_ne formed.complete]
    rfl
  · refine ⟨lines more, ?_⟩
    have single : '\n' ∉ line.text ++ ['\r'] := by
      rw [List.mem_append]
      rintro (inLine | inReturn)
      · exact formed.single inLine
      · exact absurd (List.mem_singleton.mp inReturn) (by decide)
    rw [show line.text ++ '\r' :: '\n' :: more = (line.text ++ ['\r']) ++ '\n' :: more by simp,
      lines, linesFrom_line [] more single, List.nil_append, withoutReturn_return]
    rfl

/-- The value of the first key line is what the key is read from. -/
theorem signingKeyToken_file {before : List (List Char)} {line : KeyLine} {after : List Char}
    (others : OtherLines before) (formed : line.WellFormed)
    (ending : after = [] ∨ ∃ more, after = '\n' :: more ∨ after = '\r' :: '\n' :: more) :
    signingKeyToken (.ofList (before.flatMap (· ++ ['\n']) ++ (line.text ++ after))) =
      .ok (.ofList line.value) := by
  obtain ⟨more, read⟩ := lines_text formed ending
  obtain ⟨start, split⟩ := splitOnce_text formed
  have skipped : (before.map withoutReturn).find? isSigningKeyLine = none := by
    rw [List.find?_eq_none]
    intro other member
    obtain ⟨original, inside, rfl⟩ := List.mem_map.mp member
    exact fun found => others.other original inside (isSigningKeyLine_iff.mp found).of_withoutReturn
  have found : (lines (before.flatMap (· ++ ['\n']) ++ (line.text ++ after))).find? isSigningKeyLine =
      some line.text := by
    rw [lines_behind before _ others.single, List.find?_append, skipped, read,
      List.find?_cons_of_pos (isSigningKeyLine_iff.mpr formed.givesKey)]
    rfl
  simp only [signingKeyToken, String.toList_ofList, found, split, unquote_shown formed]

/-- A signing key's bytes in hex or in base58, behind tags that do not claim another type. -/
structure WritesKey (value : List Char) (seed : Fixed 32) : Prop where
  parts : ∃ front token, value = front ++ token ∧
    (Spells token seed.toList ∨ Base58.encode seed.toList = .ofList token) ∧
    (front = [] ∨ ∃ app tag, ':' ∉ tag ∧ tag ≠ "vk".toList ∧ tag ≠ "sig".toList ∧
      (front = tag ++ [':'] ∨ front = app ++ ':' :: (tag ++ [':'])))

theorem alphabet_plain : ∀ c ∈ Base58.ALPHABET, c ≠ ':' ∧ isWhitespace c = false := by
  have all : (Base58.ALPHABET.all fun c => c != ':' && !isWhitespace c) = true := by decide
  simpa using all

theorem hexDigit_plain {c : Char} (digit : IsHexDigit c) : c ≠ ':' ∧ isWhitespace c = false := by
  have table : ∀ n < 128, IsHexDigit (Char.ofNat n) →
      Char.ofNat n ≠ ':' ∧ isWhitespace (Char.ofNat n) = false := by decide
  have here := table c.toNat (hexDigit_ascii digit)
  rw [Char.ofNat_toNat] at here
  exact here digit

theorem token_plain {token : List Char} {bytes : Bytes}
    (spelt : Spells token bytes ∨ Base58.encode bytes = .ofList token) :
    ∀ c ∈ token, c ≠ ':' ∧ isWhitespace c = false := by
  intro c member
  rcases spelt with spells | encoded
  · exact hexDigit_plain (((hexText_iff token).mpr ⟨bytes, spells⟩).2 c member)
  · have same := congrArg String.toList encoded
    rw [Base58.encode, String.toList_ofList, String.toList_ofList] at same
    rw [← same] at member
    obtain ⟨digit, inside, rfl⟩ := List.mem_map.mp member
    have bound := Digits.rebase_lt (b := 256) (c := 58) (by decide) _ digit inside
    apply alphabet_plain
    have all : ∀ digit < 58, Base58.symbol digit ∈ Base58.ALPHABET := by decide
    exact all digit bound

theorem tight_of_visible {text : List Char} (visible : ∀ c ∈ text, isWhitespace c = false) : Tight text :=
  ⟨fun c head => visible c (List.mem_of_head? head), fun c last => visible c (List.mem_of_getLast? last)⟩

theorem keyToken_value (front : List Char) {token : List Char}
    (plain : ∀ c ∈ token, c ≠ ':' ∧ isWhitespace c = false)
    (tagged : front = [] ∨ ∃ before, front = before ++ [':']) :
    keyToken (.ofList (front ++ token)) = token := by
  have absent : ':' ∉ token := fun member => (plain ':' member).1 rfl
  have tight : Tight token := tight_of_visible fun c member => (plain c member).2
  unfold keyToken
  rw [String.toList_ofList]
  rcases tagged with rfl | ⟨before, rfl⟩
  · rw [List.nil_append, lastSegment_of_not_mem absent, trim_of_tight tight]
  · rw [List.append_assoc, List.singleton_append, lastSegment_append before absent, trim_of_tight tight]

/-- A tag that claims no other type is no reason to refuse a value. -/
theorem rejectWrongKeyType_tag {s what : String} (front : List (List Char)) {tag : List Char}
    (token : List Char) (parts : s.toList.splitOn ':' = front ++ [tag, token]) (vk : tag ≠ "vk".toList)
    (sig : tag ≠ "sig".toList) : rejectWrongKeyType s "sk" what = .ok () := by
  have long : ¬ (front ++ [tag, token]).length < 2 := by simp
  have found : (front ++ [tag, token]).getD ((front ++ [tag, token]).length - 2) [] = tag := by
    simp
  have notVk : String.ofList tag ≠ "vk" := fun same => vk (by rw [← same, String.toList_ofList])
  have notSig : String.ofList tag ≠ "sig" := fun same => sig (by rw [← same, String.toList_ofList])
  simp only [rejectWrongKeyType, parts, if_neg long, found]
  by_cases own : String.ofList tag = "sk"
  · rw [own]
    rfl
  · rw [if_pos]
    simp [notVk, notSig, own]

theorem rejectWrongKeyType_value {value : List Char} {seed : Fixed 32} (writes : WritesKey value seed)
    (what : String) : rejectWrongKeyType (.ofList value) "sk" what = .ok () := by
  obtain ⟨front, token, rfl, spelt, tagged⟩ := writes.parts
  have absent : ':' ∉ token := fun member => (token_plain spelt ':' member).1 rfl
  rcases tagged with rfl | ⟨app, tag, single, vk, sig, rfl | rfl⟩
  · have parts : (String.ofList ([] ++ token)).toList.splitOn ':' = [token] := by
      rw [String.toList_ofList, List.nil_append, List.splitOn_eq_singleton absent]
    simp only [rejectWrongKeyType, parts]
    exact if_pos (by simp)
  · refine rejectWrongKeyType_tag [] token ?_ vk sig
    rw [String.toList_ofList, List.append_assoc, List.singleton_append,
      List.splitOn_append_cons_self, List.splitOn_eq_singleton single,
      List.splitOn_eq_singleton absent]
    rfl
  · refine rejectWrongKeyType_tag (app.splitOn ':') token ?_ vk sig
    rw [String.toList_ofList, show app ++ ':' :: (tag ++ [':']) ++ token =
        app ++ ':' :: (tag ++ ':' :: token) by simp, List.splitOn_append_cons_self,
      List.splitOn_append_cons_self, List.splitOn_eq_singleton single,
      List.splitOn_eq_singleton absent]
    rfl

section

variable [Bs58] [LawfulBs58] {SigningKey VerifyingKey : Type} [Signer SigningKey VerifyingKey]

variable (VerifyingKey) in
/-- A key file yields the signing key it holds, whatever lines stand before its line, `signing_key`
    with something behind it among them, and whatever follows it. -/
theorem key_file_read (before : List (List Char)) (line : KeyLine) (after : List Char)
    (seed : Fixed 32) (others : OtherLines before) (formed : line.WellFormed)
    (ending : after = [] ∨ ∃ more, after = '\n' :: more ∨ after = '\r' :: '\n' :: more)
    (writes : WritesKey line.value seed) :
    (signingKeyFromText VerifyingKey
      (.ofList (before.flatMap (· ++ ['\n']) ++ (line.text ++ after))) : Except String SigningKey) =
      .ok (Signer.fromBytes VerifyingKey seed) := by
  have token := signingKeyToken_file others formed ending
  obtain ⟨front, key, value, spelt, tagged⟩ := writes.parts
  have behind : front = [] ∨ ∃ before, front = before ++ [':'] := by
    rcases tagged with rfl | ⟨app, tag, -, -, -, rfl | rfl⟩
    · exact .inl rfl
    · exact .inr ⟨tag, rfl⟩
    · exact .inr ⟨app ++ ':' :: tag, by simp⟩
  have decoded : decodeKeyMaterial (.ofList line.value) 32 "signing key" = .ok seed.toList := by
    rw [decodeKeyMaterial_eq_ok, value, keyToken_value front (token_plain spelt) behind]
    exact ⟨seed.length_toList, spelt⟩
  have whole : filled 32 seed.toList = seed := Fixed.ext (filled_toList seed.length_toList)
  have filledText : (trim (before.flatMap (· ++ ['\n']) ++ (line.text ++ after))).isEmpty = false := by
    rw [List.isEmpty_eq_false_iff]
    have letter : 's' ∈ line.text := by simp [KeyLine.text]
    exact trim_ne_nil (List.mem_append_right _ (List.mem_append_left _ letter)) (by decide)
  unfold signingKeyFromText
  rw [String.toList_ofList, filledText, if_neg Bool.false_ne_true]
  simp only [token, rejectWrongKeyType_value writes, decoded, whole, Bind.bind, Except.bind,
    Pure.pure, Except.pure]

end

section

open PointerContract (VectorKey)
open PointerNetwork (VectorSigner)

local instance : Bs58 := standardBs58
local instance : LawfulBs58 := standardBs58_lawful

def zeroLine : KeyLine where
  indent := []
  gap := [' ']
  space := [' ']
  quoted := true
  value := hex (List.replicate 32 0)
  rest := " # in use".toList

theorem zeroLine_formed : zeroLine.WellFormed where
  indent := by simp [zeroLine, Blank]
  gap := by simp [zeroLine, Blank, isWhitespace]
  space := by simp [zeroLine, Blank, isWhitespace]
  filled := by decide
  quoted _ := by decide
  bare bare := by cases bare
  single := by decide
  complete := by decide

theorem key_file_read_backup :
    (signingKeyFromText VectorKey
      (.ofList (["signing_key_backup = 1".toList].flatMap (· ++ ['\n']) ++ (zeroLine.text ++ []))) :
        Except String VectorSigner) = .ok .author := by
  have others : OtherLines ["signing_key_backup = 1".toList] := by
    constructor
    · intro line member
      obtain rfl := List.mem_singleton.mp member
      decide
    · intro line member
      obtain rfl := List.mem_singleton.mp member
      rw [← isSigningKeyLine_iff]
      decide
  have writes : WritesKey zeroLine.value (.zero 32) :=
    ⟨[], hex (List.replicate 32 0), rfl, .inl (by unfold Spells; decide), .inl rfl⟩
  exact key_file_read VectorKey _ zeroLine [] (.zero 32) others zeroLine_formed (.inl rfl) writes

theorem signing_key_errors_tell_nothing_verifying :
    "the value given for the signing key is tagged ':vk:', not ':sk:'" ∈ SIGNING_KEY_ERRORS ∨
      ∃ n : Nat, "the value given for the signing key is tagged ':vk:', not ':sk:'" =
        s!"signing key decoded to {n} bytes, expected 32" := by
  have failed : (signingKeyFromText VectorKey "river:v1:vk:1111" : Except String VectorSigner) =
      .error "the value given for the signing key is tagged ':vk:', not ':sk:'" := by decide +kernel
  exact signing_key_errors_tell_nothing VectorKey failed

end

end FreenetMigrate.Publisher
