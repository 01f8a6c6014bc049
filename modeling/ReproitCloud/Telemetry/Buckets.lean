import ReproitCloud.Lib.JoinedFields
import ReproitCloud.Http.Request
import ReproitCloud.Protocol.Batch

/-!
# Bucket ids

An error is filed under a bucket id, a hash of what identifies its cause.  With a
finding identity that is the identity, part by part (`structuralBugId`).  Without
one it is the normalized message, the signature and the signature of the first step
(`derivedBucketId`).  SHA-256, with its digest in hexadecimal, is a parameter.

In both cases free texts are joined with a separator that they may hold themselves.
So different causes can be hashed from the same bytes.  `causes_apart_iff` says for
which this is so.

`normalizeMessage` is a loop that collects tokens of letters and digits and replaces
each when it is complete.  `normalizeMessage_token` is its rule: a token that stands
alone between other characters is replaced by its class, wherever it stands.  A
hexadecimal hash is of one class unless all its digits are decimal, and this class is
another one (`same_hash_iff`).
-/

namespace ReproitCloud

open Lib Protocol

/-! ## Messages -/

/-- `normalize_token`. -/
def normalizeToken (token : List Char) : List Char :=
  if token.all Char.isDigit then ['N']
  else
    let lower := token.map Char.toLower
    if ['0', 'x'].isPrefixOf lower && 6 ≤ lower.length && (lower.drop 2).all isHexDigit then
      "0xID".toList
    else
      let hasDigit := token.any Char.isDigit
      let hasAlpha := token.any Char.isAlpha
      let allHex := token.all isHexDigit
      if 7 ≤ token.length && allHex && hasAlpha then "ID".toList
      else if 8 ≤ token.length && hasDigit && hasAlpha then "ID".toList
      else token

/-- The variables of the loop of `normalize_message`. -/
structure Normalizing where
  out : List Char := []
  lastWasSpace : Bool := false
  token : List Char := []
deriving DecidableEq, Repr

namespace Normalizing

/-- `flush_token`. -/
def flushToken (s : Normalizing) : Normalizing :=
  if s.token = [] then s else { s with out := s.out ++ normalizeToken s.token, token := [] }

/-- One turn of the loop. -/
def next (s : Normalizing) (c : Char) : Normalizing :=
  if c.isAlphanum then { s with token := s.token ++ [c], lastWasSpace := false }
  else
    let s := s.flushToken
    if isWhitespace c then
      { s with out := if s.lastWasSpace then s.out else s.out ++ [' '], lastWasSpace := true }
    else { s with out := s.out ++ [c], lastWasSpace := false }

end Normalizing

/-- `normalize_message`. -/
def normalizeMessage (m : List Char) : List Char :=
  trim (m.foldl Normalizing.next {}).flushToken.out

/-! ## Finding identities -/

/-- The fields of an identity, in the order of their declaration. -/
def identityFields : List String :=
  ["oracle", "invariant", "kind", "message", "frame", "trigger", "boundary"]

/-- A text that may be null. -/
def nullableText : Json → Option (Option String)
  | .null => some none
  | .string s => some (some s)
  | _ => none

/-- `serde_json::from_value` of an identity.  An object has no other members, and a
missing boundary is none.  An array has the fields in their order. -/
def FindingIdentity.fromValue : Json → Option FindingIdentity
  | .object members =>
    if members.all fun m => m.1 ∈ identityFields then do
      let oracle ← (members.lookup "oracle").bind Json.asStr
      let invariant ← (members.lookup "invariant").bind Json.asStr
      let kind ← (members.lookup "kind").bind Json.asStr
      let message ← (members.lookup "message").bind Json.asStr
      let frame ← (members.lookup "frame").bind Json.asStr
      let trigger ← (members.lookup "trigger").bind Json.asStr
      let boundary ← nullableText ((members.lookup "boundary").getD .null)
      return { oracle, invariant, kind, message, frame, trigger, boundary }
    else none
  | .array [.string oracle, .string invariant, .string kind, .string message, .string frame,
      .string trigger, boundary] =>
    (nullableText boundary).map fun boundary =>
      { oracle, invariant, kind, message, frame, trigger, boundary }
  | _ => none

/-- `finding_identity`. -/
def findingIdentity (rec : ErrorRec) : Option FindingIdentity :=
  (rec.context.get? "findingIdentity").bind FindingIdentity.fromValue

/-! ## Ids -/

/-- What a hasher has been fed, update by update. -/
def fed (updates : List ByteArray) : ByteArray := updates.foldl (· ++ ·) ByteArray.empty

/-- The bytes of a text. -/
def utf8 (cs : List Char) : ByteArray := (String.ofList cs).toUTF8

/-- The parts of an identity, trimmed. -/
def structuralParts (i : FindingIdentity) : List (List Char) :=
  [i.oracle, i.invariant, i.kind, i.message, i.frame, i.trigger, i.boundary.getD ""].map
    fun part => trim part.toList

/-- What `structural_bug_id` hashes. -/
def structuralInput (i : FindingIdentity) : ByteArray :=
  fed (utf8 "reproit-structural-bug-v1\n".toList ::
    (structuralParts i).flatMap fun part => [utf8 part, utf8 ['\n']])

/-- The separator of `derived_bucket_id`, the byte `0x1f`. -/
def unitSeparator : Char := '\x1f'

/-- The parts of a record without an identity: its normalized message, its signature
and the signature of its first step. -/
def derivedParts (rec : ErrorRec) : List (List Char) :=
  [normalizeMessage rec.message.toList, rec.sig.toList,
    ((rec.path.head?.map Step.sig).getD "").toList]

/-- What `derived_bucket_id` hashes. -/
def derivedInput (rec : ErrorRec) : ByteArray :=
  fed [utf8 (normalizeMessage rec.message.toList), ⟨#[0x1f]⟩, utf8 rec.sig.toList, ⟨#[0x1f]⟩,
    utf8 ((rec.path.head?.map Step.sig).getD "").toList]

section Ids

variable (sha256 : ByteArray → List Char)

/-- `structural_bug_id`. -/
def structuralBugId (i : FindingIdentity) : String :=
  String.ofList ("bug_".toList ++ (sha256 (structuralInput i)).take 12)

/-- `derived_bucket_id`. -/
def derivedBucketId (rec : ErrorRec) : String :=
  String.ofList ("bkt_".toList ++ (sha256 (derivedInput rec)).take 12)

end Ids

/-! ## The identity of a stored finding -/

theorem FindingIdentity.fromValue_toValue (i : FindingIdentity) :
    FindingIdentity.fromValue i.toValue = some i := by
  obtain ⟨oracle, invariant, kind, message, frame, trigger, boundary⟩ := i
  cases boundary <;> rfl

/-- A finding that is ingested has its identity in its context. -/
theorem findingIdentity_of_error? {e : Event} {rec : ErrorRec} (h : e.error? = some rec) :
    ∃ signature message i path context, e = .finding signature message i path context ∧
      findingIdentity rec = some i := by
  cases e with
  | finding signature message i path context =>
    refine ⟨signature, message, i, path, context, rfl, ?_⟩
    cases h
    show ((Table.upsert _ "oracle" _ _).get? "findingIdentity").bind _ = _
    rw [Table.get?_upsert, if_neg (by decide), Table.get?_upsert, if_pos rfl]
    cases context.get? "findingIdentity" <;> exact FindingIdentity.fromValue_toValue i
  | action _ _ => cases h
  | observation _ _ _ _ _ _ _ _ => cases h
  | backend _ => cases h
  | graphEdge _ _ _ => cases h
  | streamDefect _ => cases h

/-! ## Which causes are hashed from the same bytes -/

theorem utf8_append (xs ys : List Char) : utf8 (xs ++ ys) = utf8 xs ++ utf8 ys := by
  rw [utf8, String.ofList_append]
  rfl

theorem utf8_inj {xs ys : List Char} : utf8 xs = utf8 ys ↔ xs = ys := by
  rw [utf8, utf8, String.toUTF8_eq_toByteArray, String.toUTF8_eq_toByteArray,
    String.toByteArray_inj, String.ofList_inj]

theorem fed_utf8 (texts : List (List Char)) : fed (texts.map utf8) = utf8 texts.flatten := by
  have hfold : ∀ (texts : List (List Char)) (before : List Char),
      (texts.map utf8).foldl (· ++ ·) (utf8 before) = utf8 (before ++ texts.flatten) := by
    intro texts
    induction texts with
    | nil => intro before; simp
    | cons text texts ih =>
      intro before
      rw [List.map_cons, List.foldl_cons, ← utf8_append, ih, List.flatten_cons, List.append_assoc]
  exact hfold texts []

theorem structuralInput_eq (i : FindingIdentity) :
    structuralInput i = utf8 ("reproit-structural-bug-v1\n".toList ++
      terminated '\n' (structuralParts i)) := by
  have hupdates : ∀ parts : List (List Char),
      (parts.flatMap fun part => [utf8 part, utf8 ['\n']]) =
        (parts.flatMap fun part => [part, ['\n']]).map utf8 := by
    intro parts
    rw [List.map_flatMap]
    rfl
  have hflatten : ∀ parts : List (List Char),
      (parts.flatMap fun part => [part, ['\n']]).flatten = terminated '\n' parts := by
    intro parts
    induction parts with
    | nil => rfl
    | cons part parts ih =>
      rw [List.flatMap_cons, List.flatten_append, ih]
      simp [terminated]
  rw [structuralInput, hupdates, ← List.map_cons, fed_utf8, List.flatten_cons, hflatten]

theorem structuralInput_inj {i j : FindingIdentity} : structuralInput i = structuralInput j ↔
    terminated '\n' (structuralParts i) = terminated '\n' (structuralParts j) := by
  rw [structuralInput_eq, structuralInput_eq, utf8_inj, List.append_right_inj]

theorem derivedInput_inj {a b : ErrorRec} : derivedInput a = derivedInput b ↔
    terminated unitSeparator (derivedParts a) = terminated unitSeparator (derivedParts b) := by
  have hseparator : (⟨#[0x1f]⟩ : ByteArray) = utf8 [unitSeparator] := by decide
  have hinput : ∀ rec : ErrorRec, ∃ text, derivedInput rec = utf8 text ∧
      terminated unitSeparator (derivedParts rec) = text ++ [unitSeparator] := by
    intro rec
    refine ⟨[normalizeMessage rec.message.toList, [unitSeparator], rec.sig.toList,
      [unitSeparator], ((rec.path.head?.map Step.sig).getD "").toList].flatten, ?_, ?_⟩
    · rw [← fed_utf8, derivedInput, hseparator]
      rfl
    · simp [terminated, derivedParts]
  obtain ⟨text, htext, hparts⟩ := hinput a
  obtain ⟨text', htext', hparts'⟩ := hinput b
  rw [htext, htext', hparts, hparts', utf8_inj, List.append_left_inj]

/-- Different causes are hashed from different bytes unless their parts are regrouped. -/
theorem causes_apart_iff (a b : ErrorRec) (i j : FindingIdentity) :
    ((derivedParts a ≠ derivedParts b → derivedInput a ≠ derivedInput b) ↔
      ¬ Regrouped unitSeparator (derivedParts a) (derivedParts b)) ∧
    ((structuralParts i ≠ structuralParts j → structuralInput i ≠ structuralInput j) ↔
      ¬ Regrouped '\n' (structuralParts i) (structuralParts j)) := by
  constructor
  · rw [ne_eq (derivedInput a), derivedInput_inj]
    exact terminated_apart_iff
  · rw [ne_eq (structuralInput i), structuralInput_inj]
    exact terminated_apart_iff

/-- What the check of a finding says of the texts that a record without an identity is
hashed from. -/
def validateTexts (rec : ErrorRec) : Check := do
  validateText maxTextBytes rec.sig
  validateText maxTextBytes rec.message
  each (fun step => validateText maxTextBytes step.sig) rec.path

/-- A separator at the end of a text may be one at the start of the next. -/
theorem causes_conflated :
    (¬ ∀ a b : ErrorRec, findingIdentity a = none → findingIdentity b = none →
      validateTexts a = .ok () → validateTexts b = .ok () →
      derivedParts a ≠ derivedParts b → derivedInput a ≠ derivedInput b) ∧
    ¬ ∀ i j : FindingIdentity, i.validate = .ok () → j.validate = .ok () →
      structuralParts i ≠ structuralParts j → structuralInput i ≠ structuralInput j := by
  constructor
  · intro h
    let a : ErrorRec := ⟨"cart\x1fpay", "lost", [⟨"home", "load", none⟩], .empty⟩
    let b : ErrorRec := ⟨"cart", "lost", [⟨"pay\x1fhome", "load", none⟩], .empty⟩
    have hparts : derivedParts a ≠ derivedParts b := by decide
    exact h a b rfl rfl (by decide) (by decide) hparts (derivedInput_inj.2 (by decide))
  · intro h
    let i : FindingIdentity := ⟨"crash", "alive", "panic", "lost\ncart", "pay", "", none⟩
    let j : FindingIdentity := ⟨"crash", "alive", "panic", "lost", "cart\npay", "", none⟩
    have hparts : structuralParts i ≠ structuralParts j := by decide
    exact h i j (by decide) (by decide) hparts (structuralInput_inj.2 (by decide))

/-! ## A token of a message -/

namespace Normalizing

variable {s : Normalizing} {c : Char}

theorem flushToken_token (s : Normalizing) : s.flushToken.token = [] := by
  unfold flushToken
  split
  · assumption
  · rfl

theorem flushToken_of_nil (h : s.token = []) : s.flushToken = s := by
  rw [flushToken, if_pos h]

theorem next_token_of_delimiter (hc : c.isAlphanum = false) : (s.next c).token = [] := by
  rw [next, if_neg (by simp [hc])]
  simp only
  split <;> exact flushToken_token s

/-- A delimiter completes the token before it. -/
theorem next_flushToken (hc : c.isAlphanum = false) : s.flushToken.next c = s.next c := by
  have hnot : ¬ c.isAlphanum = true := by simp [hc]
  simp only [next, if_neg hnot, flushToken_of_nil (flushToken_token s)]

/-- Letters and digits are collected. -/
theorem foldl_next_token {token : List Char} (htoken : ∀ c ∈ token, c.isAlphanum = true)
    (hne : token ≠ []) :
    token.foldl next s = { s with token := s.token ++ token, lastWasSpace := false } := by
  induction token generalizing s with
  | nil => exact absurd rfl hne
  | cons c token ih =>
    rw [List.forall_mem_cons] at htoken
    have hnext : s.next c = { s with token := s.token ++ [c], lastWasSpace := false } := by
      rw [next, if_pos htoken.1]
    rw [List.foldl_cons, hnext]
    cases token with
    | nil => rfl
    | cons d token =>
      rw [ih htoken.2 (List.cons_ne_nil d token)]
      simp

/-- The loop with something written before. -/
def behind (before : List Char) (s : Normalizing) : Normalizing :=
  { s with out := before ++ s.out }

theorem flushToken_behind (before : List Char) (s : Normalizing) :
    (s.behind before).flushToken = s.flushToken.behind before := by
  unfold flushToken behind
  split <;> simp

theorem next_behind (before : List Char) (s : Normalizing) (c : Char) :
    (s.behind before).next c = (s.next c).behind before := by
  rw [next, next, flushToken_behind]
  by_cases hc : c.isAlphanum
  · rw [if_pos hc, if_pos hc]
    rfl
  · rw [if_neg hc, if_neg hc]
    by_cases hspace : isWhitespace c
    · cases hlast : s.flushToken.lastWasSpace <;> simp [hspace, hlast, behind]
    · simp [hspace, behind]

theorem foldl_next_behind (before : List Char) (s : Normalizing) (rest : List Char) :
    rest.foldl next (s.behind before) = (rest.foldl next s).behind before := by
  induction rest generalizing s with
  | nil => rfl
  | cons c rest ih => rw [List.foldl_cons, next_behind, ih, List.foldl_cons]

end Normalizing

/-- A place for a token: no letter or digit before or after. -/
def Delimited (before after : List Char) : Prop :=
  (∀ c, before.getLast? = some c → c.isAlphanum = false) ∧
    ∀ c, after.head? = some c → c.isAlphanum = false

section Tokens

open Normalizing

variable {before after token : List Char}

theorem token_after_delimiter (h : ∀ c, before.getLast? = some c → c.isAlphanum = false) :
    (before.foldl next {}).token = [] := by
  cases hlast : before.getLast? with
  | none =>
    rw [List.getLast?_eq_none_iff] at hlast
    rw [hlast]
    rfl
  | some c =>
    obtain ⟨init, rfl⟩ := List.getLast?_eq_some_iff.1 hlast
    rw [List.foldl_append, List.foldl_cons, List.foldl_nil]
    exact next_token_of_delimiter (h c hlast)

/-- The loop over the rest of a message may complete the token first. -/
theorem foldl_next_flushToken (h : ∀ c, after.head? = some c → c.isAlphanum = false)
    (s : Normalizing) :
    (after.foldl next s).flushToken = (after.foldl next s.flushToken).flushToken := by
  cases after with
  | nil => exact (flushToken_of_nil (flushToken_token s)).symm
  | cons c after => rw [List.foldl_cons, List.foldl_cons, next_flushToken (h c rfl)]

/-- What a message is made of around a token. -/
theorem normalizeMessage_token (hplace : Delimited before after)
    (htoken : ∀ c ∈ token, c.isAlphanum = true) (hne : token ≠ []) :
    normalizeMessage (before ++ token ++ after) =
      trim ((before.foldl next {}).out ++ normalizeToken token ++
        (after.foldl next {}).flushToken.out) := by
  have hbefore := token_after_delimiter hplace.1
  have hmiddle : (token.foldl next (before.foldl next {})).flushToken =
      behind ((before.foldl next {}).out ++ normalizeToken token) {} := by
    rw [foldl_next_token htoken hne, hbefore, List.nil_append, flushToken, if_neg hne, behind,
      List.append_nil]
  rw [normalizeMessage, List.foldl_append, List.foldl_append, foldl_next_flushToken hplace.2,
    hmiddle, foldl_next_behind, flushToken_behind]
  rfl

/-- The ends of a text are trimmed on each side of something that is not blank. -/
theorem trim_append_middle {middle : List Char} (first last : Char)
    (hfirst : middle.head? = some first) (hlast : middle.getLast? = some last)
    (hf : isWhitespace first = false) (hl : isWhitespace last = false) (before after : List Char) :
    trim (before ++ middle ++ after) = before.dropWhile isWhitespace ++ middle ++
      (after.reverse.dropWhile isWhitespace).reverse := by
  have hdrop : ∀ (outer inner rest : List Char) (c : Char), inner.head? = some c →
      isWhitespace c = false → (outer ++ (inner ++ rest)).dropWhile isWhitespace =
        outer.dropWhile isWhitespace ++ (inner ++ rest) := by
    intro outer inner rest c hhead hc
    obtain ⟨inner', rfl⟩ : ∃ inner', inner = c :: inner' := by
      cases inner with
      | nil => cases hhead
      | cons d inner' => cases hhead; exact ⟨inner', rfl⟩
    rw [List.dropWhile_append]
    by_cases hall : outer.dropWhile isWhitespace = []
    · simp [hall, hc]
    · simp [hall]
  rw [trim, List.append_assoc, hdrop before middle after first hfirst hf]
  rw [← List.append_assoc, List.reverse_append, List.reverse_append,
    hdrop after.reverse middle.reverse _ last (by rw [List.head?_reverse, hlast]) hl]
  simp

end Tokens

/-! ## Hashes in messages -/

/-- A digit of a hash is a decimal one or a letter, and no `x`. -/
theorem hexDigit_classes {c : Char} (h : isHexDigit c = true) : c.isAlphanum = true ∧
    c.toLower ≠ 'x' ∧ (c.isDigit = false → c.isAlpha = true) := by
  have hcode : (48 ≤ c.toNat ∧ c.toNat ≤ 57) ∨ (97 ≤ c.toNat ∧ c.toNat ≤ 102) ∨
      (65 ≤ c.toNat ∧ c.toNat ≤ 70) := by
    simp only [isHexDigit, Char.isDigit, Char.le_def, UInt32.le_iff_toNat_le, ge_iff_le,
      Bool.or_eq_true, Bool.and_eq_true, decide_eq_true_eq] at h
    rcases h with (h | h) | h
    · exact .inl h
    · exact .inr (.inl h)
    · exact .inr (.inr h)
  rw [← Char.ofNat_toNat c]
  generalize c.toNat = n at hcode
  rcases hcode with ⟨hlo, hhi⟩ | ⟨hlo, hhi⟩ | ⟨hlo, hhi⟩ <;> interval_cases n <;> decide

/-- A hexadecimal token of seven digits or more. -/
structure BuildHash (h : List Char) : Prop where
  digits : h.all isHexDigit = true
  long : 7 ≤ h.length

/-- The class of a hash: a number when all its digits are decimal, and else an id. -/
theorem normalizeToken_buildHash {h : List Char} (hh : BuildHash h) :
    normalizeToken h = if h.all Char.isDigit then ['N'] else ['I', 'D'] := by
  have hclass := fun c hc => hexDigit_classes (List.all_eq_true.1 hh.digits c hc)
  unfold normalizeToken
  by_cases hnumber : h.all Char.isDigit = true
  · rw [if_pos hnumber, if_pos hnumber]
  · have hprefix : ['0', 'x'].isPrefixOf (h.map Char.toLower) = false := by
      cases hp : ['0', 'x'].isPrefixOf (h.map Char.toLower) with
      | false => rfl
      | true =>
        have hx : 'x' ∈ h.map Char.toLower :=
          (List.isPrefixOf_iff_prefix.1 hp).subset (by decide)
        obtain ⟨c, hc, hlower⟩ := List.mem_map.1 hx
        exact absurd hlower (hclass c hc).2.1
    have hletter : h.any Char.isAlpha = true := by
      rw [List.all_eq_true] at hnumber
      push Not at hnumber
      obtain ⟨c, hc, hdigit⟩ := hnumber
      exact List.any_eq_true.2 ⟨c, hc, (hclass c hc).2.2 (eq_false_of_ne_true hdigit)⟩
    simp [hnumber, hprefix, hletter, hh.digits, hh.long]

theorem derivedBucketId_congr (sha256 : ByteArray → List Char) {rec rec' : ErrorRec}
    (h : derivedInput rec = derivedInput rec') :
    derivedBucketId sha256 rec = derivedBucketId sha256 rec' :=
  congrArg (fun input => String.ofList ("bkt_".toList ++ (sha256 input).take 12)) h

/-- A message with another hash in it is normalized to the same, and its record gets the
same id, when both hashes are decimal numbers or neither is. -/
theorem same_hash_iff (sha256 : ByteArray → List Char) (rec : ErrorRec)
    {before after h h' : List Char} (hplace : Delimited before after) (hh : BuildHash h)
    (hh' : BuildHash h') :
    (normalizeMessage (before ++ h ++ after) = normalizeMessage (before ++ h' ++ after) ∧
      derivedBucketId sha256 { rec with message := String.ofList (before ++ h ++ after) } =
        derivedBucketId sha256 { rec with message := String.ofList (before ++ h' ++ after) }) ↔
    h.all Char.isDigit = h'.all Char.isDigit := by
  have hnormal : ∀ {h : List Char}, BuildHash h →
      normalizeMessage (before ++ h ++ after) =
        (before.foldl Normalizing.next {}).out.dropWhile isWhitespace ++
          (if h.all Char.isDigit then ['N'] else ['I', 'D']) ++
        ((after.foldl Normalizing.next {}).flushToken.out.reverse.dropWhile
          isWhitespace).reverse := by
    intro h hh
    have hne : h ≠ [] := by
      rintro rfl
      exact absurd hh.long (by decide)
    rw [normalizeMessage_token hplace
      (fun c hc => (hexDigit_classes (List.all_eq_true.1 hh.digits c hc)).1) hne,
      normalizeToken_buildHash hh]
    split
    · exact trim_append_middle 'N' 'N' rfl rfl (by decide) (by decide) _ _
    · exact trim_append_middle 'I' 'D' rfl rfl (by decide) (by decide) _ _
  have hmessage : normalizeMessage (before ++ h ++ after) = normalizeMessage (before ++ h' ++ after)
      ↔ h.all Char.isDigit = h'.all Char.isDigit := by
    rw [hnormal hh, hnormal hh', List.append_left_inj, List.append_right_inj]
    cases h.all Char.isDigit <;> cases h'.all Char.isDigit <;> decide
  rw [hmessage, and_iff_left_iff_imp]
  intro hclass
  have hsame := hmessage.2 hclass
  refine derivedBucketId_congr sha256 ?_
  simp only [derivedInput, String.toList_ofList, hsame]

theorem same_hash_iff_letters :
    normalizeMessage ("main.".toList ++ "deadbeef".toList ++ ".js".toList) =
      normalizeMessage ("main.".toList ++ "a1b2c3d4".toList ++ ".js".toList) :=
  ((same_hash_iff (fun _ => []) ⟨"", "", [], .empty⟩ ⟨by simp, by simp⟩
    ⟨by decide, by decide⟩ ⟨by decide, by decide⟩).2 (by decide)).1

/-- A hash of decimal digits is taken for a number. -/
theorem decimal_hash_differs :
    ¬ ∀ before after h h' : List Char, Delimited before after → BuildHash h → BuildHash h' →
      h'.length = h.length →
      normalizeMessage (before ++ h ++ after) = normalizeMessage (before ++ h' ++ after) := by
  intro hall
  have hplace : Delimited "main.".toList ".js".toList := ⟨by simp, by simp⟩
  have hsame := hall _ _ "1234567".toList "a1b2c3d".toList hplace ⟨by decide, by decide⟩
    ⟨by decide, by decide⟩ (by decide)
  revert hsame
  decide

end ReproitCloud
