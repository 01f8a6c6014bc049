import ReproitCloud.Data.Json

/-!
# Checks of the protocol

An SDK sends events and evidence, and every part of a batch is checked before anything is
stored.  This module has what the checks are made of: the limits, the reasons of a refusal,
the alphabets of tokens and hashes, and the length of a value's JSON text.

A check gives `ok` or the reason, and checks are put one after the other.  `both_ok_iff` and
`all_ok_iff` say when such a chain accepts.
-/

namespace ReproitCloud

open Lib

namespace Protocol

/-! ## Limits -/

/-- `VERSION`. -/
def protocolVersion : Nat := 1

def maxFrameBytes : Nat := 1024 * 1024

def maxBatchFrames : Nat := 5000

def maxBatchGraphs : Nat := 256

def maxArtifactNodes : Nat := 4096

def maxTokenBytes : Nat := 128

def maxTextBytes : Nat := 16 * 1024

def maxContextBytes : Nat := 64 * 1024

/-! ## Reasons -/

/-- `ReasonCode`. -/
inductive ReasonCode where
  | frameTooLarge
  | batchTooLarge
  | malformedFrame
  | unsupportedVersion
  | invalidScope
  | invalidSequence
  | invalidEvent
  | incompleteStream
  | noObservations
  | authorityUnavailable
  | invalidArtifact
deriving DecidableEq, Repr

/-- All reasons, in the order of their declaration, which is the order `Ord` gives them. -/
def ReasonCode.all : List ReasonCode :=
  [frameTooLarge, batchTooLarge, malformedFrame, unsupportedVersion, invalidScope,
    invalidSequence, invalidEvent, incompleteStream, noObservations, authorityUnavailable,
    invalidArtifact]

def ReasonCode.asStr : ReasonCode → String
  | frameTooLarge => "frame-too-large"
  | batchTooLarge => "batch-too-large"
  | malformedFrame => "malformed-frame"
  | unsupportedVersion => "unsupported-version"
  | invalidScope => "invalid-scope"
  | invalidSequence => "invalid-sequence"
  | invalidEvent => "invalid-event"
  | incompleteStream => "incomplete-stream"
  | noObservations => "no-observations"
  | authorityUnavailable => "authority-unavailable"
  | invalidArtifact => "invalid-artifact"

/-! ## Checks -/

/-- The result of a check: nothing, or `ProtocolError` with its reason. -/
abbrev Check := Except ReasonCode Unit

/-- A condition with the reason of its refusal. -/
def require (condition : Bool) (reason : ReasonCode) : Check :=
  if condition then .ok () else .error reason

/-- A check on every value of a list. -/
def each {α : Type} (check : α → Check) : List α → Check
  | [] => .ok ()
  | a :: rest => check a >>= fun _ => each check rest

section Chains

variable {α : Type} {check : α → Check} {a b : Check}

@[simp] theorem require_ok_iff {condition : Bool} {reason : ReasonCode} :
    require condition reason = .ok () ↔ condition = true := by
  cases condition <;> simp [require]

/-- Two checks accept when each of them does. -/
@[simp] theorem both_ok_iff : (a >>= fun _ => b) = .ok () ↔ a = .ok () ∧ b = .ok () := by
  cases a with
  | error reason => simp [bind, Except.bind]
  | ok u => simp [bind, Except.bind]

@[simp] theorem all_ok_iff {values : List α} :
    each check values = .ok () ↔ ∀ v ∈ values, check v = .ok () := by
  induction values with
  | nil => simp [each]
  | cons v values ih => rw [each, both_ok_iff, ih, List.forall_mem_cons]

end Chains

/-! ## Tokens, hashes and texts -/

/-- A byte of a token. -/
def tokenChar (c : Char) : Bool := c.isAlphanum || c = '-' || c = '_' || c = '.' || c = ':'

def lowerTokenChar (c : Char) : Bool := c.isLower || c.isDigit || c = '-' || c = '_'

/-- `validate_token`. -/
def validateToken (value : String) : Check :=
  require (!value.isEmpty && value.utf8ByteSize ≤ maxTokenBytes && value.toList.all tokenChar)
    .invalidEvent

/-- `validate_lower_token`. -/
def validateLowerToken (value : String) : Check :=
  validateToken value >>= fun _ => require (value.toList.all lowerTokenChar) .invalidEvent

/-- A check on a value that may be missing. -/
def optional (check : String → Check) : Option String → Check
  | none => .ok ()
  | some value => check value

/-- `validate_text`. -/
def validateText (maxBytes : Nat) (value : String) : Check :=
  require (value.utf8ByteSize ≤ maxBytes) .invalidEvent

/-- `validate_strings`. -/
def validateStrings (values : List String) (maxCount maxBytes : Nat) : Check :=
  require (values.length ≤ maxCount) .invalidEvent >>= fun _ => each (validateText maxBytes) values

/-- A digit of a hash: hexadecimal, and no capital. -/
def hashChar (c : Char) : Bool := c.isDigit || ('a' ≤ c && c ≤ 'f')

/-- `valid_hash`. -/
def validHash (value : String) (length : Nat) : Bool :=
  value.utf8ByteSize = length && value.toList.all hashChar

theorem validateToken_ok_iff {value : String} :
    validateToken value = .ok () ↔
      value ≠ "" ∧ value.utf8ByteSize ≤ maxTokenBytes ∧ ∀ c ∈ value.toList, tokenChar c = true := by
  simp [validateToken, and_assoc]

/-! ## The text of a value -/

/-- A character of a JSON string, as `serde_json` writes it. -/
def escaped (c : Char) : List Char :=
  let backslash := Char.ofNat 92
  if c = Char.ofNat 34 || c = backslash then [backslash, c]
  else if c = Char.ofNat 8 then [backslash, 'b']
  else if c = Char.ofNat 12 then [backslash, 'f']
  else if c = Char.ofNat 10 then [backslash, 'n']
  else if c = Char.ofNat 13 then [backslash, 'r']
  else if c = Char.ofNat 9 then [backslash, 't']
  else if c.toNat < 32 then
    backslash :: 'u' :: '0' :: '0' :: (Nat.digitChar (c.toNat / 16)) :: [Nat.digitChar (c.toNat % 16)]
  else [c]

def quoted (s : String) : List Char :=
  Char.ofNat 34 :: s.toList.flatMap escaped ++ [Char.ofNat 34]

mutual

/-- `serde_json::to_vec`, as characters. -/
def toVec (R : Renderings) : Json → List Char
  | .null => "null".toList
  | .bool b => (Json.boolText b).toList
  | .number n => (Json.serdeNumber R n).toList
  | .string s => quoted s
  | .array items => '[' :: itemsVec R items ++ [']']
  | .object members => Char.ofNat 123 :: membersVec R members ++ [Char.ofNat 125]

def itemsVec (R : Renderings) : List Json → List Char
  | [] => []
  | [v] => toVec R v
  | v :: rest => toVec R v ++ ',' :: itemsVec R rest

def membersVec (R : Renderings) : List (String × Json) → List Char
  | [] => []
  | [(k, v)] => quoted k ++ ':' :: toVec R v
  | (k, v) :: rest => quoted k ++ ':' :: toVec R v ++ ',' :: membersVec R rest

end

/-- The length of a value's text in bytes. -/
def encodedBytes (R : Renderings) (value : Json) : Nat := (String.ofList (toVec R value)).utf8ByteSize

/-- `validate_value`. -/
def validateValue (R : Renderings) (maxBytes : Nat) (value : Json) : Check :=
  require (encodedBytes R value ≤ maxBytes) .invalidEvent

end Protocol

end ReproitCloud
