import ReproitCloud.Data.Json

/-!
# Redaction

The events of a backend trace carry the input and the output of an operation.  `redact`
goes through such a value and puts a record in place of every value under a secret-named
key.  The record says what kind of value stood there, and how long a text or an array was.

`Related R` holds of two values that are equal but for the values under secret-named keys,
and relates these by `R`.

* `redaction_noninterfering`: values whose secrets agree in kind and size have one
  redaction.  A second redaction changes records only.  It makes each the record of an
  object, since that is what a record is, and a third one changes nothing.
* `redaction_is_not_idempotent`: the length of a password is in the first redaction and
  not in the second.
-/

namespace ReproitCloud

open Lib

/-! ## Secret names -/

/-- The parts of a name that make it secret. -/
def secretParts : List String :=
  ["password", "passwd", "secret", "token", "authorization", "cookie", "email", "phone", "apikey",
    "publishablekey", "privatekey", "accesskey", "signingkey", "idempotencykey"]

/-- `secret_field`. -/
def secretField (name : String) : Bool :=
  let name := (name.toList.filter Char.isAlphanum).map Char.toLower
  secretParts.any fun part => decide (part.toList <:+: name)

/-! ## Records -/

/-- The record of a value of a kind. -/
def redacted (kind : String) (length : Option Nat) : Json :=
  .object [("$reproit", .object [("redacted", .bool true), ("type", .string kind),
    ("length", length.elim .null fun n => .number (.int n))])]

/-- `metadata`. -/
def metadata : Json → Json
  | .null => redacted "null" none
  | .bool _ => redacted "boolean" none
  | .number (.int _) => redacted "integer" none
  | .number (.float _) => redacted "number" none
  | .string s => redacted "string" (some s.toList.length)
  | .array items => redacted "array" (some items.length)
  | .object _ => redacted "object" none

mutual

/-- `redact`. -/
def redact : Json → Json
  | .object members => .object (redactMembers members)
  | .array items => .array (redactItems items)
  | value => value

def redactItems : List Json → List Json
  | [] => []
  | v :: rest => redact v :: redactItems rest

def redactMembers : List (String × Json) → List (String × Json)
  | [] => []
  | (k, v) :: rest => (k, if secretField k then metadata v else redact v) :: redactMembers rest

end

/-! ## Values that differ in their secrets -/

/-- Two values of one kind, and of one length where they are texts or arrays. -/
inductive SameShape : Json → Json → Prop where
  | null : SameShape .null .null
  | bool {a b : Bool} : SameShape (.bool a) (.bool b)
  | int {a b : Int} : SameShape (.number (.int a)) (.number (.int b))
  | float {a b : UInt64} : SameShape (.number (.float a)) (.number (.float b))
  | string {a b : String} : a.toList.length = b.toList.length → SameShape (.string a) (.string b)
  | array {a b : List Json} : a.length = b.length → SameShape (.array a) (.array b)
  | object {a b : List (String × Json)} : SameShape (.object a) (.object b)

/-- The record of a value tells its shape and nothing else. -/
theorem metadata_of_sameShape {a b : Json} (h : SameShape a b) : metadata a = metadata b := by
  cases h with
  | string hlength => rw [metadata, metadata, hlength]
  | array hlength => rw [metadata, metadata, hlength]
  | _ => rfl

section Related

variable {R : Json → Json → Prop}

mutual

/-- The values are equal but for what stands under secret-named keys. -/
inductive Related (R : Json → Json → Prop) : Json → Json → Prop where
  | same (v : Json) : Related R v v
  | array {a b : List Json} : RelatedItems R a b → Related R (.array a) (.array b)
  | object {a b : List (String × Json)} : RelatedMembers R a b → Related R (.object a) (.object b)

inductive RelatedItems (R : Json → Json → Prop) : List Json → List Json → Prop where
  | nil : RelatedItems R [] []
  | cons {a b : Json} {as bs : List Json} : Related R a b → RelatedItems R as bs →
      RelatedItems R (a :: as) (b :: bs)

inductive RelatedMembers (R : Json → Json → Prop) :
    List (String × Json) → List (String × Json) → Prop where
  | nil : RelatedMembers R [] []
  | secret {k : String} {a b : Json} {as bs : List (String × Json)} : secretField k = true →
      R a b → RelatedMembers R as bs → RelatedMembers R ((k, a) :: as) ((k, b) :: bs)
  | plain {k : String} {a b : Json} {as bs : List (String × Json)} : secretField k = false →
      Related R a b → RelatedMembers R as bs → RelatedMembers R ((k, a) :: as) ((k, b) :: bs)

end

mutual

/-- The redaction does not depend on the secrets beyond their shapes. -/
theorem redact_of_related {a b : Json} (h : Related SameShape a b) : redact a = redact b := by
  cases h with
  | same => rfl
  | array hitems => rw [redact, redact, redactItems_of_related hitems]
  | object hmembers => rw [redact, redact, redactMembers_of_related hmembers]

theorem redactItems_of_related {a b : List Json} (h : RelatedItems SameShape a b) :
    redactItems a = redactItems b := by
  cases h with
  | nil => rfl
  | cons hfirst hrest =>
    rw [redactItems, redactItems, redact_of_related hfirst, redactItems_of_related hrest]

theorem redactMembers_of_related {a b : List (String × Json)} (h : RelatedMembers SameShape a b) :
    redactMembers a = redactMembers b := by
  cases h with
  | nil => rfl
  | secret hsecret hshape hrest =>
    rw [redactMembers, redactMembers, if_pos hsecret, if_pos hsecret, metadata_of_sameShape hshape,
      redactMembers_of_related hrest]
  | plain hplain hvalue hrest =>
    rw [redactMembers, redactMembers, if_neg (by simp [hplain]), if_neg (by simp [hplain]),
      redact_of_related hvalue, redactMembers_of_related hrest]

end

end Related

/-! ## Redacting again -/

/-- A record, and the record of an object. -/
def Rerecorded (a b : Json) : Prop :=
  (∃ kind length, a = redacted kind length) ∧ b = redacted "object" none

theorem exists_metadata_eq (v : Json) : ∃ kind length, metadata v = redacted kind length := by
  cases v with
  | number n =>
    cases n with
    | int i => exact ⟨_, _, rfl⟩
    | float bits => exact ⟨_, _, rfl⟩
  | _ => exact ⟨_, _, rfl⟩

/-- A record is an object. -/
theorem metadata_metadata (v : Json) : metadata (metadata v) = redacted "object" none := by
  obtain ⟨kind, length, hv⟩ := exists_metadata_eq v
  rw [hv]
  rfl

mutual

/-- A second redaction leaves everything but the records. -/
theorem related_redact : ∀ v : Json, Related Rerecorded (redact v) (redact (redact v))
  | .null => .same _
  | .bool _ => .same _
  | .number _ => .same _
  | .string _ => .same _
  | .array items => .array (related_redactItems items)
  | .object members => .object (related_redactMembers members)

theorem related_redactItems : ∀ items : List Json,
    RelatedItems Rerecorded (redactItems items) (redactItems (redactItems items))
  | [] => .nil
  | v :: rest => .cons (related_redact v) (related_redactItems rest)

theorem related_redactMembers : ∀ members : List (String × Json),
    RelatedMembers Rerecorded (redactMembers members) (redactMembers (redactMembers members))
  | [] => .nil
  | (k, v) :: rest => by
    have hrest := related_redactMembers rest
    rw [redactMembers, redactMembers]
    cases hsecret : secretField k with
    | true =>
      rw [if_pos rfl, if_pos rfl]
      exact .secret hsecret ⟨exists_metadata_eq v, metadata_metadata v⟩ hrest
    | false =>
      rw [if_neg Bool.false_ne_true, if_neg Bool.false_ne_true]
      exact .plain hsecret (related_redact v) hrest

end

mutual

/-- Two redactions are enough. -/
theorem redact_redact_redact : ∀ v : Json, redact (redact (redact v)) = redact (redact v)
  | .null => rfl
  | .bool _ => rfl
  | .number _ => rfl
  | .string _ => rfl
  | .array items => congrArg Json.array (redactItems_thrice items)
  | .object members => congrArg Json.object (redactMembers_thrice members)

theorem redactItems_thrice : ∀ items : List Json,
    redactItems (redactItems (redactItems items)) = redactItems (redactItems items)
  | [] => rfl
  | v :: rest => by
    simp only [redactItems]
    rw [redact_redact_redact v, redactItems_thrice rest]

theorem redactMembers_thrice : ∀ members : List (String × Json),
    redactMembers (redactMembers (redactMembers members)) = redactMembers (redactMembers members)
  | [] => rfl
  | (k, v) :: rest => by
    simp only [redactMembers]
    rw [redactMembers_thrice rest]
    cases hsecret : secretField k with
    | true =>
      rw [if_pos rfl, if_pos rfl, if_pos rfl, metadata_metadata, metadata_metadata]
    | false =>
      rw [if_neg Bool.false_ne_true, if_neg Bool.false_ne_true, if_neg Bool.false_ne_true,
        redact_redact_redact v]

end

/-- Values that differ in their secrets have one redaction where these agree in kind and size.
A second redaction puts the record of an object in place of every record and changes
nothing else, and a third one changes nothing. -/
theorem redaction_noninterfering (a b : Json) :
    (Related SameShape a b → redact a = redact b) ∧
      Related Rerecorded (redact a) (redact (redact a)) ∧
      redact (redact (redact a)) = redact (redact a) :=
  ⟨redact_of_related, related_redact a, redact_redact_redact a⟩

/-- A password of eight characters. -/
def loginInput : Json := .object [("user", .string "ada"), ("password", .string "abcdefgh")]

/-- The same with another password of this length. -/
def otherLoginInput : Json := .object [("user", .string "ada"), ("password", .string "12345678")]

theorem redaction_noninterfering_login : redact loginInput = redact otherLoginInput :=
  (redaction_noninterfering loginInput otherLoginInput).1 <| .object <|
    .plain (by decide) (.same _) <| .secret (by decide) (.string (by decide)) .nil

/-- The record of a password says what it was, and its own record does not. -/
theorem redaction_is_not_idempotent :
    ¬ ∀ v : Json, redact (redact v) = redact v := by
  intro h
  have hrecord := congrArg (fun v : Json => ((v.get "password").bind (·.get "$reproit")).bind
    fun record => (record.get "type").bind Json.asStr) (h loginInput)
  revert hrecord
  decide

end ReproitCloud
