import ReproitCloud.Lib.DecimalText
import ReproitCloud.Data.Json

/-!
# Requests and replies

What the gates read of a request are header texts.  A header can be missing, or its
bytes are no text, and the readers here say what each of them makes of that.  The
`Authorization` header has two readers, one in front of the API routes and one inside
the triage handlers, and they are not the same: only the first refuses a blank token.

A text header consists of visible ASCII characters, spaces and tabs, so its bytes are
its characters.
-/

namespace ReproitCloud

open Lib

/-- A header of a request. -/
inductive Header where
  | missing
  /-- The header is there and `to_str` fails. -/
  | unreadable
  | text (value : String)
deriving DecidableEq, Repr

/-- A status code and a JSON body. -/
structure Reply where
  status : Nat
  body : Json

/-- `{ "error": msg }` under a status code. -/
def err (status : Nat) (msg : String) : Reply := ⟨status, .object [("error", .string msg)]⟩

/-- A reply that turns a request down. -/
structure Refusal where
  reply : Reply
  isError : 400 ≤ reply.status

/-- `err` with a status that turns the request down. -/
def refuse (status : Nat) (msg : String) (h : 400 ≤ status) : Refusal := ⟨err status msg, h⟩

theorem isError_400 : 400 ≤ 400 := by decide

theorem isError_401 : 400 ≤ 401 := by decide

/-- `AuthCtx`: who is calling a protected route. -/
inductive AuthCtx where
  | admin
  | org (id : Int64)
deriving DecidableEq, Repr

/-- `KeyScope`: the scope of the key that was presented. -/
structure KeyScope where
  projectId : Option Int64
  userId : Option Int64
  publishable : Bool
deriving DecidableEq, Repr

/-- `KeyScope::OPEN`. -/
def KeyScope.open : KeyScope := ⟨none, none, false⟩

/-- `char::is_whitespace`, the `White_Space` property of Unicode. -/
def isWhitespace (c : Char) : Bool :=
  let n := c.toNat
  (9 ≤ n && n ≤ 13) || n = 0x20 || n = 0x85 || n = 0xa0 || n = 0x1680 ||
    (0x2000 ≤ n && n ≤ 0x200a) || n = 0x2028 || n = 0x2029 || n = 0x202f || n = 0x205f || n = 0x3000

/-- `char::is_ascii_hexdigit`. -/
def isHexDigit (c : Char) : Bool :=
  c.isDigit || ('a' ≤ c && c ≤ 'f') || ('A' ≤ c && c ≤ 'F')

/-- `str::trim`. -/
def trim (cs : List Char) : List Char :=
  ((cs.dropWhile isWhitespace).reverse.dropWhile isWhitespace).reverse

/-- `ct_eq`: every pair of bytes is compared, whatever the ones before gave. -/
def ctEq (a b : List Char) : Bool :=
  if a.length ≠ b.length then false
  else (a.zip b).foldl (fun diff p => diff ||| (p.1.val ^^^ p.2.val)) 0 = 0

theorem foldl_diff_eq_zero_iff {a b : List Char} (h : a.length = b.length) (diff : UInt32) :
    (a.zip b).foldl (fun diff p => diff ||| (p.1.val ^^^ p.2.val)) diff = 0 ↔ diff = 0 ∧ a = b := by
  induction a generalizing b diff with
  | nil =>
    cases b with
    | nil => simp
    | cons y b => cases h
  | cons x a ih =>
    cases b with
    | nil => cases h
    | cons y b =>
      rw [List.zip_cons_cons, List.foldl_cons, ih (Nat.succ.inj h), UInt32.or_eq_zero_iff,
        UInt32.xor_eq_zero_iff, List.cons.injEq, Char.ext_iff, and_assoc]

/-- The comparison accepts a text exactly when it is the other one. -/
theorem ctEq_iff {a b : List Char} : ctEq a b = true ↔ a = b := by
  unfold ctEq
  split
  · rename_i hlen
    have hne : a ≠ b := fun he => hlen (congrArg List.length he)
    simp [hne]
  · rename_i hlen
    rw [decide_eq_true_iff, foldl_diff_eq_zero_iff (not_ne_iff.1 hlen)]
    simp

/-! ## The bearer token -/

/-- `BearerError`. -/
inductive BearerError where
  | missing
  | malformed
deriving DecidableEq, Repr

/-- `http_security::bearer`. -/
def bearer : Header → Except BearerError String
  | .missing => .error .missing
  | .unreadable => .error .malformed
  | .text value =>
    match "Bearer ".toList.isPrefixOf? value.toList with
    | none => .error .malformed
    | some token => if (trim token).isEmpty then .error .malformed else .ok (String.ofList token)

/-- `triage::bearer`. -/
def triageBearer : Header → Option String
  | .text value => ("Bearer ".toList.isPrefixOf? value.toList).map String.ofList
  | _ => none

/-- What the first reader accepts, the second reads too. -/
theorem triageBearer_of_bearer {h : Header} {token : String} (hb : bearer h = .ok token) :
    triageBearer h = some token := by
  cases h with
  | missing => cases hb
  | unreadable => cases hb
  | text value =>
    simp only [bearer] at hb
    split at hb
    · cases hb
    · rename_i cs hcs
      split at hb
      · cases hb
      · cases hb
        rw [triageBearer, hcs, Option.map_some]

/-! ## The other headers -/

/-- `AdminTargetError`. -/
inductive AdminTargetError where
  | missing
  | invalid
deriving DecidableEq, Repr

/-- `AdminTargetError::message`. -/
def AdminTargetError.message : AdminTargetError → String
  | .missing =>
    "admin API-key requests must include `X-Reproit-Tenant: <org_id>`; use an org-scoped `sk_live_...` key or choose the target tenant org id"
  | .invalid =>
    "invalid `X-Reproit-Tenant` header: send a numeric tenant org id, for example `X-Reproit-Tenant: 123`"

/-- `admin_target_result`. -/
def adminTargetResult : Header → Except AdminTargetError Int64
  | .missing => .error .missing
  | .unreadable => .error .invalid
  | .text value =>
    match parseInt64 (trim value.toList) with
    | none => .error .invalid
    | some org => .ok org

/-- `admin_target`. -/
def adminTarget (h : Header) : Option Int64 := (adminTargetResult h).toOption

/-- `cookie_value`. -/
def cookieValue (name : String) : Header → Option String
  | .text value => (value.toList.splitOn ';').findSome? fun c =>
      (name.toList.isPrefixOf? (trim c)).bind fun rest =>
        (['='].isPrefixOf? rest).map String.ofList
  | _ => none

/-- `COOKIE_NAME`. -/
def sessionCookieName : String := "rid_session"

end ReproitCloud
