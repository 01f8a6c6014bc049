import ReproitCloud.Lib.Table
import ReproitCloud.Data.Json
import ReproitCloud.Data.Time

/-!
# The control plane

One database is shared by all organizations.  It has the users with their
sessions, the organizations with their members, and the API keys.  `ControlStore`
is the part of it that the gates and the key operations touch, and the operations
here are its statements.

Secrets are stored by their hash.  The statements take the hash, and whoever calls
them has computed it.

An API key belongs to the organization in its `orgId`.  Its `projectId` is the id of
a project in the database of that organization, and those ids are handed out by
each database on its own.  Nothing in the control plane says which organization a
project id belongs to, except the row it stands in.
-/

namespace ReproitCloud

open Lib

/-! ## Rows -/

structure UserRow where
  email : String
deriving DecidableEq, Repr

structure OrgRow where
  name : String
  plan : String := "free"
  personal : Bool := false
deriving DecidableEq, Repr

/-- A row of `org_members`, keyed by organization and user. -/
structure MemberRow where
  role : String := "member"
  seat : Bool := false
deriving DecidableEq, Repr

/-- A row of `sessions`, keyed by the hash of the token. -/
structure SessionRow where
  userId : Int64
  activeOrgId : Option Int64 := none
  expiresAt : Option Micros := none
deriving DecidableEq, Repr

/-- A row of `api_keys`, keyed by the hash of the secret. -/
structure ApiKeyRow where
  orgId : Int64
  createdBy : Option Int64 := none
  projectId : Option Int64 := none
  /-- `prefix`, the part of the secret that may be shown. -/
  keyPrefix : String := ""
  active : Bool := true
  expiresAt : Option Micros := none
deriving DecidableEq, Repr

/-- A row of `audit_log`. -/
structure AuditRow where
  actor : String
  action : String
  orgId : Option Int64
  detail : Json

/-- The tables of the control plane. -/
structure ControlStore where
  users : Table Int64 UserRow := .empty
  orgs : Table Int64 OrgRow := .empty
  members : Table (Int64 × Int64) MemberRow := .empty
  sessions : Table String SessionRow := .empty
  apiKeys : Table String ApiKeyRow := .empty
  auditLog : List AuditRow := []

/-- `expires_at IS NULL OR expires_at > now()`. -/
def live (now : Micros) (expiresAt : Option Micros) : Bool := expiresAt.all fun t => now < t

/-- `text LIKE pattern`, for a pattern without a backslash: `%` stands for any text
and `_` for any character. -/
def like : List Char → List Char → Bool
  | [], text => text.isEmpty
  | c :: pattern, text =>
    if c = '%' then text.tails.any (like pattern)
    else
      match text with
      | [] => false
      | d :: text => (c = '_' || c = d) && like pattern text

/-! ## Secrets -/

/-- `new_api_key`, from the hex digits of its random bytes. -/
def newApiKey (hex : String) : String := "sk_live_" ++ hex

/-- `new_publishable_key`. -/
def newPublishableKey (hex : String) : String := "pk_live_" ++ hex

/-- `is_publishable`. -/
def isPublishable (token : String) : Bool := "pk_".toList.isPrefixOf token.toList

/-- `api_key_prefix`. -/
def apiKeyPrefix (secret : String) : String := String.ofList (secret.toList.take (8 + 2)) ++ "..."

namespace ControlStore

variable (c : ControlStore)

/-! ## API keys -/

/-- `create_api_key`.  The key is new, and its organization and user exist. -/
def createApiKey (hash keyPrefix : String) (orgId createdBy : Int64) (projectId : Option Int64) :
    Option ControlStore :=
  if c.orgs.has orgId && c.users.has createdBy then
    (c.apiKeys.insert? hash
      { orgId := orgId, createdBy := some createdBy, projectId := projectId,
        keyPrefix := keyPrefix }).map fun apiKeys => { c with apiKeys := apiKeys }
  else none

/-- What `org_for_api_key` returns. -/
structure KeyOwner where
  orgId : Int64
  plan : String
  projectId : Option Int64
  createdBy : Option Int64
deriving DecidableEq, Repr

/-- `org_for_api_key`: the owner of an active key that has not expired. -/
def orgForApiKey (now : Micros) (hash : String) : Option KeyOwner :=
  (c.apiKeys.get? hash).bind fun k =>
    if k.active && live now k.expiresAt then
      (c.orgs.get? k.orgId).map fun o => ⟨k.orgId, o.plan, k.projectId, k.createdBy⟩
    else none

/-- `delete_api_key`. -/
def deleteApiKey (hash : String) : ControlStore :=
  { c with apiKeys := c.apiKeys.delete fun k _ => k = hash }

/-- The `WHERE` of a revocation. -/
def publishableOf (projectId : Int64) (k : ApiKeyRow) : Bool :=
  k.projectId = some projectId && like "pk_live_%".toList k.keyPrefix.toList

/-- `revoke_publishable_keys_for_project`. -/
def revokePublishableKeysForProject (projectId : Int64) : ControlStore :=
  { c with
    apiKeys := c.apiKeys.update (fun _ k => publishableOf projectId k) fun _ k =>
      { k with active := false } }

/-- `delete_api_keys_for_project`. -/
def deleteApiKeysForProject (projectId : Int64) : ControlStore :=
  { c with apiKeys := c.apiKeys.delete fun _ k => k.projectId = some projectId }

/-! ## Sessions and members -/

/-- `User`. -/
structure User where
  id : Int64
  email : String
deriving DecidableEq, Repr

/-- `Org`, with the role of the user it was read for. -/
structure Org where
  id : Int64
  name : String
  plan : String
  role : String
deriving DecidableEq, Repr

/-- A session that has not expired. -/
def liveSession (now : Micros) (hash : String) : Option SessionRow :=
  (c.sessions.get? hash).filter fun s => live now s.expiresAt

/-- `user_for_session`. -/
def userForSession (now : Micros) (hash : String) : Option User :=
  (c.liveSession now hash).bind fun s =>
    (c.users.get? s.userId).map fun u => ⟨s.userId, u.email⟩

/-- The organizations of a user, with the rows of both tables. -/
def orgsOfUser (user : Int64) : List (Int64 × OrgRow × MemberRow) :=
  c.members.rows.filterMap fun m =>
    if m.1.2 = user then (c.orgs.get? m.1.1).map fun o => (m.1.1, o, m.2) else none

/-- The order of `user_and_org_for_session`: the selected organization first, then the
personal one, then by id. -/
def orgBefore (selected : Option Int64) (a b : Int64 × OrgRow × MemberRow) : Prop :=
  let rank (o : Int64 × OrgRow × MemberRow) : Nat × Nat × Int :=
    (if selected = some o.1 then 0 else 1, if o.2.1.personal then 0 else 1, o.1.toInt)
  (rank a).1 < (rank b).1 ∨ (rank a).1 = (rank b).1 ∧
    ((rank a).2.1 < (rank b).2.1 ∨ (rank a).2.1 = (rank b).2.1 ∧ (rank a).2.2 ≤ (rank b).2.2)

instance (selected : Option Int64) : DecidableRel (orgBefore selected) := fun _ _ =>
  inferInstanceAs (Decidable (_ ∨ _ ∧ (_ ∨ _ ∧ _)))

/-- `user_and_org_for_session`. -/
def userAndOrgForSession (now : Micros) (hash : String) : Option (User × Org) :=
  (c.liveSession now hash).bind fun s =>
  (c.users.get? s.userId).bind fun u =>
  (((c.orgsOfUser s.userId).insertionSort (orgBefore s.activeOrgId)).head?).map fun o =>
    (⟨s.userId, u.email⟩, ⟨o.1, o.2.1.name, o.2.1.plan, o.2.2.role⟩)

/-- `org_role`. -/
def orgRole (orgId userId : Int64) : Option String :=
  (c.members.get? (orgId, userId)).map MemberRow.role

/-- `has_seat`. -/
def hasSeat (orgId userId : Int64) : Bool :=
  (c.members.get? (orgId, userId)).any fun m => m.seat || m.role = "owner"

/-- `audit`.  A failed write is only logged. -/
def audit (fails : Bool) (row : AuditRow) : ControlStore :=
  if fails then c else { c with auditLog := c.auditLog ++ [row] }

/-! ## What the statements read and write -/

variable {c}

/-- Without a user for a session there is no organization for it either. -/
theorem userAndOrgForSession_eq_none {now : Micros} {hash : String}
    (h : c.userForSession now hash = none) : c.userAndOrgForSession now hash = none := by
  unfold userForSession at h
  unfold userAndOrgForSession
  cases hs : c.liveSession now hash with
  | none => rfl
  | some s =>
    rw [hs, Option.bind_some, Option.map_eq_none_iff] at h
    rw [Option.bind_some, h, Option.bind_none]

/-- A key that was found belongs to the organization it was found for. -/
theorem orgForApiKey_spec {now : Micros} {hash : String} {owner : KeyOwner}
    (h : c.orgForApiKey now hash = some owner) :
    ∃ k, c.apiKeys.get? hash = some k ∧ k.active = true ∧ live now k.expiresAt = true ∧
      owner.orgId = k.orgId ∧ owner.projectId = k.projectId ∧ owner.createdBy = k.createdBy := by
  simp only [orgForApiKey, Option.bind_eq_some_iff] at h
  obtain ⟨k, hk, hread⟩ := h
  split at hread
  · rename_i hlive
    rw [Bool.and_eq_true] at hlive
    obtain ⟨o, -, rfl⟩ := Option.map_eq_some_iff.1 hread
    exact ⟨k, hk, hlive.1, hlive.2, rfl, rfl, rfl⟩
  · cases hread

@[simp] theorem apiKeys_audit (fails : Bool) (row : AuditRow) :
    (c.audit fails row).apiKeys = c.apiKeys := by
  unfold audit
  split <;> rfl

/-- A new key is one more row, of the organization it was created for. -/
theorem rows_createApiKey {c' : ControlStore} {hash keyPrefix : String} {orgId createdBy : Int64}
    {projectId : Option Int64} (h : c.createApiKey hash keyPrefix orgId createdBy projectId = some c') :
    ∃ k, k.orgId = orgId ∧ c'.apiKeys.rows = c.apiKeys.rows ++ [(hash, k)] := by
  unfold createApiKey at h
  split at h
  · obtain ⟨apiKeys, hins, rfl⟩ := Option.map_eq_some_iff.1 h
    exact ⟨_, rfl, Table.rows_insert? hins⟩
  · cases h

end ControlStore

end ReproitCloud
