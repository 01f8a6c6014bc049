import ReproitCloud.Lib.Runs
import ReproitCloud.Control.Store
import ReproitCloud.Http.Request

/-!
# Rotating and deleting the keys of a project

A project lives in the database of its organization and its API keys live in the
control plane.  Three handlers change the keys of a project: the two rotations of its
publishable key, from the dashboard and with a secret key, and the deletion of the
project.  Each looks the project up in the database of the caller's organization and
passes the id it finds there to a statement of the control plane.

The statement selects by that id alone.  The databases hand out their ids on their
own, so the id can also be one of another organization's projects, and then its keys
are selected too.  `KeyWrite.hits` says when, and `foreign_keys_kept_iff` is the
result: over every sequence of operations of one organization, the keys of another
one stay as they are exactly when no operation hits one of them.

A database call can fail, and the resolver can open a database or not.  `KeyChance`
has what happens to the calls of an operation.
-/

namespace ReproitCloud

open Lib ControlStore

/-! ## Projects -/

/-- A row of `projects`. -/
structure ProjectRow where
  createdBy : Option Int64 := none
  name : String
  appId : String
deriving DecidableEq, Repr

/-- The projects of a tenant, with the ledger of the files they own and the files. -/
structure ProjectStore where
  projects : Table Int64 ProjectRow := .empty
  /-- The app id and the storage key of every row of `evidence`. -/
  evidence : List (String × String) := []
  /-- The app id of the capture and the storage key of every row of `capture_files`. -/
  captureFiles : List (String × String) := []
  blobs : List String := []

namespace ProjectStore

variable (t : ProjectStore)

/-- `project_for_app`. -/
def projectForApp (appId : String) : Option (Int64 × String) :=
  (t.projects.rows.find? fun r => r.2.appId = appId).map fun r => (r.1, r.2.name)

/-- `project_id_for_app`. -/
def projectIdForApp (appId : String) : Option Int64 := (t.projectForApp appId).map Prod.fst

/-- `owns_app`. -/
def ownsApp (appId : String) : Bool := (t.projectForApp appId).isSome

/-- `project_evidence_keys`. -/
def projectEvidenceKeys (appId : String) : List String :=
  ((t.evidence ++ t.captureFiles).filter fun r => r.1 = appId).map Prod.snd

/-- `delete_project_by_app`, with whether there was a project. -/
def deleteProjectByApp (appId : String) : Bool × ProjectStore :=
  (t.ownsApp appId,
    { t with
      evidence := t.evidence.filter fun r => r.1 ≠ appId
      projects := t.projects.delete fun _ p => p.appId = appId })

end ProjectStore

/-- The control plane and the databases of the tenants. -/
structure Accounts where
  control : ControlStore
  tenants : Table Int64 ProjectStore

namespace Accounts

/-- A write to the database of a tenant. -/
def setTenant (w : Accounts) (db : Int64) (t : ProjectStore) : Accounts :=
  { w with tenants := w.tenants.update (fun k _ => k = db) fun _ _ => t }

end Accounts

/-! ## Handlers -/

/-- `can_manage`. -/
def canManage (role : String) : Bool := role = "owner" || role = "admin"

/-- Who sends a request of the dashboard: `user_and_org`, or the role read for a key. -/
structure Caller where
  userId : Int64
  orgId : Int64
  role : String
deriving DecidableEq, Repr

/-- `ResolveError`. -/
inductive ResolveError where
  | notProvisioned
  | notActive
  | internal
deriving DecidableEq, Repr

/-- What happens to the calls of an operation. -/
structure KeyChance where
  /-- The database that the resolver opens for an organization. -/
  resolved : Int64 → Except ResolveError Int64
  ownsFails : Bool := false
  readFails : Bool := false
  listFails : Bool := false
  blobFails : List String := []
  keysFail : Bool := false
  createFails : Bool := false
  deleteFails : Bool := false
  auditFails : Bool := false

namespace Accounts

/-- `Tenancy::resolve`, with the name of the database. -/
def resolve (w : Accounts) (chance : KeyChance) (org : Int64) :
    Except ResolveError (Int64 × ProjectStore) :=
  (chance.resolved org).bind fun db =>
    match w.tenants.get? db with
    | none => .error .internal
    | some t => .ok (db, t)

/-- `tenant_of`. -/
def tenantOf (w : Accounts) (auth : AuthCtx) (target : Header) (chance : KeyChance) :
    Except Reply (Int64 × ProjectStore) :=
  match auth, adminTargetResult target with
  | .admin, .error e => .error (err 400 e.message)
  | .admin, .ok org | .org org, _ =>
    match w.resolve chance org with
    | .ok t => .ok t
    | .error .notProvisioned | .error .notActive => .error (err 404 "not found")
    | .error .internal => .error (err 500 "internal error")

/-- `tenant_for`. -/
def tenantFor (w : Accounts) (auth : AuthCtx) (target : Header) (appId : String)
    (chance : KeyChance) : Except Reply (Int64 × ProjectStore) :=
  match w.tenantOf auth target chance with
  | .error reply => .error reply
  | .ok t =>
    if chance.ownsFails || !t.2.ownsApp appId then .error (err 404 "not found") else .ok t

/-- The checks of `rotate_publishable_key` before it writes. -/
def projectToRotate (w : Accounts) (caller : Caller) (appId : String) (chance : KeyChance) :
    Except Reply Int64 :=
  if ¬ canManage caller.role then .error (err 403 "owner or admin required")
  else
    match w.resolve chance caller.orgId with
    | .error _ => .error (err 404 "project not found")
    | .ok (_, t) =>
      if chance.readFails then .error (err 404 "project not found")
      else
        match t.projectIdForApp appId with
        | none => .error (err 404 "project not found")
        | some projectId => .ok projectId

/-- The checks of `post_publishable_key` before it writes: the project, the organization
and the user. -/
def projectToPost (w : Accounts) (auth : AuthCtx) (scope : KeyScope) (target : Header)
    (appId : String) (chance : KeyChance) : Except Reply (Int64 × Int64 × Int64) :=
  if scope.publishable then
    .error (err 403 "a secret key is required to rotate the publishable key")
  else
    match w.tenantFor auth target appId chance with
    | .error reply => .error reply
    | .ok (_, t) =>
      if chance.readFails then .error (err 500 "internal error")
      else
        match t.projectIdForApp appId with
        | none => .error (err 404 "not found")
        | some projectId =>
          if scope.projectId.isSome && scope.projectId ≠ some projectId then
            .error (err 404 "not found")
          else
            match scope.userId, auth with
            | none, _ => .error (err 403 "a project secret key is required")
            | some _, .admin => .error (err 403 "use a project secret key, not the admin key")
            | some userId, .org orgId => .ok (projectId, orgId, userId)

/-- The checks of `delete_project_for` before it writes: the database, its tables, the
project and the keys of its files. -/
def projectToDelete (w : Accounts) (caller : Caller) (appId confirmation : String)
    (chance : KeyChance) : Except Reply (Int64 × ProjectStore × Int64 × List String) :=
  if ¬ canManage caller.role then .error (err 403 "only owners/admins can delete projects")
  else
    match w.resolve chance caller.orgId with
    | .error _ => .error (err 500 "could not open project")
    | .ok (db, t) =>
      if chance.readFails then .error (err 500 "could not open project")
      else
        match t.projectForApp appId with
        | none => .error (err 404 "project not found")
        | some (projectId, name) =>
          if confirmation ≠ name then
            .error (err 400 "type the exact project name to confirm deletion")
          else if chance.listFails then .error (err 500 "could not enumerate project evidence")
          else .ok (db, t, projectId, t.projectEvidenceKeys appId)

/-- The loop over the files of a project: the files left, and whether all went. -/
def deleteBlobs (fails : List String) : List String → List String → Bool × List String
  | [], blobs => (true, blobs)
  | key :: keys, blobs =>
    if key ∈ fails then (false, blobs) else deleteBlobs fails keys (blobs.filter (· ≠ key))

section Handlers

variable (keyHash : String → String)

/-- The part that the two rotations share: revoke the project's publishable keys, then
store a new one. -/
def replacePublishableKey (c : ControlStore) (projectId orgId userId : Int64) (hex : String)
    (chance : KeyChance) : Bool × ControlStore :=
  if chance.keysFail then (false, c)
  else
    let revoked := c.revokePublishableKeysForProject projectId
    let key := newPublishableKey hex
    match if chance.createFails then none
      else revoked.createApiKey (keyHash key) (apiKeyPrefix key) orgId userId (some projectId) with
    | none => (false, revoked)
    | some created => (true, created.audit chance.auditFails
        { actor := "user:" ++ toString userId.toInt
          action := "apikey.publishable.rotate"
          orgId := some orgId
          detail := .object [("project", .number (.int projectId.toInt)),
            ("prefix", .string (apiKeyPrefix key))] })

/-- What a rotation answers with. -/
def rotatedReply (appId hex : String) : Reply :=
  ⟨200, .object [("appId", .string appId), ("publishableKey", .string (newPublishableKey hex)),
    ("publishableKeyPrefix", .string (apiKeyPrefix (newPublishableKey hex)))]⟩

/-- `rotate_publishable_key`, for a signed-in caller. -/
def rotatePublishableKey (w : Accounts) (caller : Caller) (appId hex : String)
    (chance : KeyChance) : Reply × Accounts :=
  match w.projectToRotate caller appId chance with
  | .error reply => (reply, w)
  | .ok projectId =>
    let replaced := replacePublishableKey keyHash w.control projectId caller.orgId caller.userId hex
      chance
    (if replaced.1 then rotatedReply appId hex else err 500 "could not rotate publishable key",
      { w with control := replaced.2 })

/-- `post_publishable_key`. -/
def postPublishableKey (w : Accounts) (auth : AuthCtx) (scope : KeyScope) (target : Header)
    (appId hex : String) (chance : KeyChance) : Reply × Accounts :=
  match w.projectToPost auth scope target appId chance with
  | .error reply => (reply, w)
  | .ok (projectId, orgId, userId) =>
    let replaced := replacePublishableKey keyHash w.control projectId orgId userId hex chance
    (if replaced.1 then rotatedReply appId hex else err 500 "internal error",
      { w with control := replaced.2 })

/-- `delete_project_for`. -/
def deleteProjectFor (w : Accounts) (caller : Caller) (appId confirmation : String)
    (chance : KeyChance) : Reply × Accounts :=
  match w.projectToDelete caller appId confirmation chance with
  | .error reply => (reply, w)
  | .ok (db, t, projectId, keys) =>
    let removed := deleteBlobs chance.blobFails keys t.blobs
    let t := { t with blobs := removed.2 }
    let w := w.setTenant db t
    if ¬ removed.1 then
      (err 500 "could not delete project evidence; nothing else was removed", w)
    else if chance.keysFail then (err 500 "could not revoke project keys", w)
    else
      let w := { w with control := w.control.deleteApiKeysForProject projectId }
      if chance.deleteFails then (err 500 "could not delete project data", w)
      else
        let deleted := t.deleteProjectByApp appId
        let w := w.setTenant db deleted.2
        let row : AuditRow :=
          { actor := "user:" ++ toString caller.userId.toInt
            action := "project.delete"
            orgId := some caller.orgId
            -- the confirmation is the project's name
            detail := .object [("appId", .string appId),
              ("project", .number (.int projectId.toInt)), ("name", .string confirmation),
              ("evidenceObjects", .number (.int keys.length))] }
        if ¬ deleted.1 then (err 404 "project not found", w)
        else
          (⟨200, .object [("ok", .bool true), ("appId", .string appId)]⟩,
            { w with control := w.control.audit chance.auditFails row })

end Handlers

end Accounts

/-! ## Operations -/

/-- A handler that changes project keys, with its request and what happens to its
calls.  `hex` has the random digits of the key it mints. -/
inductive KeyOperation where
  | rotate (caller : Caller) (appId hex : String) (chance : KeyChance)
  | post (orgId : Int64) (scope : KeyScope) (target : Header) (appId hex : String)
      (chance : KeyChance)
  | delete (caller : Caller) (appId confirmation : String) (chance : KeyChance)

/-- The organization an operation is one of. -/
def KeyOperation.org : KeyOperation → Int64
  | .rotate caller .. | .delete caller .. => caller.orgId
  | .post orgId .. => orgId

/-- A statement that changes keys by a project id. -/
inductive KeyWrite where
  | revoke (projectId : Int64)
  | delete (projectId : Int64)
deriving DecidableEq, Repr

/-- The rows of `api_keys` that a statement changes. -/
def KeyWrite.selects : KeyWrite → ApiKeyRow → Bool
  | .revoke projectId, k => k.active && publishableOf projectId k
  | .delete projectId, k => k.projectId = some projectId

/-- The keys of an organization in the control plane. -/
def keysIn (c : ControlStore) (org : Int64) : List (String × ApiKeyRow) :=
  c.apiKeys.rows.filter fun r => r.2.orgId = org

namespace Accounts

variable (keyHash : String → String)

/-- The accounts after an operation. -/
def stepKeys (w : Accounts) : KeyOperation → Accounts
  | .rotate caller appId hex chance => (w.rotatePublishableKey keyHash caller appId hex chance).2
  | .post orgId scope target appId hex chance =>
    (w.postPublishableKey keyHash (.org orgId) scope target appId hex chance).2
  | .delete caller appId confirmation chance =>
    (w.deleteProjectFor caller appId confirmation chance).2

/-- The steps of the accounts. -/
def KeyStep (w : Accounts) (op : KeyOperation) (w' : Accounts) : Prop := w' = w.stepKeys keyHash op

/-- The statement that an operation reaches, with the project id it found. -/
def writeOf (w : Accounts) : KeyOperation → Option KeyWrite
  | .rotate caller appId _ chance =>
    match w.projectToRotate caller appId chance with
    | .ok projectId => if chance.keysFail then none else some (.revoke projectId)
    | .error _ => none
  | .post orgId scope target appId _ chance =>
    match w.projectToPost (.org orgId) scope target appId chance with
    | .ok (projectId, _, _) => if chance.keysFail then none else some (.revoke projectId)
    | .error _ => none
  | .delete caller appId confirmation chance =>
    match w.projectToDelete caller appId confirmation chance with
    | .ok (_, t, projectId, keys) =>
      if ¬ (deleteBlobs chance.blobFails keys t.blobs).1 ∨ chance.keysFail then none
      else some (.delete projectId)
    | .error _ => none

/-- The keys of an organization. -/
def keysOf (w : Accounts) (org : Int64) : List (String × ApiKeyRow) := keysIn w.control org

/-- The operation reaches a statement that selects a key of the organization. -/
def HitsKeyOf (w : Accounts) (op : KeyOperation) (org : Int64) : Prop :=
  ∃ write, w.writeOf op = some write ∧ ∃ r ∈ w.keysOf org, write.selects r.2 = true

end Accounts

/-! ## What a statement does to the keys of an organization -/

/-- The rows of `api_keys` after a statement. -/
def KeyWrite.rows : KeyWrite → List (String × ApiKeyRow) → List (String × ApiKeyRow)
  | .revoke projectId, rows => rows.map fun r =>
      (r.1, if publishableOf projectId r.2 then { r.2 with active := false } else r.2)
  | .delete projectId, rows => rows.filter fun r => !decide (r.2.projectId = some projectId)

/-- The keys, and once more the active ones.  Every change of a key lowers it. -/
def keyWeight (rows : List (String × ApiKeyRow)) : Nat :=
  rows.length + rows.countP fun r => r.2.active

section KeyWrite

variable {rows : List (String × ApiKeyRow)}

theorem KeyWrite.rows_eq_self {write : KeyWrite} (h : ∀ r ∈ rows, write.selects r.2 = false) :
    write.rows rows = rows := by
  cases write with
  | revoke projectId =>
    refine (List.map_congr_left fun r hr => ?_).trans rows.map_id
    have hr' := h r hr
    simp only [selects, Bool.and_eq_false_iff] at hr'
    rcases hr' with hinactive | hother
    · rw [← hinactive, ite_self]
      rfl
    · rw [hother]
      rfl
  | delete projectId =>
    refine List.filter_eq_self.2 fun r hr => ?_
    have hr' : decide (r.2.projectId = some projectId) = false := h r hr
    rw [hr']
    rfl

theorem KeyWrite.rows_append (write : KeyWrite) (xs ys : List (String × ApiKeyRow)) :
    write.rows (xs ++ ys) = write.rows xs ++ write.rows ys := by
  cases write with
  | revoke projectId => exact List.map_append
  | delete projectId => exact List.filter_append xs ys

theorem keyWeight_append (xs ys : List (String × ApiKeyRow)) :
    keyWeight (xs ++ ys) = keyWeight xs + keyWeight ys := by
  unfold keyWeight
  rw [List.length_append, List.countP_append]
  omega

/-- One key gets no heavier, and lighter if it is selected. -/
theorem KeyWrite.keyWeight_single (write : KeyWrite) (r : String × ApiKeyRow) :
    keyWeight (write.rows [r]) + (if write.selects r.2 then 1 else 0) ≤ keyWeight [r] := by
  obtain ⟨key, k⟩ := r
  cases write with
  | revoke projectId =>
    cases hactive : k.active <;> cases hpub : publishableOf projectId k <;>
      simp [KeyWrite.rows, KeyWrite.selects, keyWeight, hactive, hpub]
  | delete projectId =>
    cases hactive : k.active <;> cases hproject : decide (k.projectId = some projectId) <;>
      simp_all [KeyWrite.rows, KeyWrite.selects, keyWeight]

theorem KeyWrite.keyWeight_rows_le (write : KeyWrite) (rows : List (String × ApiKeyRow)) :
    keyWeight (write.rows rows) ≤ keyWeight rows := by
  induction rows with
  | nil => cases write <;> rfl
  | cons r rows ih =>
    have hone := write.keyWeight_single r
    have hrows := write.rows_append [r] rows
    have hweight := keyWeight_append [r] rows
    rw [List.singleton_append] at hrows hweight
    rw [hrows, keyWeight_append, hweight]
    omega

/-- A statement that selects one of the keys makes them lighter. -/
theorem KeyWrite.keyWeight_rows_lt {write : KeyWrite} {r : String × ApiKeyRow} (hr : r ∈ rows)
    (h : write.selects r.2 = true) : keyWeight (write.rows rows) < keyWeight rows := by
  obtain ⟨before, after, rfl⟩ := List.append_of_mem hr
  have hsplit : before ++ r :: after = before ++ ([r] ++ after) := rfl
  have hone := write.keyWeight_single r
  have hbefore := write.keyWeight_rows_le before
  have hafter := write.keyWeight_rows_le after
  rw [if_pos h] at hone
  rw [hsplit, write.rows_append, write.rows_append]
  simp only [keyWeight_append]
  omega

end KeyWrite

/-! ## What an operation does to the keys of another organization -/

section Operations

variable {keyHash : String → String} {w : Accounts} {org : Int64}

theorem keysIn_revoke (c : ControlStore) (projectId org : Int64) :
    keysIn (c.revokePublishableKeysForProject projectId) org =
      (KeyWrite.revoke projectId).rows (keysIn c org) := by
  simp only [keysIn, revokePublishableKeysForProject, Table.update, KeyWrite.rows, List.filter_map]
  congr 1
  refine List.filter_congr fun r _ => ?_
  simp only [Function.comp_apply]
  split <;> rfl

theorem keysIn_delete (c : ControlStore) (projectId org : Int64) :
    keysIn (c.deleteApiKeysForProject projectId) org =
      (KeyWrite.delete projectId).rows (keysIn c org) := by
  simp only [keysIn, deleteApiKeysForProject, Table.delete, KeyWrite.rows, List.filter_filter]
  exact List.filter_congr fun r _ => Bool.and_comm _ _

/-- A new key is none of another organization's. -/
theorem keysIn_createApiKey {c c' : ControlStore} {hash keyPrefix : String}
    {orgId createdBy : Int64} {projectId : Option Int64} (hne : orgId ≠ org)
    (h : c.createApiKey hash keyPrefix orgId createdBy projectId = some c') :
    keysIn c' org = keysIn c org := by
  obtain ⟨k, hk, hrows⟩ := rows_createApiKey h
  have hother : decide (k.orgId = org) = false := by
    rw [hk]
    exact decide_eq_false hne
  rw [keysIn, hrows, List.filter_append, List.filter_singleton, hother]
  exact List.append_nil _

/-- A replacement revokes, and adds a key of its own organization at most. -/
theorem keysIn_replacePublishableKey (c : ControlStore) (projectId : Int64) {orgId : Int64}
    (userId : Int64) (hex : String) (chance : KeyChance) (hne : orgId ≠ org) :
    keysIn (Accounts.replacePublishableKey keyHash c projectId orgId userId hex chance).2 org =
      if chance.keysFail then keysIn c org else (KeyWrite.revoke projectId).rows (keysIn c org) := by
  unfold Accounts.replacePublishableKey
  split
  · rfl
  · rw [← keysIn_revoke]
    dsimp only
    split
    · rfl
    · rename_i created hcreated
      split at hcreated
      · cases hcreated
      · rw [keysIn, apiKeys_audit]
        exact keysIn_createApiKey hne hcreated

namespace Accounts

/-- What the resolver opens is the database it names. -/
theorem resolve_eq_ok {chance : KeyChance} {db : Int64} {t : ProjectStore}
    (h : w.resolve chance org = .ok (db, t)) :
    chance.resolved org = .ok db ∧ w.tenants.get? db = some t := by
  unfold resolve at h
  cases hopen : chance.resolved org with
  | error e =>
    rw [hopen] at h
    cases h
  | ok db' =>
    rw [hopen] at h
    simp only [Except.bind] at h
    split at h
    · cases h
    · rename_i t' htenant
      cases h
      exact ⟨rfl, htenant⟩

/-- A key posts for its own organization. -/
theorem projectToPost_org {orgId : Int64} {scope : KeyScope} {target : Header} {appId : String}
    {chance : KeyChance} {projectId org' userId : Int64}
    (h : w.projectToPost (.org orgId) scope target appId chance = .ok (projectId, org', userId)) :
    org' = orgId := by
  unfold projectToPost at h
  split at h
  · cases h
  split at h
  · cases h
  split at h
  · cases h
  split at h
  · cases h
  split at h
  · cases h
  split at h
  · cases h
  · cases h
  · rename_i hauth
    cases h
    cases hauth
    rfl

/-- What an operation of another organization does to the keys: nothing, or what the
statement it reaches does. -/
theorem keysOf_stepKeys {op : KeyOperation} (hne : op.org ≠ org) :
    (w.stepKeys keyHash op).keysOf org =
      match w.writeOf op with
      | none => w.keysOf org
      | some write => write.rows (w.keysOf org) := by
  cases op with
  | rotate caller appId hex chance =>
    have hcaller : caller.orgId ≠ org := hne
    simp only [stepKeys, rotatePublishableKey, writeOf]
    cases w.projectToRotate caller appId chance with
    | error reply => rfl
    | ok projectId =>
      rw [keysOf, keysIn_replacePublishableKey _ _ _ _ _ hcaller]
      cases chance.keysFail <;> rfl
  | post orgId scope target appId hex chance =>
    have hkey : orgId ≠ org := hne
    simp only [stepKeys, postPublishableKey, writeOf]
    cases hchecks : w.projectToPost (.org orgId) scope target appId chance with
    | error reply => rfl
    | ok checked =>
      obtain ⟨projectId, org', userId⟩ := checked
      obtain rfl := projectToPost_org hchecks
      rw [keysOf, keysIn_replacePublishableKey _ _ _ _ _ hkey]
      cases chance.keysFail <;> rfl
  | delete caller appId confirmation chance =>
    simp only [stepKeys, deleteProjectFor, writeOf]
    cases w.projectToDelete caller appId confirmation chance with
    | error reply => rfl
    | ok checked =>
      obtain ⟨db, t, projectId, keys⟩ := checked
      cases hblobs : (deleteBlobs chance.blobFails keys t.blobs).1 with
      | false => simp [hblobs, keysOf, setTenant]
      | true =>
        cases chance.keysFail with
        | true => simp [hblobs, keysOf, setTenant]
        | false =>
          simp only [hblobs, not_true, false_or, if_false, Bool.false_eq_true]
          rw [keysOf, keysOf, ← keysIn_delete]
          split
          · rfl
          · split
            · rfl
            · rw [keysIn, apiKeys_audit]
              rfl

/-- Another organization's operation leaves the keys exactly when it hits none. -/
theorem keysOf_stepKeys_eq {op : KeyOperation} (hne : op.org ≠ org) (h : ¬ w.HitsKeyOf op org) :
    (w.stepKeys keyHash op).keysOf org = w.keysOf org := by
  rw [keysOf_stepKeys hne]
  split
  · rfl
  · rename_i write hwrite
    apply KeyWrite.rows_eq_self
    intro r hr
    cases hsel : write.selects r.2 with
    | false => rfl
    | true => exact absurd ⟨write, hwrite, r, hr, hsel⟩ h

theorem keyWeight_stepKeys_le {op : KeyOperation} (hne : op.org ≠ org) :
    keyWeight ((w.stepKeys keyHash op).keysOf org) ≤ keyWeight (w.keysOf org) := by
  rw [keysOf_stepKeys hne]
  split
  · exact le_rfl
  · exact KeyWrite.keyWeight_rows_le _ _

theorem keyWeight_stepKeys_lt {op : KeyOperation} (hne : op.org ≠ org) (h : w.HitsKeyOf op org) :
    keyWeight ((w.stepKeys keyHash op).keysOf org) < keyWeight (w.keysOf org) := by
  obtain ⟨write, hwrite, r, hr, hsel⟩ := h
  rw [keysOf_stepKeys hne, hwrite]
  exact KeyWrite.keyWeight_rows_lt hr hsel

end Accounts

end Operations

/-! ## Sequences of operations -/

section Sequences

variable {keyHash : String → String} {w w' : Accounts} {ops : List KeyOperation} {a b : Int64}

theorem keyWeight_run_le (hne : a ≠ b) (hops : ∀ op ∈ ops, op.org = a)
    (hrun : Run (Accounts.KeyStep keyHash) w ops w') :
    keyWeight (w'.keysOf b) ≤ keyWeight (w.keysOf b) := by
  induction hrun with
  | nil _ => exact le_rfl
  | @cons w w1 w' op ops hstep _ ih =>
    obtain ⟨hop, hops⟩ := List.forall_mem_cons.1 hops
    subst hstep
    have hothers : op.org ≠ b := by rwa [hop]
    exact le_trans (ih hops) (Accounts.keyWeight_stepKeys_le hothers)

/-- Over a sequence of operations of one organization, the keys of another one stay as
they are exactly when no operation reaches a statement that selects one of them. -/
theorem foreign_keys_kept_iff (hne : a ≠ b) (hops : ∀ op ∈ ops, op.org = a)
    (hrun : Run (Accounts.KeyStep keyHash) w ops w') :
    w'.keysOf b = w.keysOf b ↔
      Run (Guarded (Accounts.KeyStep keyHash) fun w op _ => ¬ w.HitsKeyOf op b) w ops w' := by
  induction hrun with
  | nil w => exact ⟨fun _ => .nil w, fun _ => rfl⟩
  | @cons w w1 w' op ops hstep hrest ih =>
    obtain ⟨hop, hops⟩ := List.forall_mem_cons.1 hops
    have hothers : op.org ≠ b := by rwa [hop]
    have hlater := keyWeight_run_le hne hops hrest
    constructor
    · intro hsame
      have hmiss : ¬ w.HitsKeyOf op b := by
        intro hhit
        have hlt : keyWeight ((w.stepKeys keyHash op).keysOf b) < keyWeight (w.keysOf b) :=
          Accounts.keyWeight_stepKeys_lt hothers hhit
        rw [← hstep, ← hsame] at hlt
        omega
      have hfirst : (w.stepKeys keyHash op).keysOf b = w.keysOf b :=
        Accounts.keysOf_stepKeys_eq hothers hmiss
      rw [← hstep] at hfirst
      exact .cons ⟨hstep, hmiss⟩ ((ih hops).1 (hsame.trans hfirst.symm))
    · intro hguarded
      cases hguarded with
      | cons hstep' hrest' =>
        have hfirst : (w.stepKeys keyHash op).keysOf b = w.keysOf b :=
          Accounts.keysOf_stepKeys_eq hothers hstep'.2
        rw [hstep'.1, ← hstep] at hrest'
        rw [← hstep] at hfirst
        exact ((ih hops).2 hrest').trans hfirst

end Sequences

/-- The browser key of a project of the second organization. -/
def keyOfB (project : Int64) : ApiKeyRow :=
  { orgId := 2, projectId := some project, keyPrefix := "pk_live_b7..." }

/-- One project under an id. -/
def oneProject (id : Int64) (appId : String) : ProjectStore :=
  { projects := ⟨[(id, { name := "Shop", appId := appId })], List.nodup_singleton _⟩ }

/-- Two organizations with a project each, the first one's under the id 1, and a
browser key of the second. -/
def twoShops (idOfB : Int64) : Accounts where
  control :=
    { users := ⟨[(1, ⟨"owner@a.example"⟩)], by decide⟩
      orgs := ⟨[(1, { name := "A" }), (2, { name := "B" })], by decide⟩
      apiKeys := ⟨[("pk_live_b7", keyOfB idOfB)], List.nodup_singleton _⟩ }
  tenants := ⟨[(1, oneProject 1 "shop-a"), (2, oneProject idOfB "shop-b")],
    show [(1 : Int64), 2].Nodup by decide⟩

/-- The owner of the first organization rotates its key. -/
def rotateShop : KeyOperation :=
  .rotate ⟨1, 1, "owner"⟩ "shop-a" "a9" { resolved := .ok }

theorem foreign_keys_kept_iff_rotation :
    Run (Guarded (Accounts.KeyStep id) fun w op _ => ¬ w.HitsKeyOf op 2) (twoShops 5) [rotateShop]
      ((twoShops 5).stepKeys id rotateShop) := by
  have hrun : Run (Accounts.KeyStep id) (twoShops 5) [rotateShop]
      ((twoShops 5).stepKeys id rotateShop) := .cons rfl (.nil _)
  have hops : ∀ op ∈ [rotateShop], op.org = 1 := List.forall_mem_singleton.2 rfl
  have hne : (1 : Int64) ≠ 2 := by decide
  exact (foreign_keys_kept_iff hne hops hrun).1 (by decide)

/-- With one id for both projects, the rotation revokes the key of the second. -/
theorem rotation_revokes_foreign_key :
    ¬ ∀ (keyHash : String → String) (w w' : Accounts) (ops : List KeyOperation) (a b : Int64),
      a ≠ b → (∀ op ∈ ops, op.org = a) → Run (Accounts.KeyStep keyHash) w ops w' →
        w'.keysOf b = w.keysOf b := by
  intro hall
  have hops : ∀ op ∈ [rotateShop], op.org = 1 := List.forall_mem_singleton.2 rfl
  have hsame := hall id (twoShops 1) _ [rotateShop] 1 2 (by decide) hops (.cons rfl (.nil _))
  revert hsame
  decide

end ReproitCloud
