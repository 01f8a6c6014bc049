import ReproitCloud.Lib.Alone
import ReproitCloud.Control.NewProject

/-!
# The app limit with requests side by side

The policy may limit the projects of an organization.  A creation counts the projects and
inserts its own one later, and a count that fails is taken for zero.  `Control.NewProject` has
a creation as one step, and `Control.ProjectKeys` a deletion.  Here both are processes with a
point before each of their calls, and the requests of an organization run side by side.
`creation_alone` and `removal_alone` say that a request with nobody beside it does what the
handler does.

The limit is exceeded when two creations both count before either inserts, and when a count
fails at the limit.  `CountsHold` excludes the two: at the insertion there are no more projects
than the creation has counted.  `app_limit_kept` is the result.
-/

namespace ReproitCloud

open Lib

/-! ## Requests as processes -/

/-- An organization with its database, and what the policy answers for it. -/
structure AppOrg where
  orgId : Int64
  db : Int64
  appLimit : Option Int64 := none

/-- How far a request is. -/
inductive ProjectRequest where
  | creating (userId : Int64) (role requestedName : String)
  /-- `used` is what the creation has counted.  No code reads it any more. -/
  | inserting (db userId : Int64) (name appId : String) (used : Int)
  | mintingSecret (db userId projectId : Int64) (name appId : String)
  | mintingPublishable (db userId projectId : Int64) (name appId secretHex : String)
  | undoingKey (db projectId : Int64) (secretHex message : String)
  | undoingProject (db projectId : Int64) (message : String)
  | auditingCreation (userId projectId : Int64) (name appId secretHex publishableHex : String)
  | removing (userId : Int64) (role appId confirmation : String)
  /-- The files that are still to go, and how many there were. -/
  | erasing (db userId projectId : Int64) (appId name : String) (count : Nat) (keys : List String)
  | revokingKeys (db userId projectId : Int64) (appId name : String) (count : Nat)
  | removingRows (db userId projectId : Int64) (appId name : String) (count : Nat)
  | auditingRemoval (userId projectId : Int64) (appId name : String) (count : Nat)
  | answered (reply : Reply)

/-- What the environment decides of a step.  `call` is for its write. -/
structure ProjectChance where
  resolveError : Option ResolveError := none
  countFails : Bool := false
  readFails : Bool := false
  listFails : Bool := false
  /-- The next id of the sequence. -/
  projectId : Int64 := 0
  /-- The first digits of the new uuid. -/
  digits : String := ""
  /-- The random digits of a new key. -/
  hex : String := ""
  call : CallResult := .answered
  auditFails : Bool := false

/-- How many projects a database has. -/
def projectCount (w : Accounts) (db : Int64) : Int :=
  ((w.tenants.get? db).map ProjectStore.countProjects).getD 0

namespace AppOrg

variable (a : AppOrg) (chance : ProjectChance)

/-- What a step of a creation leaves to chance. -/
def creation : CreationChance where
  resolved _ := chance.resolveError.elim (.ok a.db) .error
  appLimit := a.appLimit
  countFails := chance.countFails
  projectId := chance.projectId
  digits := chance.digits
  projectFails := chance.call = .failed
  secretHex := chance.hex
  publishableHex := chance.hex
  deleteKeyFails := chance.call = .failed
  deleteProjectFails := chance.call = .failed

/-- What the reads of a deletion leave to chance. -/
def removal : KeyChance where
  resolved _ := chance.resolveError.elim (.ok a.db) .error
  readFails := chance.readFails
  listFails := chance.listFails

/-- The number of projects that a creation goes by. -/
def counted (w : Accounts) : Int := if chance.countFails then 0 else projectCount w a.db

end AppOrg

namespace ProjectRequest

variable (keyHash toLowercase : String → String) (a : AppOrg)

/-- The next step of a request. -/
def next (w : Accounts) (chance : ProjectChance) :
    ProjectRequest → Option (Accounts × ProjectRequest)
  | creating userId role requestedName =>
    match w.projectToCreate toLowercase a.orgId role requestedName (a.creation chance) with
    | .error reply => some (w, answered reply)
    | .ok (db, name, appId) => some (w, inserting db userId name appId (a.counted chance w))
  | inserting db userId name appId _ =>
    match w.createProject db userId name appId (a.creation chance) with
    | none => some (w, answered (err 500 "could not create project"))
    | some w =>
      if chance.call = .unanswered then some (w, answered (err 500 "could not create project"))
      else some (w, mintingSecret db userId chance.projectId name appId)
  | mintingSecret db userId projectId name appId =>
    match w.createKey keyHash (chance.call = .failed) a.orgId userId projectId
        (newApiKey chance.hex) with
    | none => some (w, undoingProject db projectId "could not mint API key")
    | some w =>
      if chance.call = .unanswered then
        some (w, undoingProject db projectId "could not mint API key")
      else some (w, mintingPublishable db userId projectId name appId chance.hex)
  | mintingPublishable db userId projectId name appId secretHex =>
    match w.createKey keyHash (chance.call = .failed) a.orgId userId projectId
        (newPublishableKey chance.hex) with
    | none => some (w, undoingKey db projectId secretHex "could not mint publishable key")
    | some w =>
      if chance.call = .unanswered then
        some (w, undoingKey db projectId secretHex "could not mint publishable key")
      else some (w, auditingCreation userId projectId name appId secretHex chance.hex)
  | undoingKey db projectId secretHex message =>
    some (w.undoKey keyHash (newApiKey secretHex) (a.creation chance),
      undoingProject db projectId message)
  | undoingProject db projectId message =>
    some (w.undoProject db { a.creation chance with projectId := projectId },
      answered (err 500 message))
  | auditingCreation userId projectId name appId secretHex publishableHex =>
    let row : AuditRow :=
      { actor := "user:" ++ toString userId.toInt
        action := "apikey.create"
        orgId := some a.orgId
        detail := .object [("prefix", .string (apiKeyPrefix (newApiKey secretHex))),
          ("publishablePrefix", .string (apiKeyPrefix (newPublishableKey publishableHex))),
          ("project", .number (.int projectId.toInt))] }
    some ({ w with control := w.control.audit chance.auditFails row },
      answered (Accounts.createdReply name appId
        { a.creation chance with
          projectId := projectId, secretHex := secretHex, publishableHex := publishableHex }))
  | removing userId role appId confirmation =>
    match w.projectToDelete ⟨userId, a.orgId, role⟩ appId confirmation (a.removal chance) with
    | .error reply => some (w, answered reply)
    | .ok (db, _, projectId, keys) =>
      some (w, erasing db userId projectId appId confirmation keys.length keys)
  | erasing db userId projectId appId name count [] =>
    some (w, revokingKeys db userId projectId appId name count)
  | erasing db userId projectId appId name count (key :: keys) =>
    let failure := err 500 "could not delete project evidence; nothing else was removed"
    match w.tenants.get? db, chance.call with
    | none, _ | _, .failed => some (w, answered failure)
    | some t, .unanswered =>
      some (w.setTenant db { t with blobs := t.blobs.filter (· ≠ key) }, answered failure)
    | some t, .answered =>
      some (w.setTenant db { t with blobs := t.blobs.filter (· ≠ key) },
        erasing db userId projectId appId name count keys)
  | revokingKeys db userId projectId appId name count =>
    let failure := err 500 "could not revoke project keys"
    let revoked := { w with control := w.control.deleteApiKeysForProject projectId }
    match chance.call with
    | .failed => some (w, answered failure)
    | .unanswered => some (revoked, answered failure)
    | .answered => some (revoked, removingRows db userId projectId appId name count)
  | removingRows db userId projectId appId name count =>
    let failure := err 500 "could not delete project data"
    match w.tenants.get? db, chance.call with
    | none, _ | _, .failed => some (w, answered failure)
    | some t, .unanswered => some (w.setTenant db (t.deleteProjectByApp appId).2, answered failure)
    | some t, .answered =>
      let deleted := t.deleteProjectByApp appId
      if ¬ deleted.1 then some (w.setTenant db deleted.2, answered (err 404 "project not found"))
      else some (w.setTenant db deleted.2, auditingRemoval userId projectId appId name count)
  | auditingRemoval userId projectId appId name count =>
    let row : AuditRow :=
      { actor := "user:" ++ toString userId.toInt
        action := "project.delete"
        orgId := some a.orgId
        detail := .object [("appId", .string appId), ("project", .number (.int projectId.toInt)),
          ("name", .string name), ("evidenceObjects", .number (.int count))] }
    some ({ w with control := w.control.audit chance.auditFails row },
      answered ⟨200, .object [("ok", .bool true), ("appId", .string appId)]⟩)
  | answered _ => none

/-- A request that begins. -/
def begins : ProjectRequest → Bool
  | creating .. | removing .. => true
  | _ => false

end ProjectRequest

/-- The creations and deletions of the projects of an organization. -/
def projectRequests (keyHash toLowercase : String → String) (a : AppOrg) :
    Program Accounts ProjectRequest ProjectChance Empty where
  starts _ op := op.begins
  next w _ chance op := (op.next keyHash toLowercase a w chance).map fun r => (r.1, some r.2)
  write _ _ e := nomatch e

/-! ## A request alone is the handler -/

/-- The chance of a step, from that of a whole creation. -/
def AppOrg.stepChance (a : AppOrg) (c : CreationChance) (fails : Bool) (hex : String) :
    ProjectChance where
  resolveError := match c.resolved a.orgId with
    | .ok _ => none
    | .error e => some e
  countFails := c.countFails
  projectId := c.projectId
  digits := c.digits
  hex := hex
  call := if fails then .failed else .answered
  auditFails := c.auditFails

section CreatedAlone

variable (keyHash toLowercase : String → String) (a : AppOrg) (w : Accounts) (c : CreationChance)
  (userId : Int64) (role requestedName : String)

variable {a c} in
/-- The organization has one database, and one limit. -/
structure AppOrg.Meets (a : AppOrg) (c : CreationChance) : Prop where
  resolved : ∀ db, c.resolved a.orgId = .ok db → db = a.db
  limit : c.appLimit = a.appLimit

variable {a c} in
theorem projectToCreate_stepChance (hmeets : a.Meets c) (fails : Bool) (hex : String) :
    w.projectToCreate toLowercase a.orgId role requestedName
        (a.creation (a.stepChance c fails hex)) =
      w.projectToCreate toLowercase a.orgId role requestedName c := by
  have hopen : (a.creation (a.stepChance c fails hex)).resolved a.orgId = c.resolved a.orgId := by
    simp only [AppOrg.creation, AppOrg.stepChance]
    cases hresolved : c.resolved a.orgId with
    | ok db =>
      rw [hmeets.resolved db hresolved]
      rfl
    | error e => rfl
  have hresolve :
      w.resolve { resolved := (a.creation (a.stepChance c fails hex)).resolved } a.orgId =
      w.resolve { resolved := c.resolved } a.orgId := by
    simp only [Accounts.resolve, hopen]
  unfold Accounts.projectToCreate
  rw [hresolve, hmeets.limit]
  rfl

variable {keyHash toLowercase a w} in
/-- A step of a request alone. -/
theorem ProjectRequest.solo_step {w' t : Accounts} (chance : ProjectChance)
    {op op' o : ProjectRequest} (h : op.next keyHash toLowercase a w chance = some (w', op'))
    (hrest : Solo (projectRequests keyHash toLowercase a) (fun _ _ _ => True) w' op' t o) :
    Solo (projectRequests keyHash toLowercase a) (fun _ _ _ => True) w op t o := by
  have hnext :
      (projectRequests keyHash toLowercase a).next w [] chance op = some (w', some op') := by
    simp only [projectRequests, h, Option.map_some]
  exact .step trivial hnext hrest

/-- The line in the log of a creation. -/
def creationRow (a : AppOrg) (userId : Int64) (c : CreationChance) : AuditRow where
  actor := "user:" ++ toString userId.toInt
  action := "apikey.create"
  orgId := some a.orgId
  detail := .object [("prefix", .string (apiKeyPrefix (newApiKey c.secretHex))),
    ("publishablePrefix", .string (apiKeyPrefix (newPublishableKey c.publishableHex))),
    ("project", .number (.int c.projectId.toInt))]

/-- The insertions of a creation alone are those of the handler, with what it answers. -/
theorem minting_alone (db : Int64) (name appId : String) (used : Int) :
    let minted := w.mintProject keyHash db a.orgId userId name appId c
    match minted.1 with
    | some message => Solo (projectRequests keyHash toLowercase a) (fun _ _ _ => True) w
        (.inserting db userId name appId used) minted.2 (.answered (err 500 message))
    | none => Solo (projectRequests keyHash toLowercase a) (fun _ _ _ => True) w
        (.inserting db userId name appId used)
        { minted.2 with control := minted.2.control.audit c.auditFails (creationRow a userId c) }
        (.answered (Accounts.createdReply name appId c)) := by
  intro minted
  have hproject : w.createProject db userId name appId
      (a.creation (a.stepChance c c.projectFails "")) = w.createProject db userId name appId c := by
    cases hfails : c.projectFails <;> simp [Accounts.createProject, AppOrg.creation,
      AppOrg.stepChance, hfails]
  have hundo (v : Accounts) : v.undoProject db
      { a.creation (a.stepChance c c.deleteProjectFails "") with projectId := c.projectId } =
        v.undoProject db c := by
    cases hfails : c.deleteProjectFails <;> simp [Accounts.undoProject, AppOrg.creation,
      AppOrg.stepChance, hfails]
  have hundoKey (v : Accounts) (key : String) : v.undoKey keyHash key
      (a.creation (a.stepChance c c.deleteKeyFails "")) = v.undoKey keyHash key c := by
    cases hfails : c.deleteKeyFails <;> simp [Accounts.undoKey, AppOrg.creation,
      AppOrg.stepChance, hfails]
  have hcall (fails : Bool) (hex : String) : (a.stepChance c fails hex).call ≠ .unanswered := by
    cases fails <;> simp [AppOrg.stepChance]
  have hfailed (fails : Bool) (hex : String) :
      decide ((a.stepChance c fails hex).call = .failed) = fails := by
    cases fails <;> simp [AppOrg.stepChance]
  have hhex (fails : Bool) (hex : String) : (a.stepChance c fails hex).hex = hex := rfl
  have hminted : minted = w.mintProject keyHash db a.orgId userId name appId c := rfl
  rw [Accounts.mintProject] at hminted
  cases hcreate : w.createProject db userId name appId c with
  | none =>
    rw [hcreate] at hminted
    rw [hminted]
    refine ProjectRequest.solo_step (a.stepChance c c.projectFails "") ?_ (.refl _ _)
    simp only [ProjectRequest.next, hproject, hcreate]
  | some w1 =>
    have hinserted : ProjectRequest.next keyHash toLowercase a w (a.stepChance c c.projectFails "")
        (.inserting db userId name appId used) =
          some (w1, .mintingSecret db userId c.projectId name appId) := by
      simp only [ProjectRequest.next, hproject, hcreate, if_neg (hcall _ _)]
      rfl
    have hundone (v : Accounts) (message : String) :
        Solo (projectRequests keyHash toLowercase a) (fun _ _ _ => True) v
          (.undoingProject db c.projectId message) (v.undoProject db c)
          (.answered (err 500 message)) := by
      refine ProjectRequest.solo_step (a.stepChance c c.deleteProjectFails "") ?_ (.refl _ _)
      simp only [ProjectRequest.next, hundo]
    cases hsecret : w1.createKey keyHash c.secretFails a.orgId userId c.projectId
        (newApiKey c.secretHex) with
    | none =>
      rw [hcreate] at hminted
      simp only [hsecret] at hminted
      rw [hminted]
      refine ProjectRequest.solo_step _ hinserted
        (ProjectRequest.solo_step (a.stepChance c c.secretFails c.secretHex) ?_ (hundone _ _))
      simp only [ProjectRequest.next, hfailed, hhex, hsecret]
    | some w2 =>
      have hstored : ProjectRequest.next keyHash toLowercase a w1
          (a.stepChance c c.secretFails c.secretHex)
          (.mintingSecret db userId c.projectId name appId) =
            some (w2, .mintingPublishable db userId c.projectId name appId c.secretHex) := by
        simp only [ProjectRequest.next, hfailed, hhex, hsecret, if_neg (hcall _ _)]
      cases hpublishable : w2.createKey keyHash c.publishableFails a.orgId userId c.projectId
          (newPublishableKey c.publishableHex) with
      | none =>
        rw [hcreate] at hminted
        simp only [hsecret, hpublishable] at hminted
        rw [hminted]
        have hrefused : ProjectRequest.next keyHash toLowercase a w2
            (a.stepChance c c.publishableFails c.publishableHex)
            (.mintingPublishable db userId c.projectId name appId c.secretHex) =
              some (w2, .undoingKey db c.projectId c.secretHex
                "could not mint publishable key") := by
          simp only [ProjectRequest.next, hfailed, hhex, hpublishable]
        have hkeyGone : ProjectRequest.next keyHash toLowercase a w2
            (a.stepChance c c.deleteKeyFails "")
            (.undoingKey db c.projectId c.secretHex "could not mint publishable key") =
              some (w2.undoKey keyHash (newApiKey c.secretHex) c,
                .undoingProject db c.projectId "could not mint publishable key") := by
          simp only [ProjectRequest.next, hundoKey]
        exact ProjectRequest.solo_step _ hinserted (ProjectRequest.solo_step _ hstored
          (ProjectRequest.solo_step _ hrefused (ProjectRequest.solo_step _ hkeyGone (hundone _ _))))
      | some w3 =>
        rw [hcreate] at hminted
        simp only [hsecret, hpublishable] at hminted
        rw [hminted]
        have hboth : ProjectRequest.next keyHash toLowercase a w2
            (a.stepChance c c.publishableFails c.publishableHex)
            (.mintingPublishable db userId c.projectId name appId c.secretHex) =
              some (w3, .auditingCreation userId c.projectId name appId c.secretHex
                c.publishableHex) := by
          simp only [ProjectRequest.next, hfailed, hhex, hpublishable, if_neg (hcall _ _)]
        have haudited : ProjectRequest.next keyHash toLowercase a w3 (a.stepChance c false "")
            (.auditingCreation userId c.projectId name appId c.secretHex c.publishableHex) =
              some ({ w3 with control := w3.control.audit c.auditFails (creationRow a userId c) },
                .answered (Accounts.createdReply name appId c)) := rfl
        exact ProjectRequest.solo_step _ hinserted (ProjectRequest.solo_step _ hstored
          (ProjectRequest.solo_step _ hboth (ProjectRequest.solo_step _ haudited (.refl _ _))))

/-- A creation with nobody beside it answers and leaves what the handler does. -/
theorem creation_alone (hmeets : a.Meets c) :
    let created := w.createProjectFor keyHash toLowercase a.orgId userId role requestedName c
    Solo (projectRequests keyHash toLowercase a) (fun _ _ _ => True) w
      (.creating userId role requestedName) created.2 (.answered created.1) := by
  intro created
  have hchecked := projectToCreate_stepChance toLowercase w role requestedName hmeets false ""
  have hcreated : created =
      w.createProjectFor keyHash toLowercase a.orgId userId role requestedName c := rfl
  rw [Accounts.createProjectFor] at hcreated
  cases hchecks : w.projectToCreate toLowercase a.orgId role requestedName c with
  | error reply =>
    rw [hchecks] at hcreated
    rw [hcreated]
    refine ProjectRequest.solo_step (a.stepChance c false "") ?_ (.refl _ _)
    simp only [ProjectRequest.next, hchecked, hchecks]
  | ok r =>
    obtain ⟨db, name, appId⟩ := r
    have hread : ProjectRequest.next keyHash toLowercase a w (a.stepChance c false "")
        (.creating userId role requestedName) =
          some (w, .inserting db userId name appId (a.counted (a.stepChance c false "") w)) := by
      simp only [ProjectRequest.next, hchecked, hchecks]
    have hminted := minting_alone keyHash toLowercase a w c userId db name appId
      (a.counted (a.stepChance c false "") w)
    cases hmint : w.mintProject keyHash db a.orgId userId name appId c with
    | mk failure w' =>
      rw [hmint] at hminted
      simp only [hchecks, hmint] at hcreated
      cases failure with
      | some message =>
        rw [hcreated]
        exact ProjectRequest.solo_step _ hread hminted
      | none =>
        rw [hcreated]
        exact ProjectRequest.solo_step _ hread hminted

end CreatedAlone
/-- The chance of a step, from that of a whole deletion. -/
def AppOrg.removalStep (a : AppOrg) (c : KeyChance) (fails : Bool) : ProjectChance where
  resolveError := match c.resolved a.orgId with
    | .ok _ => none
    | .error e => some e
  readFails := c.readFails
  listFails := c.listFails
  call := if fails then .failed else .answered
  auditFails := c.auditFails

section RemovedAlone

variable (keyHash toLowercase : String → String) (a : AppOrg) (w : Accounts) (c : KeyChance)
  (userId : Int64)

/-- The last write to a database stays. -/
theorem Accounts.setTenant_setTenant (db : Int64) (t t' : ProjectStore) :
    (w.setTenant db t).setTenant db t' = w.setTenant db t' := by
  have htenants : (w.setTenant db t).tenants.update (fun k _ => k = db) (fun _ _ => t') =
      w.tenants.update (fun k _ => k = db) fun _ _ => t' := by
    refine Table.ext_rows ?_
    simp only [Accounts.setTenant, Table.update, List.map_map]
    refine List.map_congr_left fun r _ => ?_
    by_cases hr : r.1 = db <;> simp [hr]
  rw [Accounts.setTenant, htenants]
  rfl

/-- Writing what is there changes nothing. -/
theorem Accounts.setTenant_self {db : Int64} {t : ProjectStore} (ht : w.tenants.get? db = some t) :
    w.setTenant db t = w := by
  have htenants : w.tenants.update (fun k _ => k = db) (fun _ _ => t) = w.tenants := by
    refine Table.ext_rows ?_
    rw [Table.update]
    refine (List.map_congr_left fun r hr => ?_).trans (List.map_id _)
    by_cases hdb : r.1 = db
    · have hrow : w.tenants.get? r.1 = some r.2 := Table.get?_eq_some_iff.2 hr
      rw [hdb, ht, Option.some.injEq] at hrow
      rw [if_pos (decide_eq_true hdb), hrow]
      rfl
    · simp [hdb]
  rw [Accounts.setTenant, htenants]

variable {w} in
/-- The loop over the files alone erases what the handler does. -/
theorem erasing_alone {db : Int64} (projectId : Int64) (appId name : String) (count : Nat)
    (keys : List String) {t : ProjectStore} (ht : w.tenants.get? db = some t) :
    Solo (projectRequests keyHash toLowercase a) (fun _ _ _ => True) w
      (.erasing db userId projectId appId name count keys)
      (w.setTenant db { t with blobs := (Accounts.deleteBlobs c.blobFails keys t.blobs).2 })
      (if (Accounts.deleteBlobs c.blobFails keys t.blobs).1 then
        .revokingKeys db userId projectId appId name count
      else
        .answered (err 500 "could not delete project evidence; nothing else was removed")) := by
  induction keys generalizing w t with
  | nil =>
    rw [Accounts.deleteBlobs, w.setTenant_self ht]
    exact ProjectRequest.solo_step (a.removalStep c false) rfl (.refl _ _)
  | cons key keys ih =>
    rw [Accounts.deleteBlobs]
    by_cases hkey : key ∈ c.blobFails
    · rw [if_pos hkey, w.setTenant_self ht]
      refine ProjectRequest.solo_step (a.removalStep c true) ?_ (.refl _ _)
      simp only [ProjectRequest.next, ht]
      rfl
    · rw [if_neg hkey]
      have herased : (w.setTenant db { t with blobs := t.blobs.filter (· ≠ key) }).tenants.get? db =
          some { t with blobs := t.blobs.filter (· ≠ key) } := by
        rw [Accounts.get?_setTenant, ht]
        simp
      have hrest := ih herased
      rw [Accounts.setTenant_setTenant] at hrest
      refine ProjectRequest.solo_step (a.removalStep c false) ?_ hrest
      simp only [ProjectRequest.next, ht]
      rfl

variable {a c} in
theorem projectToDelete_removalStep (role appId confirmation : String)
    (hmeets : ∀ db, c.resolved a.orgId = .ok db → db = a.db) (fails : Bool) :
    w.projectToDelete ⟨userId, a.orgId, role⟩ appId confirmation
        (a.removal (a.removalStep c fails)) =
      w.projectToDelete ⟨userId, a.orgId, role⟩ appId confirmation c := by
  have hopen : (a.removal (a.removalStep c fails)).resolved a.orgId = c.resolved a.orgId := by
    simp only [AppOrg.removal, AppOrg.removalStep]
    cases hresolved : c.resolved a.orgId with
    | ok db =>
      rw [hmeets db hresolved]
      rfl
    | error e => rfl
  have hresolve : w.resolve (a.removal (a.removalStep c fails)) a.orgId = w.resolve c a.orgId := by
    simp only [Accounts.resolve, hopen]
  unfold Accounts.projectToDelete
  rw [hresolve]
  rfl

variable {w c userId} in
/-- The checks of a deletion find the database that is there. -/
theorem store_of_projectToDelete {caller : Caller} {appId confirmation : String}
    {db projectId : Int64} {t : ProjectStore} {keys : List String}
    (h : w.projectToDelete caller appId confirmation c = .ok (db, t, projectId, keys)) :
    w.tenants.get? db = some t := by
  unfold Accounts.projectToDelete at h
  split at h
  · cases h
  split at h
  · cases h
  rename_i db' t' hresolve
  split at h
  · cases h
  split at h
  · cases h
  split at h
  · cases h
  split at h
  · cases h
  · cases h
    exact (Accounts.resolve_eq_ok hresolve).2

/-- A deletion with nobody beside it answers and leaves what the handler does. -/
theorem removal_alone (role appId confirmation : String)
    (hmeets : ∀ db, c.resolved a.orgId = .ok db → db = a.db) :
    let deleted := w.deleteProjectFor ⟨userId, a.orgId, role⟩ appId confirmation c
    Solo (projectRequests keyHash toLowercase a) (fun _ _ _ => True) w
      (.removing userId role appId confirmation) deleted.2 (.answered deleted.1) := by
  intro deleted
  have hchecked := projectToDelete_removalStep w userId role appId confirmation hmeets false
  have hdeleted : deleted = w.deleteProjectFor ⟨userId, a.orgId, role⟩ appId confirmation c := rfl
  rw [Accounts.deleteProjectFor] at hdeleted
  cases hchecks : w.projectToDelete ⟨userId, a.orgId, role⟩ appId confirmation c with
  | error reply =>
    rw [hchecks] at hdeleted
    rw [hdeleted]
    refine ProjectRequest.solo_step (a.removalStep c false) ?_ (.refl _ _)
    simp only [ProjectRequest.next, hchecked, hchecks]
  | ok r =>
    obtain ⟨db, t, projectId, keys⟩ := r
    have ht := store_of_projectToDelete hchecks
    have hread : ProjectRequest.next keyHash toLowercase a w (a.removalStep c false)
        (.removing userId role appId confirmation) =
          some (w, .erasing db userId projectId appId confirmation keys.length keys) := by
      simp only [ProjectRequest.next, hchecked, hchecks]
    have herasing := erasing_alone keyHash toLowercase a c userId projectId appId confirmation
      keys.length keys ht
    have hfailed : (a.removalStep c true).call = .failed := rfl
    have hanswered : (a.removalStep c false).call = .answered := rfl
    cases hremoved : Accounts.deleteBlobs c.blobFails keys t.blobs with
    | mk erased left =>
      rw [hremoved] at herasing
      simp only [hchecks, hremoved] at hdeleted
      cases erased with
      | false =>
        rw [hdeleted]
        exact ProjectRequest.solo_step _ hread herasing
      | true =>
        refine ProjectRequest.solo_step _ hread (herasing.trans ?_)
        rw [hdeleted]
        cases hkeys : c.keysFail with
        | true =>
          refine ProjectRequest.solo_step (a.removalStep c true) ?_ (.refl _ _)
          simp only [ProjectRequest.next, hfailed]
          rfl
        | false =>
          have hrevoked (v : Accounts) : ProjectRequest.next keyHash toLowercase a v
              (a.removalStep c false)
              (.revokingKeys db userId projectId appId confirmation keys.length) =
                some ({ v with control := v.control.deleteApiKeysForProject projectId },
                  .removingRows db userId projectId appId confirmation keys.length) := rfl
          refine ProjectRequest.solo_step _ (hrevoked _) ?_
          cases hrows : c.deleteFails with
          | true =>
            refine ProjectRequest.solo_step (a.removalStep c true) ?_ (.refl _ _)
            simp only [ProjectRequest.next, hfailed, Accounts.get?_setTenant, ht]
            rfl
          | false =>
            have htenant : (w.setTenant db { t with blobs := left }).tenants.get? db =
                some { t with blobs := left } := by
              rw [Accounts.get?_setTenant, ht]
              simp
            cases howned : (ProjectStore.deleteProjectByApp { t with blobs := left } appId).1 with
            | false =>
              refine ProjectRequest.solo_step (a.removalStep c false) ?_ (.refl _ _)
              simp only [ProjectRequest.next, hanswered, htenant, howned]
              rfl
            | true =>
              have hremovedRows : ProjectRequest.next keyHash toLowercase a
                  { w.setTenant db { t with blobs := left } with
                    control := w.control.deleteApiKeysForProject projectId }
                  (a.removalStep c false)
                  (.removingRows db userId projectId appId confirmation keys.length) =
                    some (Accounts.setTenant { w.setTenant db { t with blobs := left } with
                        control := w.control.deleteApiKeysForProject projectId } db
                        (ProjectStore.deleteProjectByApp { t with blobs := left } appId).2,
                      .auditingRemoval userId projectId appId confirmation keys.length) := by
                simp only [ProjectRequest.next, hanswered, htenant, howned]
                rfl
              exact ProjectRequest.solo_step _ hremovedRows
                (ProjectRequest.solo_step (a.removalStep c false) rfl (.refl _ _))

end RemovedAlone
/-! ## The number of projects -/

section Counts

variable {w w' : Accounts} {db db' : Int64}

theorem projectCount_congr (h : w'.tenants = w.tenants) :
    projectCount w' db = projectCount w db := by
  rw [projectCount, projectCount, h]

/-- A write to every row of a database that adds no project. -/
theorem projectCount_update_le {p : Int64 → ProjectStore → Bool}
    {f : Int64 → ProjectStore → ProjectStore} (h : ∀ k t, (f k t).countProjects ≤ t.countProjects) :
    projectCount { w with tenants := w.tenants.update p f } db ≤ projectCount w db := by
  rw [projectCount, projectCount, Table.get?_update]
  cases w.tenants.get? db with
  | none => exact le_refl _
  | some t =>
    simp only [Option.map_some, Option.getD_some]
    split
    · exact h db t
    · exact le_refl _

theorem countProjects_deleteProject_le (t : ProjectStore) (id : Int64) :
    (t.deleteProject id).countProjects ≤ t.countProjects :=
  Int.ofNat_le.2 (List.length_filter_le _ _)

theorem countProjects_deleteProjectByApp_le (t : ProjectStore) (appId : String) :
    (t.deleteProjectByApp appId).2.countProjects ≤ t.countProjects :=
  Int.ofNat_le.2 (List.length_filter_le _ _)

theorem projectCount_undoProject_le (w : Accounts) (db : Int64) (chance : CreationChance) :
    projectCount (w.undoProject db' chance) db ≤ projectCount w db := by
  unfold Accounts.undoProject
  split
  · exact le_refl _
  · exact projectCount_update_le fun _ t => countProjects_deleteProject_le t _

theorem projectCount_setTenant_le {t t' : ProjectStore} (ht : w.tenants.get? db' = some t)
    (h : t'.countProjects ≤ t.countProjects) :
    projectCount (w.setTenant db' t') db ≤ projectCount w db := by
  rw [projectCount, projectCount, Accounts.get?_setTenant]
  by_cases hdb : db = db'
  · subst hdb
    simpa [ht] using h
  · simp [hdb]

/-- A creation adds one project to its database. -/
theorem projectCount_createProject {userId : Int64} {name appId : String} {chance : CreationChance}
    (h : w.createProject db' userId name appId chance = some w') :
    projectCount w' db = projectCount w db + if db = db' then 1 else 0 := by
  obtain ⟨t, projects, ht, hinsert, rfl⟩ := Accounts.createProject_cases h
  have hrows : projects.rows.length = t.projects.rows.length + 1 := by
    rw [Table.rows_insert? hinsert, List.length_append, List.length_singleton]
  rw [projectCount, projectCount, Accounts.get?_setTenant]
  by_cases hdb : db = db'
  · subst hdb
    simp [ht, ProjectStore.countProjects, hrows]
  · simp [hdb]

theorem tenants_createKey {keyHash : String → String} {fails : Bool}
    {orgId userId projectId : Int64} {key : String}
    (h : w.createKey keyHash fails orgId userId projectId key = some w') :
    w'.tenants = w.tenants := by
  obtain ⟨apiKeys, -, rfl⟩ := Accounts.createKey_cases h
  rfl

theorem tenants_undoKey (w : Accounts) (keyHash : String → String) (key : String)
    (chance : CreationChance) : (w.undoKey keyHash key chance).tenants = w.tenants := by
  unfold Accounts.undoKey
  split <;> rfl

end Counts

/-! ## The limit -/

/-- Whenever a project is inserted, there are no more of them than its creation goes by. -/
def CountsHold (s : Pool Accounts ProjectRequest) :
    PoolEvent ProjectRequest ProjectChance Empty → Pool Accounts ProjectRequest → Prop
  | .advance i chance, _ => ∀ db userId name appId used,
      s.inFlight[i]? = some (.inserting db userId name appId used) → chance.call ≠ .failed →
        projectCount s.store db ≤ used
  | .start _, _ | .abandon _, _ | .commit _, _ => True

/-- A creation that is about to insert goes by less than the limit. -/
def ProjectRequest.BelowLimit (limit : Int64) : ProjectRequest → Prop
  | .inserting _ _ _ _ used => used < limit.toInt
  | _ => True

section Limit

variable {keyHash toLowercase : String → String} {a : AppOrg} {limit : Int64} {w w' : Accounts}
  {chance : ProjectChance} {op op' : ProjectRequest}

/-- The checks of a creation find less than the limit. -/
theorem counted_lt_of_projectToCreate {role requestedName : String} {r : Int64 × String × String}
    (hlimit : a.appLimit = some limit)
    (h : w.projectToCreate toLowercase a.orgId role requestedName (a.creation chance) = .ok r) :
    a.counted chance w < limit.toInt := by
  unfold Accounts.projectToCreate at h
  split at h
  · cases h
  dsimp only at h
  split at h
  · cases h
  split at h
  · cases h
  rename_i db t hresolve
  obtain ⟨hopen, ht⟩ := Accounts.resolve_eq_ok hresolve
  obtain rfl : a.db = db := by
    simp only [AppOrg.creation] at hopen
    cases herror : chance.resolveError with
    | none =>
      rw [herror] at hopen
      exact Except.ok.inj hopen
    | some e =>
      rw [herror] at hopen
      cases hopen
  have hcounted : a.counted chance w =
      if (a.creation chance).countFails then 0 else t.countProjects := by
    rw [AppOrg.counted, projectCount, ht]
    rfl
  rw [hcounted]
  generalize (if (a.creation chance).countFails = true then (0 : Int) else t.countProjects) = used
    at h ⊢
  split at h
  · cases h
  · rename_i hroom
    have happ : (a.creation chance).appLimit = some limit := hlimit
    simpa [happ] using hroom

theorem belowLimit_next (hlimit : a.appLimit = some limit)
    (h : op.next keyHash toLowercase a w chance = some (w', op')) : op'.BelowLimit limit := by
  cases op with
  | creating userId role requestedName =>
    simp only [ProjectRequest.next] at h
    split at h
    · cases h
      trivial
    · rename_i hchecks
      cases h
      exact counted_lt_of_projectToCreate hlimit hchecks
  | erasing db userId projectId appId name count keys =>
    cases keys with
    | nil =>
      cases h
      trivial
    | cons key keys =>
      simp only [ProjectRequest.next] at h
      split at h <;> cases h <;> trivial
  | undoingKey | undoingProject | auditingCreation | auditingRemoval =>
    cases h
    trivial
  | answered => cases h
  | revokingKeys =>
    simp only [ProjectRequest.next] at h
    split at h <;> cases h <;> trivial
  | removing =>
    simp only [ProjectRequest.next] at h
    split at h <;> cases h <;> trivial
  | inserting | mintingSecret | mintingPublishable | removingRows =>
    simp only [ProjectRequest.next] at h
    split at h
    all_goals first
      | (cases h; trivial)
      | (split at h <;> cases h <;> trivial)

/-- A step that adds a project is an insertion, and it adds one. -/
theorem projectCount_next (h : op.next keyHash toLowercase a w chance = some (w', op'))
    (db : Int64) :
    projectCount w' db ≤ projectCount w db ∨
      (∃ userId name appId used, op = .inserting db userId name appId used) ∧
        chance.call ≠ .failed ∧ projectCount w' db = projectCount w db + 1 := by
  have hsame {v : Accounts} (hv : v.tenants = w.tenants) : projectCount v db ≤ projectCount w db :=
    (projectCount_congr hv).le
  cases op with
  | creating userId role requestedName =>
    simp only [ProjectRequest.next] at h
    split at h <;> cases h <;> exact .inl (le_refl _)
  | inserting db' userId name appId used =>
    simp only [ProjectRequest.next] at h
    split at h
    · cases h
      exact .inl (le_refl _)
    rename_i w1 hcreated
    have hcount : projectCount w1 db = projectCount w db + if db = db' then 1 else 0 :=
      projectCount_createProject hcreated
    have hcall : chance.call ≠ .failed := by
      intro hfailed
      rw [Accounts.createProject, if_pos (by simp [AppOrg.creation, hfailed])] at hcreated
      cases hcreated
    obtain rfl : w' = w1 := by
      split at h <;> cases h <;> rfl
    by_cases hdb : db = db'
    · subst hdb
      rw [if_pos rfl] at hcount
      exact .inr ⟨⟨userId, name, appId, used, rfl⟩, hcall, hcount⟩
    · rw [if_neg hdb, add_zero] at hcount
      exact .inl hcount.le
  | mintingSecret db' userId projectId name appId =>
    simp only [ProjectRequest.next] at h
    split at h
    · cases h
      exact .inl (le_refl _)
    rename_i w1 hkey
    split at h <;> cases h <;> exact .inl (hsame (tenants_createKey hkey))
  | mintingPublishable db' userId projectId name appId secretHex =>
    simp only [ProjectRequest.next] at h
    split at h
    · cases h
      exact .inl (le_refl _)
    rename_i w1 hkey
    split at h <;> cases h <;> exact .inl (hsame (tenants_createKey hkey))
  | undoingKey db' projectId secretHex message =>
    cases h
    exact .inl (hsame (tenants_undoKey _ _ _ _))
  | undoingProject db' projectId message =>
    cases h
    exact .inl (projectCount_undoProject_le _ _ _)
  | auditingCreation | auditingRemoval =>
    cases h
    exact .inl (hsame rfl)
  | removing userId role appId confirmation =>
    simp only [ProjectRequest.next] at h
    split at h <;> cases h <;> exact .inl (le_refl _)
  | erasing db' userId projectId appId name count keys =>
    cases keys with
    | nil =>
      cases h
      exact .inl (le_refl _)
    | cons key keys =>
      have herased {t : ProjectStore} (ht : w.tenants.get? db' = some t) :
          projectCount (w.setTenant db' { t with blobs := t.blobs.filter (· ≠ key) }) db ≤
            projectCount w db :=
        projectCount_setTenant_le ht (le_refl _)
      simp only [ProjectRequest.next] at h
      split at h
      · cases h
        exact .inl (le_refl _)
      · cases h
        exact .inl (le_refl _)
      · rename_i ht _
        cases h
        exact .inl (herased ht)
      · rename_i ht _
        cases h
        exact .inl (herased ht)
  | revokingKeys db' userId projectId appId name count =>
    simp only [ProjectRequest.next] at h
    split at h <;> cases h <;> exact .inl (hsame rfl)
  | removingRows db' userId projectId appId name count =>
    have hdeleted {t : ProjectStore} (ht : w.tenants.get? db' = some t) :
        projectCount (w.setTenant db' (t.deleteProjectByApp appId).2) db ≤ projectCount w db :=
      projectCount_setTenant_le ht (countProjects_deleteProjectByApp_le t appId)
    simp only [ProjectRequest.next] at h
    split at h
    · cases h
      exact .inl (le_refl _)
    · cases h
      exact .inl (le_refl _)
    · rename_i ht _
      cases h
      exact .inl (hdeleted ht)
    · rename_i ht _
      split at h <;> cases h <;> exact .inl (hdeleted ht)
  | answered reply => cases h

/-- A step whose count holds keeps what an organization needs to stay within its limit. -/
theorem keepsOutline_belowLimit (hlimit : a.appLimit = some limit) :
    KeepsOutline (projectRequests keyHash toLowercase a) CountsHold
      (fun w => projectCount w a.db ≤ limit.toInt) (fun _ op => op.BelowLimit limit)
      fun _ _ => True where
  start s s' op _ _ hstarts := by
    refine ⟨?_, fun _ _ => trivial⟩
    cases op with
    | inserting => cases hstarts
    | _ => trivial
  advance s s' i chance op store next hs hok hop hnext := by
    obtain ⟨⟨w', op'⟩, hthis, heq⟩ := Option.map_eq_some_iff.1 hnext
    cases heq
    refine ⟨?_, fun o ho => hs.each o (List.mem_of_mem_eraseIdx ho), fun op'' hop'' => ?_⟩
    · rcases projectCount_next hthis a.db with hle | ⟨⟨userId, name, appId, used, rfl⟩, hcall, heq⟩
      · exact hle.trans hs.store
      · have hused : used < limit.toInt := hs.each _ (List.mem_of_getElem? hop)
        have hholds := hok _ _ _ _ _ hop hcall
        rw [heq]
        omega
    · cases hop''
      exact ⟨belowLimit_next hlimit hthis, fun _ _ => trivial⟩
  commit s s' e := nomatch e

/-- In a run whose creations go by counts that hold, an organization stays within its limit. -/
theorem app_limit_kept {s s' : Pool Accounts ProjectRequest}
    {es : List (PoolEvent ProjectRequest ProjectChance Empty)} (hlimit : a.appLimit = some limit)
    (hidle : s.inFlight = []) (hwithin : projectCount s.store a.db ≤ limit.toInt)
    (hrun : Run (Guarded (stepOf (projectRequests keyHash toLowercase a).step) CountsHold)
      s es s') :
    projectCount s'.store a.db ≤ limit.toInt :=
  (Outline.run (keepsOutline_belowLimit hlimit) hrun (outline_of_idle hwithin hidle)).store

end Limit

/-- The guard, as it is computed. -/
def countsHold (s : Pool Accounts ProjectRequest) :
    PoolEvent ProjectRequest ProjectChance Empty → Bool
  | .advance i chance => (s.inFlight[i]?).all fun op =>
      match op with
      | .inserting db _ _ _ used => chance.call = .failed || decide (projectCount s.store db ≤ used)
      | _ => true
  | _ => true

theorem countsHold_sound (s : Pool Accounts ProjectRequest)
    (e : PoolEvent ProjectRequest ProjectChance Empty) (s' : Pool Accounts ProjectRequest)
    (h : countsHold s e = true) : CountsHold s e s' := by
  cases e with
  | advance i chance =>
    intro db userId name appId used hop hcall
    simp only [countsHold, hop, Option.all_some, Bool.or_eq_true, decide_eq_true_eq] at h
    exact h.resolve_left hcall
  | start op | abandon i | commit c => trivial

/-- The first of two organizations has one project and may have two. -/
def twoApps : AppOrg := ⟨1, 1, some 2⟩

/-- Someone creates a project. -/
def createsShop : PoolEvent ProjectRequest ProjectChance Empty :=
  .start (.creating 1 "owner" "Shop")

/-- The first request in line takes a step, with these digits for an id. -/
def stepsWith (projectId : Int64) (digits : String) :
    PoolEvent ProjectRequest ProjectChance Empty :=
  .advance 0 { projectId := projectId, digits := digits }

theorem app_limit_kept_shop :
    ∃ s, Run (Guarded (stepOf (projectRequests id id twoApps).step) CountsHold) ⟨twoShops 5, []⟩
        [createsShop, stepsWith 2 "c0ffee", stepsWith 2 "c0ffee"] s ∧
      projectCount s.store 1 = 2 ∧ projectCount s.store 1 ≤ 2 := by
  have hsome : (runOf (checked (projectRequests id id twoApps).step countsHold) ⟨twoShops 5, []⟩
      [createsShop, stepsWith 2 "c0ffee", stepsWith 2 "c0ffee"]).map
        (fun s => projectCount s.store 1) = some 2 := by decide
  obtain ⟨s, hs, hcount⟩ := Option.map_eq_some_iff.1 hsome
  have hrun := Run.of_runOf_checked countsHold_sound hs
  exact ⟨s, hrun, hcount, app_limit_kept (a := twoApps) rfl rfl (by decide) hrun⟩

/-- Two creations that both count before either inserts exceed the limit. -/
theorem counted_creations_exceed_limit :
    ¬ ∀ (keyHash toLowercase : String → String) (a : AppOrg) (limit : Int64)
      (s s' : Pool Accounts ProjectRequest)
      (es : List (PoolEvent ProjectRequest ProjectChance Empty)),
      a.appLimit = some limit → s.inFlight = [] → projectCount s.store a.db ≤ limit.toInt →
      Run (stepOf (projectRequests keyHash toLowercase a).step) s es s' →
      projectCount s'.store a.db ≤ limit.toInt := by
  intro hall
  have hsome : (runOf (projectRequests id id twoApps).step ⟨twoShops 5, []⟩
      [createsShop, createsShop, stepsWith 2 "c0ffee", stepsWith 3 "decade", stepsWith 2 "c0ffee",
        stepsWith 3 "decade"]).map (fun s => projectCount s.store 1) = some 3 := by decide
  obtain ⟨s, hs, hcount⟩ := Option.map_eq_some_iff.1 hsome
  have hle := hall id id twoApps 2 _ s _ rfl rfl (by decide) (Run.of_runOf hs)
  rw [show twoApps.db = 1 from rfl, hcount] at hle
  revert hle
  decide

/-- So does one whose count fails when the organization is at its limit. -/
example : (runOf (projectRequests id id { twoApps with appLimit := some 1 }).step ⟨twoShops 5, []⟩
    [createsShop, .advance 0 { countFails := true, digits := "c0ffee" },
      stepsWith 2 "c0ffee"]).map (fun s => projectCount s.store 1) = some 2 := by
  decide

end ReproitCloud
