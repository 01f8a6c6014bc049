import ReproitCloud.Lib.Outline
import ReproitCloud.Lib.Saga
import ReproitCloud.Control.ProjectKeys

/-!
# Creating a project

A project comes with two keys, a secret one and a publishable one.  Its row goes to the
database of the organization and its keys to the control plane, so the three
insertions share no transaction.  When one of them fails, the ones before it are
deleted by hand.

`mintProject` has the insertions as the handler sends them, and `mintProject_eq_saga`
says that they are a saga.  The deletions select by the id of the project and by the
hash of the secret.  Both were new when they were inserted, so a deletion takes its own
row back and no other.
-/

namespace ReproitCloud

open Lib

/-! ## The rows of a new project -/

/-- `project_name` or `name` as a part of an app id, from the lower-case text. -/
def slugOf (lowercase : String) : String :=
  String.ofList <| strip (· = '-') <| lowercase.toList.map fun ch =>
    if ch.isAlphanum then ch else '-'

/-- The app id of a new project, with the six digits of its random part. -/
def newAppId (toLowercase : String → String) (name digits : String) : String :=
  slugOf (toLowercase name) ++ "-" ++ digits

namespace ProjectStore

variable (t : ProjectStore)

/-- `create_project`, with the id that the sequence gives.  The id and the app id are
unique. -/
def createProject (id createdBy : Int64) (name appId : String) : Option ProjectStore :=
  if t.ownsApp appId then none
  else
    (t.projects.insert? id { createdBy := some createdBy, name := name, appId := appId }).map
      fun projects => { t with projects := projects }

/-- `delete_project`.  The captures of the project go with it. -/
def deleteProject (id : Int64) : ProjectStore :=
  { t with
    projects := t.projects.delete fun k _ => k = id
    captureFiles := t.captureFiles.filter fun r =>
      (t.projects.get? id).all fun p => p.appId ≠ r.1 }

/-- `count_projects`. -/
def countProjects : Int := t.projects.rows.length

end ProjectStore

/-- What happens to the calls of a creation, and what is random in it. -/
structure CreationChance where
  /-- The database that the resolver opens for an organization. -/
  resolved : Int64 → Except ResolveError Int64
  /-- `app_limit` of the policy. -/
  appLimit : Option Int64 := none
  countFails : Bool := false
  /-- The next id of the sequence. -/
  projectId : Int64
  /-- The first digits of the new uuid. -/
  digits : String
  projectFails : Bool := false
  secretHex : String
  secretFails : Bool := false
  publishableHex : String
  publishableFails : Bool := false
  deleteKeyFails : Bool := false
  deleteProjectFails : Bool := false
  auditFails : Bool := false

namespace Accounts

variable (w : Accounts)

/-- `create_project` in a database. -/
def createProject (db createdBy : Int64) (name appId : String) (chance : CreationChance) :
    Option Accounts :=
  if chance.projectFails then none
  else
    (w.tenants.get? db).bind fun t =>
      (t.createProject chance.projectId createdBy name appId).map (w.setTenant db)

/-- `delete_project` in a database, the one that cleans up.  A failure is logged. -/
def undoProject (db : Int64) (chance : CreationChance) : Accounts :=
  if chance.deleteProjectFails then w
  else
    { w with
      tenants := w.tenants.update (fun k _ => k = db) fun _ t => t.deleteProject chance.projectId }

section Handler

variable (keyHash toLowercase : String → String)

/-- `create_api_key`, for a key of the new project. -/
def createKey (fails : Bool) (orgId userId projectId : Int64) (key : String) : Option Accounts :=
  if fails then none
  else
    (w.control.createApiKey (keyHash key) (apiKeyPrefix key) orgId userId (some projectId)).map
      fun control => { w with control := control }

/-- `delete_api_key`, the one that cleans up.  A failure is logged. -/
def undoKey (key : String) (chance : CreationChance) : Accounts :=
  if chance.deleteKeyFails then w
  else { w with control := w.control.deleteApiKey (keyHash key) }

/-- The three insertions of `create_project_for`, with the error of the one that
failed. -/
def mintProject (db orgId userId : Int64) (name appId : String) (chance : CreationChance) :
    Option String × Accounts :=
  match w.createProject db userId name appId chance with
  | none => (some "could not create project", w)
  | some w =>
    let key := newApiKey chance.secretHex
    let pubKey := newPublishableKey chance.publishableHex
    match w.createKey keyHash chance.secretFails orgId userId chance.projectId key with
    | none => (some "could not mint API key", w.undoProject db chance)
    | some w =>
      match w.createKey keyHash chance.publishableFails orgId userId chance.projectId pubKey with
      | none =>
        (some "could not mint publishable key",
          (w.undoKey keyHash key chance).undoProject db chance)
      | some w => (none, w)

/-- The checks of `create_project_for` before it writes: the database, the name and the
app id. -/
def projectToCreate (orgId : Int64) (role requestedName : String) (chance : CreationChance) :
    Except Reply (Int64 × String × String) :=
  if ¬ canManage role then .error (err 403 "only owners/admins can create projects")
  else
    let name := String.ofList (trim requestedName.toList)
    if name.isEmpty ∨ 80 < name.utf8ByteSize then .error (err 400 "project name required")
    else
      match w.resolve { resolved := chance.resolved } orgId with
      | .error _ => .error (err 500 "could not create project")
      | .ok (db, t) =>
        let used := if chance.countFails then 0 else t.countProjects
        if chance.appLimit.any fun limit => limit.toInt ≤ used then
          .error (err 402 "app limit reached for this plan; upgrade to add more apps")
        else .ok (db, name, newAppId toLowercase name chance.digits)

/-- What a creation answers with. -/
def createdReply (name appId : String) (chance : CreationChance) : Reply :=
  let key := newApiKey chance.secretHex
  let pubKey := newPublishableKey chance.publishableHex
  ⟨201, .object [("id", .number (.int chance.projectId.toInt)), ("name", .string name),
    ("appId", .string appId), ("apiKey", .string key), ("apiKeyPrefix", .string (apiKeyPrefix key)),
    ("publishableKey", .string pubKey), ("publishableKeyPrefix", .string (apiKeyPrefix pubKey))]⟩

/-- `create_project_for`. -/
def createProjectFor (orgId userId : Int64) (role requestedName : String)
    (chance : CreationChance) : Reply × Accounts :=
  match w.projectToCreate toLowercase orgId role requestedName chance with
  | .error reply => (reply, w)
  | .ok (db, name, appId) =>
    match w.mintProject keyHash db orgId userId name appId chance with
    | (some message, w) => (err 500 message, w)
    | (none, w) =>
      let row : AuditRow :=
        { actor := "user:" ++ toString userId.toInt
          action := "apikey.create"
          orgId := some orgId
          detail := .object [("prefix", .string (apiKeyPrefix (newApiKey chance.secretHex))),
            ("publishablePrefix",
              .string (apiKeyPrefix (newPublishableKey chance.publishableHex))),
            ("project", .number (.int chance.projectId.toInt))] }
      (createdReply name appId chance,
        { w with control := w.control.audit chance.auditFails row })

end Handler

/-! ## The insertions are a saga -/

/-- The insertions, with the deletions that take them back.  The last one needs none. -/
def newProjectSteps (keyHash : String → String) (db orgId userId : Int64) (name appId : String)
    (chance : CreationChance) : List (Compensated String Accounts) :=
  let key := newApiKey chance.secretHex
  let pubKey := newPublishableKey chance.publishableHex
  [{ error := "could not create project"
     forward := fun w => w.createProject db userId name appId chance
     undo := fun w => w.undoProject db chance },
   { error := "could not mint API key"
     forward := fun w => w.createKey keyHash chance.secretFails orgId userId chance.projectId key
     undo := fun w => w.undoKey keyHash key chance },
   { error := "could not mint publishable key"
     forward := fun w =>
       w.createKey keyHash chance.publishableFails orgId userId chance.projectId pubKey
     undo := fun w => w.undoKey keyHash pubKey chance }]

/-- The projects in a database. -/
def projectsOf (db : Int64) : Option (Table Int64 ProjectRow) :=
  (w.tenants.get? db).map ProjectStore.projects

/-- The same control plane, and the same projects in every database. -/
def SameProjects (w w' : Accounts) : Prop :=
  w.control = w'.control ∧ ∀ db, w.projectsOf db = w'.projectsOf db

section Steps

variable {w} {w' : Accounts} {keyHash : String → String} {db orgId userId : Int64}
  {name appId key : String} {chance : CreationChance}

theorem mintProject_eq_saga :
    w.mintProject keyHash db orgId userId name appId chance =
      saga (newProjectSteps keyHash db orgId userId name appId chance) w := by
  simp only [mintProject, newProjectSteps, saga]
  cases w.createProject db userId name appId chance with
  | none => rfl
  | some w1 =>
    dsimp only
    cases w1.createKey keyHash chance.secretFails orgId userId chance.projectId
        (newApiKey chance.secretHex) with
    | none => rfl
    | some w2 =>
      dsimp only
      cases w2.createKey keyHash chance.publishableFails orgId userId chance.projectId
          (newPublishableKey chance.publishableHex) <;> rfl

/-- A created project is one more row, under a new id. -/
theorem createProject_cases (h : w.createProject db userId name appId chance = some w') :
    ∃ t projects, w.tenants.get? db = some t ∧
      t.projects.insert? chance.projectId
        { createdBy := some userId, name := name, appId := appId } = some projects ∧
      w' = w.setTenant db { t with projects := projects } := by
  unfold createProject at h
  split at h
  · cases h
  obtain ⟨t, ht, hcreated⟩ := Option.bind_eq_some_iff.1 h
  obtain ⟨t', hinsert, rfl⟩ := Option.map_eq_some_iff.1 hcreated
  unfold ProjectStore.createProject at hinsert
  split at hinsert
  · cases hinsert
  obtain ⟨projects, hprojects, rfl⟩ := Option.map_eq_some_iff.1 hinsert
  exact ⟨t, projects, ht, hprojects, rfl⟩

theorem createKey_cases {fails : Bool} {projectId : Int64}
    (h : w.createKey keyHash fails orgId userId projectId key = some w') :
    ∃ apiKeys, w.control.apiKeys.insert? (keyHash key)
        { orgId := orgId, createdBy := some userId, projectId := some projectId,
          keyPrefix := apiKeyPrefix key } = some apiKeys ∧
      w' = { w with control := { w.control with apiKeys := apiKeys } } := by
  unfold createKey at h
  split at h
  · cases h
  obtain ⟨control, hcontrol, rfl⟩ := Option.map_eq_some_iff.1 h
  unfold ControlStore.createApiKey at hcontrol
  split at hcontrol
  · obtain ⟨apiKeys, hinsert, rfl⟩ := Option.map_eq_some_iff.1 hcontrol
    exact ⟨apiKeys, hinsert, rfl⟩
  · cases hcontrol

theorem get?_setTenant (w : Accounts) (db : Int64) (t : ProjectStore) (k : Int64) :
    (w.setTenant db t).tenants.get? k = (w.tenants.get? k).map fun v => if k = db then t else v := by
  simp [setTenant]

theorem control_undoProject (w : Accounts) (db : Int64) (chance : CreationChance) :
    (w.undoProject db chance).control = w.control := by
  unfold undoProject
  split <;> rfl

theorem projectsOf_undoKey (w : Accounts) (keyHash : String → String) (key : String)
    (chance : CreationChance) (k : Int64) :
    (w.undoKey keyHash key chance).projectsOf k = w.projectsOf k := by
  unfold undoKey
  split <;> rfl

/-- The deletion takes the new project back. -/
theorem takenBack_createProject {message : String} (h : chance.deleteProjectFails = false) :
    Compensated.TakenBack SameProjects
      { error := message
        forward := fun w => w.createProject db userId name appId chance
        undo := fun w => w.undoProject db chance } := by
  intro s s' t hcreated hsame
  obtain ⟨store, projects, hstore, hinsert, rfl⟩ := createProject_cases hcreated
  constructor
  · exact (control_undoProject t db chance).trans hsame.1
  · intro k
    have hprojects : t.projectsOf k = ((s.tenants.get? k).map fun v =>
        if k = db then { store with projects := projects } else v).map ProjectStore.projects := by
      rw [hsame.2 k, projectsOf, get?_setTenant]
    have hundo : (t.undoProject db chance).projectsOf k = (t.projectsOf k).map fun rows =>
        if k = db then rows.delete fun k' _ => k' = chance.projectId else rows := by
      rw [undoProject, h, projectsOf, projectsOf]
      simp only [Bool.false_eq_true, if_false, Table.get?_update, Option.map_map]
      congr 1
      funext v
      by_cases hk : k = db <;> simp [hk, ProjectStore.deleteProject]
    rw [hundo, hprojects, projectsOf]
    by_cases hk : k = db
    · rw [hk, hstore]
      simp [Table.delete_insert? hinsert]
    · simp [hk, Function.comp_def]

/-- The deletion takes the new secret key back. -/
theorem takenBack_createKey {message : String} {fails : Bool} {projectId : Int64}
    (h : chance.deleteKeyFails = false) :
    Compensated.TakenBack SameProjects
      { error := message
        forward := fun w => w.createKey keyHash fails orgId userId projectId key
        undo := fun w => w.undoKey keyHash key chance } := by
  intro s s' t hcreated hsame
  obtain ⟨apiKeys, hinsert, rfl⟩ := createKey_cases hcreated
  obtain ⟨hcontrol, hprojects⟩ := hsame
  constructor
  · simp only [undoKey, h, Bool.false_eq_true, if_false, hcontrol, ControlStore.deleteApiKey,
      Table.delete_insert? hinsert]
  · intro k
    exact (projectsOf_undoKey t keyHash key chance k).trans (hprojects k)

end Steps

end Accounts

/-! ## All or nothing -/

/-- A new project with its two keys. -/
structure NewProject where
  /-- The database of its organization, and what is in there. -/
  db : Int64
  store : ProjectStore
  id : Int64
  row : ProjectRow
  key : String
  pubKey : String

/-- The row of a key of a new project. -/
def NewProject.keyRow (p : NewProject) (orgId userId : Int64) (key : String) : ApiKeyRow :=
  { orgId := orgId, createdBy := some userId, projectId := some p.id,
    keyPrefix := apiKeyPrefix key }

/-- The reply has the project and its keys, and they are all that is new but for the
line in the log. -/
structure AddsProject (keyHash : String → String) (w : Accounts) (orgId userId : Int64)
    (p : NewProject) (reply : Reply) (w' : Accounts) : Prop where
  replied : reply.body.get "id" = some (.number (.int p.id.toInt)) ∧
    reply.body.get "appId" = some (.string p.row.appId) ∧
    reply.body.get "apiKey" = some (.string p.key) ∧
    reply.body.get "publishableKey" = some (.string p.pubKey)
  store : w.tenants.get? p.db = some p.store
  project : ∃ projects, projects.rows = p.store.projects.rows ++ [(p.id, p.row)] ∧
    w'.tenants.get? p.db = some { p.store with projects := projects }
  otherStores : ∀ db, db ≠ p.db → w'.tenants.get? db = w.tenants.get? db
  keys : w'.control.apiKeys.rows = w.control.apiKeys.rows ++
    [(keyHash p.key, p.keyRow orgId userId p.key), (keyHash p.pubKey, p.keyRow orgId userId p.pubKey)]
  otherTables : w'.control =
    { w.control with apiKeys := w'.control.apiKeys, auditLog := w'.control.auditLog }

namespace Accounts

section AllOrNothing

variable {keyHash : String → String} {w w' : Accounts} {db orgId userId : Int64}
  {name appId : String} {chance : CreationChance}

/-- Insertions of which one fails leave what they found. -/
theorem mintProject_restores {message : String} (hkey : chance.deleteKeyFails = false)
    (hproject : chance.deleteProjectFails = false)
    (h : w.mintProject keyHash db orgId userId name appId chance = (some message, w')) :
    SameProjects w' w := by
  rw [mintProject_eq_saga] at h
  refine saga_restores (fun w => ⟨rfl, fun _ => rfl⟩) ?_ h
  intro step hstep
  simp only [newProjectSteps, List.mem_cons, List.not_mem_nil, or_false] at hstep
  rcases hstep with rfl | rfl | rfl
  · exact takenBack_createProject hproject
  · exact takenBack_createKey hkey
  · exact takenBack_createKey hkey

/-- Insertions that all succeed add a project with two keys. -/
theorem mintProject_adds
    (h : w.mintProject keyHash db orgId userId name appId chance = (none, w')) (row : AuditRow) :
    ∃ p : NewProject, p.db = db ∧
      AddsProject keyHash w orgId userId p (createdReply name appId chance)
        { w' with control := w'.control.audit chance.auditFails row } := by
  rw [mintProject_eq_saga] at h
  simp only [newProjectSteps, saga_cons_eq_none_iff, saga_nil_eq_none_iff] at h
  obtain ⟨w1, hproject, w2, hkey, w3, hpub, rfl⟩ := h
  obtain ⟨t, projects, ht, hinsert, rfl⟩ := createProject_cases hproject
  obtain ⟨apiKeys, hsecret, rfl⟩ := createKey_cases hkey
  obtain ⟨apiKeys', hpublishable, rfl⟩ := createKey_cases hpub
  refine ⟨{ db := db, store := t, id := chance.projectId,
            row := { createdBy := some userId, name := name, appId := appId }
            key := newApiKey chance.secretHex
            pubKey := newPublishableKey chance.publishableHex }, rfl, ?_⟩
  constructor
  case replied => exact ⟨rfl, rfl, rfl, rfl⟩
  case store => exact ht
  case project =>
    refine ⟨projects, Table.rows_insert? hinsert, ?_⟩
    rw [get?_setTenant, ht]
    simp
  case otherStores =>
    intro k hk
    rw [get?_setTenant]
    simp [hk]
  case keys =>
    rw [ControlStore.apiKeys_audit]
    exact (Table.rows_insert? hpublishable).trans (by
      rw [Table.rows_insert? hsecret, List.append_assoc]
      rfl)
  case otherTables =>
    unfold ControlStore.audit
    split <;> rfl

/-- What the checks end with: another status, or the database that the resolver opened. -/
theorem projectToCreate_cases (w : Accounts) (toLowercase : String → String) (orgId : Int64)
    (role requestedName : String) (chance : CreationChance) :
    (∃ reply, w.projectToCreate toLowercase orgId role requestedName chance = .error reply ∧
      reply.status ≠ 201) ∨
    ∃ db name appId, w.projectToCreate toLowercase orgId role requestedName chance =
      .ok (db, name, appId) ∧ chance.resolved orgId = .ok db := by
  unfold projectToCreate
  split
  · exact .inl ⟨_, rfl, by decide⟩
  dsimp only
  split
  · exact .inl ⟨_, rfl, by decide⟩
  split
  · exact .inl ⟨_, rfl, by decide⟩
  rename_i db t hresolve
  generalize (if chance.countFails = true then (0 : Int) else t.countProjects) = used
  split
  · exact .inl ⟨_, rfl, by decide⟩
  · exact .inr ⟨db, _, _, rfl, (resolve_eq_ok hresolve).1⟩

/-- A creation leaves the keys and the projects as they were, or adds one project and
its two keys. -/
theorem create_project_all_or_nothing (keyHash toLowercase : String → String) (w : Accounts)
    (orgId userId : Int64) (role requestedName : String) (chance : CreationChance)
    (hkey : chance.deleteKeyFails = false) (hproject : chance.deleteProjectFails = false) :
    let created := w.createProjectFor keyHash toLowercase orgId userId role requestedName chance
    (created.1.status ≠ 201 → SameProjects created.2 w) ∧
      (created.1.status = 201 → ∃ p : NewProject, chance.resolved orgId = .ok p.db ∧
        AddsProject keyHash w orgId userId p created.1 created.2) := by
  intro created
  rcases projectToCreate_cases w toLowercase orgId role requestedName chance with
    ⟨reply, hchecks, hstatus⟩ | ⟨db, name, appId, hchecks, hopen⟩
  · have hcreated : created = (reply, w) := by
      simp only [created, createProjectFor, hchecks]
    rw [hcreated]
    exact ⟨fun _ => ⟨rfl, fun _ => rfl⟩, fun h => absurd h hstatus⟩
  · rcases hmint : w.mintProject keyHash db orgId userId name appId chance with
      ⟨_ | message, w1⟩
    · obtain ⟨row, hcreated⟩ : ∃ row, created = (createdReply name appId chance,
          { w1 with control := w1.control.audit chance.auditFails row }) := by
        simp only [created, createProjectFor, hchecks, hmint]
        exact ⟨_, rfl⟩
      obtain ⟨p, hdb, hadds⟩ := mintProject_adds hmint row
      rw [hcreated]
      exact ⟨fun h => absurd rfl h, fun _ => ⟨p, hdb ▸ hopen, hadds⟩⟩
    · have hcreated : created = (err 500 message, w1) := by
        simp only [created, createProjectFor, hchecks, hmint]
      rw [hcreated]
      refine ⟨fun _ => mintProject_restores hkey hproject hmint, fun h => ?_⟩
      exact absurd (show (500 : Nat) = 201 from h) (by decide)

end AllOrNothing

end Accounts

/-- The owner of the first organization creates a second project. -/
def secondShop : CreationChance where
  resolved := .ok
  projectId := 2
  digits := "c0ffee"
  secretHex := "5e"
  publishableHex := "7b"

theorem create_project_all_or_nothing_shop :
    ∃ p : NewProject, AddsProject id (twoShops 5) 1 1 p
      ((twoShops 5).createProjectFor id id 1 1 "owner" " My Shop! " secondShop).1
      ((twoShops 5).createProjectFor id id 1 1 "owner" " My Shop! " secondShop).2 := by
  have hall := Accounts.create_project_all_or_nothing id id (twoShops 5) 1 1 "owner" " My Shop! "
    secondShop rfl rfl
  obtain ⟨p, -, hadds⟩ := hall.2 (by decide)
  exact ⟨p, hadds⟩

end ReproitCloud
