import ReproitCloud.Lib.Processes
import ReproitCloud.Lib.Sole
import ReproitCloud.Control.NewProject
import ReproitCloud.Identity.Flows
import ReproitCloud.Tenancy.Store

/-!
# Bootstrapping a self-hosted installation

`bootstrap` turns an empty database into an installation that can be used: one
organization, its admin, and a project with a first key.  It runs on every start, so
each step first looks whether its work is done.  The organization is looked up by its
id, the admin by the email, and the project and the key by the list of the keys.

Here a run is a process with a point before each of its calls, and any number of runs
are under way side by side.  A call can fail, with or without effect, and a run can
stop for good anywhere.  What a run leaves is there for the next one.

Two of the looks are at something else than what is written after them.  The project
has no look of its own, so that a run which stops between the project and the key
leaves a project, and the next run adds another one.  And two runs that both look
before either writes both write.  `BootPoint.Careful` excludes the two: an organization
is inserted when there is none of the id, and a project when there is none.
`bootstrap_idempotent` says that then a run that answers leaves one of each, and that
nothing changes afterwards.

The invariant is that every table has one row at most, and is right when it has one
(`InstallInv`).  A step fills an empty table or changes nothing (`Install.Grows`), which
keeps what the other runs have seen.
-/

namespace ReproitCloud

open Lib

/-! ## The runs of bootstrap -/

/-- The arguments of `bootstrap`. -/
structure BootArgs where
  email : String
  password : String
  projectName : String

/-- The databases of an installation, with the next id of the sequence of `orgs`. -/
structure Install where
  accounts : Accounts := ⟨{}, .empty⟩
  nextOrg : Nat := 1

/-- How far a run is.  The arguments are what it has read and written. -/
inductive BootPoint where
  | checking
  | creatingOrg
  | findingUser
  | creatingUser
  | addingMember (userId : Int64)
  | provisioning (userId : Int64)
  | listingKeys (userId : Int64)
  | resolving (userId : Int64)
  | creatingProject (userId : Int64)
  | creatingKey (userId projectId : Int64)
  /-- The run has ended with an error. -/
  | failed
  /-- The run has ended without one. -/
  | ready
deriving DecidableEq, Repr

/-- What the environment decides of a step. -/
structure BootChance where
  call : CallResult := .answered
  /-- The sequence of `orgs` skips an id, as it does when an insertion is taken back. -/
  skips : Bool := false
  hashFails : Bool := false
  /-- The next ids of the other sequences. -/
  userId : Int64 := 1
  projectId : Int64 := 1
  digits : String := ""
  hex : String := ""

/-- `create_user`, without the hash of the password. -/
def ControlStore.createUser (c : ControlStore) (id : Int64) (email : String) :
    Option ControlStore :=
  if c.findUserIdByEmail email = none then
    (c.users.insert? id ⟨email⟩).map fun users => { c with users := users }
  else none

namespace Install

variable (s : Install)

/-- A write to the control plane. -/
def setControl (control : ControlStore) : Install :=
  { s with accounts := { s.accounts with control := control } }

/-- `create_org`, with the id of the sequence. -/
def createOrg (name : String) : Option (Install × Int64) :=
  if s.nextOrg < 2 ^ 63 then
    let id := Int64.ofNat s.nextOrg
    (s.accounts.control.createOrg id name false).map fun control =>
      ({ s.setControl control with nextOrg := s.nextOrg + 1 }, id)
  else none

/-- `provision`: the database of the organization is there afterwards. -/
def provision (orgId : Int64) : Option Install :=
  if s.accounts.control.orgs.has orgId then
    some { s with accounts := { s.accounts with tenants := s.accounts.tenants.insertIgnore orgId {} } }
  else none

/-- `create_project` in the database of the organization. -/
def createProject (orgId id createdBy : Int64) (name appId : String) : Option Install :=
  (s.accounts.tenants.get? orgId).bind fun t =>
    (t.createProject id createdBy name appId).map fun t =>
      { s with accounts := s.accounts.setTenant orgId t }

/-- A write that ends as the call does, and leads to a point if it is answered. -/
def write (call : CallResult) : Option (Install × BootPoint) → Install × BootPoint
  | none => (s, .failed)
  | some (after, point) =>
    match call with
    | .answered => (after, point)
    | .failed => (s, .failed)
    | .unanswered => (after, .failed)

/-- A read that leads to a point if it is answered. -/
def read (call : CallResult) (point : BootPoint) : Install × BootPoint :=
  (s, if call = .answered then point else .failed)

end Install

section Runs

variable (keyHash toLowercase : String → String) (args : BootArgs)

/-- The email of the admin. -/
def BootArgs.admin : String := toLowercase (String.ofList (trim args.email.toList))

/-- The next call of a run. -/
def bootNext (s : Install) (chance : BootChance) : BootPoint → Option (Install × BootPoint)
  | .checking =>
    some (if '@' ∉ (args.admin toLowercase).toList then (s, .failed)
      else if args.password.utf8ByteSize < 8 then (s, .failed)
      else s.read chance.call
        (if s.accounts.control.orgs.has selfHostedOrgId then .findingUser else .creatingOrg))
  | .creatingOrg =>
    let s := if chance.skips then { s with nextOrg := s.nextOrg + 1 } else s
    some (s.write chance.call ((s.createOrg args.projectName).map fun r =>
      (r.1, if r.2 = selfHostedOrgId then .findingUser else .failed)))
  | .findingUser =>
    some (s.read chance.call
      (match s.accounts.control.findUserIdByEmail (args.admin toLowercase) with
      | some id => .addingMember id
      | none => .creatingUser))
  | .creatingUser =>
    some (if chance.hashFails then (s, .failed)
      else s.write chance.call
        ((s.accounts.control.createUser chance.userId (args.admin toLowercase)).map fun control =>
          (s.setControl control, .addingMember chance.userId)))
  | .addingMember userId =>
    some (s.write chance.call
      ((s.accounts.control.addMember selfHostedOrgId userId "owner").map fun control =>
        (s.setControl control, .provisioning userId)))
  | .provisioning userId =>
    some (s.write chance.call
      ((s.provision selfHostedOrgId).map fun s => (s, .listingKeys userId)))
  | .listingKeys userId =>
    some (s.read chance.call
      (if s.accounts.control.listApiKeys selfHostedOrgId = [] then .resolving userId else .ready))
  | .resolving userId =>
    some (s.read chance.call
      (if s.accounts.tenants.has selfHostedOrgId then .creatingProject userId else .failed))
  | .creatingProject userId =>
    some (s.write chance.call
      ((s.createProject selfHostedOrgId chance.projectId userId args.projectName
        (newAppId toLowercase args.projectName chance.digits)).map fun s =>
          (s, .creatingKey userId chance.projectId)))
  | .creatingKey userId projectId =>
    some (s.write chance.call
      ((s.accounts.control.createApiKey (keyHash (newApiKey chance.hex))
        (apiKeyPrefix (newApiKey chance.hex)) selfHostedOrgId userId (some projectId)).map
          fun control => (s.setControl control, .ready)))
  | .failed | .ready => none

/-- The runs of `bootstrap` with the same arguments.  One that has ended stays. -/
def bootRuns : Program Install BootPoint BootChance Empty where
  starts _ op := op = .checking
  next s _ chance op := (bootNext keyHash toLowercase args s chance op).map fun r => (r.1, some r.2)
  write _ _ e := nomatch e

/-- An installation that is ready: one organization with the admin as its owner, one
project, and one key of it. -/
structure Installed (w : Accounts) : Prop where
  org : ∃ o, w.control.orgs.Sole selfHostedOrgId o
  owner : ∃ userId m, w.control.findUserIdByEmail (args.admin toLowercase) = some userId ∧
    w.control.members.get? (selfHostedOrgId, userId) = some m ∧ m.role = "owner"
  project : ∃ t projectId row hash key, w.tenants.Sole selfHostedOrgId t ∧
    t.projects.Sole projectId row ∧ row.name = args.projectName ∧
      w.control.apiKeys.Sole hash key ∧ key.orgId = selfHostedOrgId ∧ key.projectId = some projectId

end Runs

/-- The projects of the organization. -/
def Accounts.projectRows (w : Accounts) : List (Int64 × ProjectRow) :=
  (w.tenants.get? selfHostedOrgId).elim [] fun t => t.projects.rows

/-- The next step of a run does not write on top of what another run has left. -/
def BootPoint.Careful (s : Install) (chance : BootChance) : BootPoint → Prop
  | .creatingOrg => chance.call ≠ .failed → s.accounts.control.orgs.has selfHostedOrgId = false
  | .creatingProject _ => chance.call ≠ .failed → s.accounts.projectRows = []
  | _ => True

instance (s : Install) (chance : BootChance) (op : BootPoint) : Decidable (op.Careful s chance) := by
  cases op <;> unfold BootPoint.Careful <;> infer_instance

/-- Every step of a run is careful.  Runs may start and stop at any time. -/
def CarefulRuns (s : Pool Install BootPoint) :
    PoolEvent BootPoint BootChance Empty → Pool Install BootPoint → Prop
  | .advance i chance, _ => ∀ op, s.inFlight[i]? = some op → op.Careful s.store chance
  | .start _, _ | .abandon _, _ | .commit _, _ => True

/-! ## The invariant -/

section Invariant

variable (toLowercase : String → String) (args : BootArgs)

/-- Every table has one row at most, which is the one that a run inserts. -/
structure InstallInv (s : Install) : Prop where
  /-- The sequence gives the id of the organization to the first one only. -/
  sequence : 1 ≤ s.nextOrg ∧ (s.nextOrg = 1 → s.accounts.control.orgs.rows = [])
  org : s.accounts.control.orgs.has selfHostedOrgId = true →
    ∃ o, s.accounts.control.orgs.Sole selfHostedOrgId o
  users : s.accounts.control.users.rows = [] ∨
    ∃ userId, s.accounts.control.users.Sole userId ⟨args.admin toLowercase⟩
  members : s.accounts.control.members.rows = [] ∨
    ∃ userId m, s.accounts.control.users.Sole userId ⟨args.admin toLowercase⟩ ∧
      s.accounts.control.members.Sole (selfHostedOrgId, userId) m ∧ m.role = "owner"
  tenants : s.accounts.tenants.rows = [] ∨ ∃ t, s.accounts.tenants.Sole selfHostedOrgId t ∧
    (t.projects.rows = [] ∨ ∃ projectId row, t.projects.Sole projectId row ∧
      row.name = args.projectName)
  keys : s.accounts.control.apiKeys.rows = [] ∨ ∃ hash key projectId row,
    s.accounts.control.apiKeys.Sole hash key ∧ s.accounts.projectRows = [(projectId, row)] ∧
      key.orgId = selfHostedOrgId ∧ key.projectId = some projectId

/-- What a run has seen or written is there. -/
def BootPoint.At (w : Accounts) : BootPoint → Prop
  | .checking | .creatingOrg | .failed => True
  | .findingUser | .creatingUser => w.control.orgs.has selfHostedOrgId = true
  | .addingMember userId =>
    w.control.orgs.has selfHostedOrgId = true ∧
      w.control.users.Sole userId ⟨args.admin toLowercase⟩
  | .provisioning userId =>
    w.control.orgs.has selfHostedOrgId = true ∧
      w.control.users.Sole userId ⟨args.admin toLowercase⟩ ∧ w.control.members.rows ≠ []
  | .listingKeys userId | .resolving userId | .creatingProject userId =>
    w.control.orgs.has selfHostedOrgId = true ∧
      w.control.users.Sole userId ⟨args.admin toLowercase⟩ ∧ w.control.members.rows ≠ [] ∧
        w.tenants.rows ≠ []
  | .creatingKey userId projectId =>
    w.control.orgs.has selfHostedOrgId = true ∧
      w.control.users.Sole userId ⟨args.admin toLowercase⟩ ∧ w.control.members.rows ≠ [] ∧
        (∃ row, w.projectRows = [(projectId, row)]) ∧ w.control.apiKeys.rows = []
  | .ready =>
    w.control.orgs.has selfHostedOrgId = true ∧ w.control.members.rows ≠ [] ∧
      w.control.apiKeys.rows ≠ []

/-- The run is about to store a key. -/
def BootPoint.Mints : BootPoint → Prop
  | .creatingKey .. => True
  | _ => False

/-- A table that is filled stays as it is. -/
structure Accounts.Grows (w w' : Accounts) : Prop where
  orgs : w.control.orgs.has selfHostedOrgId = true → w'.control.orgs = w.control.orgs
  users : w.control.users.rows ≠ [] → w'.control.users = w.control.users
  members : w.control.members.rows ≠ [] → w'.control.members = w.control.members
  keys : w.control.apiKeys.rows ≠ [] → w'.control.apiKeys = w.control.apiKeys
  tenants : w.tenants.rows ≠ [] → w'.tenants.rows ≠ []
  projects : w.projectRows ≠ [] → w'.tenants = w.tenants
  others : w'.control.sessions = w.control.sessions ∧ w'.control.auditLog = w.control.auditLog

variable {toLowercase args} {w w' : Accounts} {op : BootPoint}

theorem Accounts.Grows.refl (w : Accounts) : w.Grows w :=
  ⟨fun _ => rfl, fun _ => rfl, fun _ => rfl, fun _ => rfl, id, fun _ => rfl, rfl, rfl⟩

/-- What another run has seen stays there, unless it waits to store a key and one is
stored. -/
theorem BootPoint.At.mono (h : op.At toLowercase args w) (hgrows : w.Grows w')
    (hkeys : op.Mints → w'.control.apiKeys.rows = w.control.apiKeys.rows) :
    op.At toLowercase args w' := by
  have horg : w.control.orgs.has selfHostedOrgId = true →
      w'.control.orgs.has selfHostedOrgId = true := fun hhas => by rwa [hgrows.orgs hhas]
  have huser : ∀ {userId row}, w.control.users.Sole userId row →
      w'.control.users.Sole userId row := fun hsole => by
    rwa [hgrows.users hsole.rows_ne]
  have hmembers : w.control.members.rows ≠ [] → w'.control.members.rows ≠ [] := fun hne => by
    rwa [hgrows.members hne]
  cases op with
  | checking | creatingOrg | failed => trivial
  | findingUser | creatingUser => exact horg h
  | addingMember userId => exact ⟨horg h.1, huser h.2⟩
  | provisioning userId => exact ⟨horg h.1, huser h.2.1, hmembers h.2.2⟩
  | listingKeys userId | resolving userId | creatingProject userId =>
    exact ⟨horg h.1, huser h.2.1, hmembers h.2.2.1, hgrows.tenants h.2.2.2⟩
  | creatingKey userId projectId =>
    obtain ⟨hhas, hsole, hne, ⟨row, hrow⟩, hnone⟩ := h
    refine ⟨horg hhas, huser hsole, hmembers hne, ⟨row, ?_⟩, ?_⟩
    · have hsame := hgrows.projects (by rw [hrow]; exact List.cons_ne_nil _ _)
      rw [Accounts.projectRows, hsame]
      exact hrow
    · exact (hkeys trivial).trans hnone
  | ready =>
    refine ⟨horg h.1, hmembers h.2.1, ?_⟩
    rw [hgrows.keys h.2.2]
    exact h.2.2

end Invariant

/-! ## What a careful step does -/

section Steps

variable {keyHash toLowercase : String → String} {args : BootArgs} {s s' : Install}
  {chance : BootChance} {op op' : BootPoint}

/-- What a careful step of a run leads to. -/
structure Advanced (toLowercase : String → String) (args : BootArgs) (s : Install) (op : BootPoint)
    (s' : Install) (op' : BootPoint) : Prop where
  inv : InstallInv toLowercase args s'
  grows : s.accounts.Grows s'.accounts
  arrives : op'.At toLowercase args s'.accounts
  keys : ¬ op.Mints → s'.accounts.control.apiKeys.rows = s.accounts.control.apiKeys.rows
  first : op'.Mints → s.accounts.projectRows = []

theorem advanced_stays (hinv : InstallInv toLowercase args s)
    (harrives : op'.At toLowercase args s.accounts) (hmints : ¬ op'.Mints) :
    Advanced toLowercase args s op s op' :=
  ⟨hinv, .refl _, harrives, fun _ => rfl, fun h => absurd h hmints⟩

/-- A read leads to a point whose assertion holds. -/
theorem advanced_read (hinv : InstallInv toLowercase args s) {call : CallResult}
    (harrives : op'.At toLowercase args s.accounts) (hmints : ¬ op'.Mints) :
    Advanced toLowercase args s op (s.read call op').1 (s.read call op').2 := by
  unfold Install.read
  split
  · exact advanced_stays hinv harrives hmints
  · exact advanced_stays hinv trivial id

/-- A write does nothing, or what it does when the call has an effect. -/
theorem advanced_write {base : Install} {call : CallResult} {effect : Option (Install × BootPoint)}
    (hbase : InstallInv toLowercase args base) (hsame : base.accounts = s.accounts)
    (h : call ≠ .failed → ∀ after point, effect = some (after, point) →
      Advanced toLowercase args s op after point) :
    Advanced toLowercase args s op (base.write call effect).1 (base.write call effect).2 := by
  have hnothing : Advanced toLowercase args s op base .failed := by
    refine ⟨hbase, ?_, trivial, fun _ => by rw [hsame], False.elim⟩
    rw [hsame]
    exact .refl _
  cases effect with
  | none => exact hnothing
  | some result =>
    obtain ⟨after, point⟩ := result
    cases call with
    | failed => exact hnothing
    | answered => exact h (by decide) after point rfl
    | unanswered =>
      have hdone := h (by decide) after point rfl
      exact ⟨hdone.inv, hdone.grows, trivial, hdone.keys, False.elim⟩

theorem ofNat_eq_selfHostedOrgId_iff {n : Nat} (hn : n < 2 ^ 63) :
    Int64.ofNat n = selfHostedOrgId ↔ n = 1 := by
  constructor
  · intro h
    have hint := congrArg Int64.toInt h
    rw [Int64.toInt_ofNat_of_lt hn] at hint
    have hone : selfHostedOrgId.toInt = 1 := by decide
    omega
  · rintro rfl
    rfl

/-- After an id is taken, the sequence no longer gives the one of the organization. -/
theorem InstallInv.sequence_succ (h : InstallInv toLowercase args s) {rows : List (Int64 × OrgRow)} :
    1 ≤ s.nextOrg + 1 ∧ (s.nextOrg + 1 = 1 → rows = []) := by
  have hpos := h.sequence.1
  exact ⟨by omega, fun hone => by omega⟩

theorem InstallInv.skip (h : InstallInv toLowercase args s) :
    InstallInv toLowercase args { s with nextOrg := s.nextOrg + 1 } :=
  ⟨h.sequence_succ, h.org, h.users, h.members, h.tenants, h.keys⟩

/-- The organization is the first row of its table. -/
theorem advanced_createOrg {name : String} {id : Int64} {after : Install}
    (hinv : InstallInv toLowercase args s)
    (hnone : s.accounts.control.orgs.has selfHostedOrgId = false)
    (h : s.createOrg name = some (after, id)) :
    Advanced toLowercase args s op after (if id = selfHostedOrgId then .findingUser else .failed) := by
  unfold Install.createOrg at h
  split at h
  case isFalse => cases h
  rename_i hsmall
  obtain ⟨control, hcontrol, heq⟩ := Option.map_eq_some_iff.1 h
  cases heq
  obtain ⟨orgs, hinsert, rfl⟩ := Option.map_eq_some_iff.1 hcontrol
  have hhas : orgs.has selfHostedOrgId = true ↔ Int64.ofNat s.nextOrg = selfHostedOrgId := by
    rw [Table.has_insert? hinsert, hnone, Bool.or_false, decide_eq_true_iff, eq_comm]
  have hsole : orgs.has selfHostedOrgId = true → ∃ o, orgs.Sole selfHostedOrgId o := by
    intro hthere
    have hfirst := (ofNat_eq_selfHostedOrgId_iff hsmall).1 (hhas.1 hthere)
    have hrow := Table.sole_of_insert? (hinv.sequence.2 hfirst) hinsert
    rw [hhas.1 hthere] at hrow
    exact ⟨_, hrow⟩
  constructor
  case inv =>
    exact ⟨hinv.sequence_succ, hsole, hinv.users, hinv.members, hinv.tenants, hinv.keys⟩
  case grows =>
    refine { Accounts.Grows.refl s.accounts with orgs := fun hthere => ?_ }
    rw [hnone] at hthere
    cases hthere
  case arrives =>
    split
    · exact hhas.2 ‹_›
    · trivial
  case keys => exact fun _ => rfl
  case first =>
    split
    · exact False.elim
    · exact False.elim

theorem findUserIdByEmail_of_sole {c : ControlStore} {userId : Int64} {email : String}
    (h : c.users.Sole userId ⟨email⟩) : c.findUserIdByEmail email = some userId := by
  rw [ControlStore.findUserIdByEmail, h]
  simp

/-- The admin is the first user. -/
theorem advanced_createUser {control : ControlStore} {userId : Int64}
    (hinv : InstallInv toLowercase args s)
    (hat : s.accounts.control.orgs.has selfHostedOrgId = true)
    (h : s.accounts.control.createUser userId (args.admin toLowercase) = some control) :
    Advanced toLowercase args s op (s.setControl control) (.addingMember userId) := by
  unfold ControlStore.createUser at h
  split at h
  case isFalse => cases h
  rename_i hnone
  obtain ⟨users, hinsert, rfl⟩ := Option.map_eq_some_iff.1 h
  have hempty : s.accounts.control.users.rows = [] := by
    refine hinv.users.resolve_right ?_
    rintro ⟨other, hother⟩
    rw [findUserIdByEmail_of_sole hother] at hnone
    cases hnone
  have hsole := Table.sole_of_insert? hempty hinsert
  have hmembers : s.accounts.control.members.rows = [] := by
    refine hinv.members.resolve_right ?_
    rintro ⟨other, m, hother, -⟩
    exact hother.rows_ne hempty
  constructor
  case inv =>
    exact ⟨hinv.sequence, hinv.org, .inr ⟨userId, hsole⟩, .inl hmembers, hinv.tenants, hinv.keys⟩
  case grows => exact { Accounts.Grows.refl s.accounts with users := fun hne => absurd hempty hne }
  case arrives => exact ⟨hat, hsole⟩
  case keys => exact fun _ => rfl
  case first => exact False.elim

/-- The admin is the first member, or an owner already. -/
theorem advanced_addMember {control : ControlStore} {userId : Int64}
    (hinv : InstallInv toLowercase args s)
    (hat : BootPoint.At toLowercase args s.accounts (.addingMember userId))
    (h : s.accounts.control.addMember selfHostedOrgId userId "owner" = some control) :
    Advanced toLowercase args s op (s.setControl control) (.provisioning userId) := by
  obtain ⟨horg, huser⟩ := hat
  unfold ControlStore.addMember at h
  split at h
  case isFalse => cases h
  cases h
  rcases hinv.members with hempty | ⟨other, m, hother, hsole, howner⟩
  · have hsole := Table.sole_of_upsert (k := (selfHostedOrgId, userId)) (v := { role := "owner" })
      (f := fun m : MemberRow => { m with role := "owner" }) hempty
    constructor
    case inv =>
      exact ⟨hinv.sequence, hinv.org, hinv.users, .inr ⟨userId, _, huser, hsole, rfl⟩, hinv.tenants,
        hinv.keys⟩
    case grows =>
      exact { Accounts.Grows.refl s.accounts with members := fun hne => absurd hempty hne }
    case arrives => exact ⟨horg, huser, hsole.rows_ne⟩
    case keys => exact fun _ => rfl
    case first => exact False.elim
  · obtain ⟨rfl, -⟩ := huser.unique hother
    have hsame : s.accounts.control.members.upsert (selfHostedOrgId, userId) { role := "owner" }
        (fun m => { m with role := "owner" }) = s.accounts.control.members := by
      refine hsole.upsert_eq ?_
      rw [← howner]
    rw [hsame]
    exact advanced_stays hinv ⟨horg, huser, hsole.rows_ne⟩ False.elim

theorem projectRows_of_sole {w : Accounts} {t : ProjectStore}
    (h : w.tenants.Sole selfHostedOrgId t) : w.projectRows = t.projects.rows := by
  rw [Accounts.projectRows, h.get?_eq]
  rfl

/-- Without a project there is no key. -/
theorem InstallInv.keys_of_none (h : InstallInv toLowercase args s)
    (hnone : s.accounts.projectRows = []) : s.accounts.control.apiKeys.rows = [] := by
  refine h.keys.resolve_right ?_
  rintro ⟨hash, key, projectId, row, -, hrow, -⟩
  rw [hnone] at hrow
  cases hrow

/-- The database is the first one, or there already. -/
theorem advanced_provision {userId : Int64} {after : Install}
    (hinv : InstallInv toLowercase args s)
    (hat : BootPoint.At toLowercase args s.accounts (.provisioning userId))
    (h : s.provision selfHostedOrgId = some after) :
    Advanced toLowercase args s op after (.listingKeys userId) := by
  obtain ⟨horg, huser, hmembers⟩ := hat
  rw [Install.provision, if_pos horg] at h
  cases h
  rcases hinv.tenants with hempty | ⟨t, hsole, hprojects⟩
  · have hsole := Table.sole_of_insertIgnore (k := selfHostedOrgId) (v := ({} : ProjectStore)) hempty
    have hnone : s.accounts.projectRows = [] := by
      rw [Accounts.projectRows, Table.get?, hempty]
      rfl
    have hkeys := hinv.keys_of_none hnone
    constructor
    case inv =>
      exact ⟨hinv.sequence, hinv.org, hinv.users, hinv.members, .inr ⟨_, hsole, .inl rfl⟩,
        .inl hkeys⟩
    case grows =>
      exact { Accounts.Grows.refl s.accounts with
        tenants := fun _ => hsole.rows_ne
        projects := fun hne => absurd hnone hne }
    case arrives => exact ⟨horg, huser, hmembers, hsole.rows_ne⟩
    case keys => exact fun _ => rfl
    case first => exact False.elim
  · rw [hsole.insertIgnore_eq]
    exact advanced_stays hinv ⟨horg, huser, hmembers, hsole.rows_ne⟩ False.elim

/-- The project is the first one. -/
theorem advanced_createProject {userId projectId : Int64} {appId : String} {after : Install}
    (hinv : InstallInv toLowercase args s)
    (hat : BootPoint.At toLowercase args s.accounts (.creatingProject userId))
    (hnone : s.accounts.projectRows = [])
    (h : s.createProject selfHostedOrgId projectId userId args.projectName appId = some after) :
    Advanced toLowercase args s op after (.creatingKey userId projectId) := by
  obtain ⟨horg, huser, hmembers, htenants⟩ := hat
  obtain ⟨t, ht, hcreated⟩ := Option.bind_eq_some_iff.1 h
  obtain ⟨t', hproject, rfl⟩ := Option.map_eq_some_iff.1 hcreated
  obtain ⟨t0, hsole, -⟩ := hinv.tenants.resolve_left htenants
  obtain rfl : t0 = t := Option.some.inj (hsole.get?_eq.symm.trans ht)
  unfold ProjectStore.createProject at hproject
  split at hproject
  case isTrue => cases hproject
  obtain ⟨projects, hinsert, rfl⟩ := Option.map_eq_some_iff.1 hproject
  rw [projectRows_of_sole hsole] at hnone
  have hfirst := Table.sole_of_insert? hnone hinsert
  have hstore : (s.accounts.setTenant selfHostedOrgId { t0 with projects := projects }).tenants.Sole
      selfHostedOrgId { t0 with projects := projects } := hsole.update_key fun _ => _
  have hrows := projectRows_of_sole hstore
  have hkeys := hinv.keys_of_none ((projectRows_of_sole hsole).trans hnone)
  constructor
  case inv =>
    exact ⟨hinv.sequence, hinv.org, hinv.users, hinv.members,
      .inr ⟨_, hstore, .inr ⟨projectId, _, hfirst, rfl⟩⟩, .inl hkeys⟩
  case grows =>
    exact { Accounts.Grows.refl s.accounts with
      tenants := fun _ => hstore.rows_ne
      projects := fun hne => absurd ((projectRows_of_sole hsole).trans hnone) hne }
  case arrives => exact ⟨horg, huser, hmembers, ⟨_, hrows.trans hfirst⟩, hkeys⟩
  case keys => exact fun _ => rfl
  case first => exact fun _ => (projectRows_of_sole hsole).trans hnone

/-- The key is the first one. -/
theorem advanced_createApiKey {userId projectId : Int64} {hash keyPrefix : String}
    {control : ControlStore} (hinv : InstallInv toLowercase args s)
    (hat : BootPoint.At toLowercase args s.accounts (.creatingKey userId projectId))
    (h : s.accounts.control.createApiKey hash keyPrefix selfHostedOrgId userId (some projectId) =
      some control) :
    Advanced toLowercase args s (.creatingKey userId projectId) (s.setControl control) .ready := by
  obtain ⟨horg, huser, hmembers, ⟨row, hrow⟩, hempty⟩ := hat
  unfold ControlStore.createApiKey at h
  split at h
  case isFalse => cases h
  obtain ⟨apiKeys, hinsert, rfl⟩ := Option.map_eq_some_iff.1 h
  have hsole := Table.sole_of_insert? hempty hinsert
  constructor
  case inv =>
    exact ⟨hinv.sequence, hinv.org, hinv.users, hinv.members, hinv.tenants,
      .inr ⟨hash, _, projectId, row, hsole, hrow, rfl, rfl⟩⟩
  case grows => exact { Accounts.Grows.refl s.accounts with keys := fun hne => absurd hempty hne }
  case arrives => exact ⟨horg, hmembers, hsole.rows_ne⟩
  case keys => exact fun hnot => absurd trivial hnot
  case first => exact False.elim

/-- Whoever is found by the email is the admin. -/
theorem InstallInv.sole_of_found (h : InstallInv toLowercase args s) {userId : Int64}
    (hfound : s.accounts.control.findUserIdByEmail (args.admin toLowercase) = some userId) :
    s.accounts.control.users.Sole userId ⟨args.admin toLowercase⟩ := by
  rcases h.users with hempty | ⟨other, hother⟩
  · rw [ControlStore.findUserIdByEmail, hempty] at hfound
    cases hfound
  · rw [findUserIdByEmail_of_sole hother] at hfound
    cases hfound
    exact hother

/-- Only the tables matter of where a step starts. -/
theorem Advanced.of_base {base : Install} (h : Advanced toLowercase args base op s' op')
    (hsame : base.accounts = s.accounts) : Advanced toLowercase args s op s' op' :=
  ⟨h.inv, hsame ▸ h.grows, h.arrives, hsame ▸ h.keys, hsame ▸ h.first⟩

theorem Advanced.of_eq {r : Install × BootPoint} (h : Advanced toLowercase args s op r.1 r.2)
    (heq : some r = some (s', op')) : Advanced toLowercase args s op s' op' := by
  cases heq
  exact h

/-- A careful step of a run keeps the invariant, fills empty tables only, and arrives
where its assertion holds. -/
theorem advanced_of_next (hinv : InstallInv toLowercase args s)
    (hat : op.At toLowercase args s.accounts) (hcareful : op.Careful s chance)
    (hnext : bootNext keyHash toLowercase args s chance op = some (s', op')) :
    Advanced toLowercase args s op s' op' := by
  cases op with
  | checking =>
    refine .of_eq ?_ hnext
    split
    · exact advanced_stays hinv trivial id
    split
    · exact advanced_stays hinv trivial id
    refine advanced_read hinv ?_ ?_
    · split
      · assumption
      · trivial
    · split <;> exact id
  | creatingOrg =>
    refine .of_eq ?_ hnext
    -- the sequence may skip an id first
    generalize hbase : (if chance.skips then { s with nextOrg := s.nextOrg + 1 } else s) = base
    have hsame : base.accounts = s.accounts := by
      rw [← hbase]
      split <;> rfl
    have hbaseInv : InstallInv toLowercase args base := by
      rw [← hbase]
      split
      · exact hinv.skip
      · exact hinv
    refine advanced_write hbaseInv hsame fun hcall after point heffect => ?_
    obtain ⟨⟨after', id⟩, hcreated, heq⟩ := Option.map_eq_some_iff.1 heffect
    cases heq
    refine (advanced_createOrg hbaseInv ?_ hcreated).of_base hsame
    rw [hsame]
    exact hcareful hcall
  | findingUser =>
    refine .of_eq ?_ hnext
    refine advanced_read hinv ?_ ?_
    · split
      · rename_i userId hfound
        exact ⟨hat, hinv.sole_of_found hfound⟩
      · exact hat
    · split <;> exact id
  | creatingUser =>
    refine .of_eq ?_ hnext
    split
    · exact advanced_stays hinv trivial id
    refine advanced_write hinv rfl fun _ after point heffect => ?_
    obtain ⟨control, hcreated, heq⟩ := Option.map_eq_some_iff.1 heffect
    cases heq
    exact advanced_createUser hinv hat hcreated
  | addingMember userId =>
    refine .of_eq ?_ hnext
    refine advanced_write hinv rfl fun _ after point heffect => ?_
    obtain ⟨control, hadded, heq⟩ := Option.map_eq_some_iff.1 heffect
    cases heq
    exact advanced_addMember hinv hat hadded
  | provisioning userId =>
    refine .of_eq ?_ hnext
    refine advanced_write hinv rfl fun _ after point heffect => ?_
    obtain ⟨after', hprovision, heq⟩ := Option.map_eq_some_iff.1 heffect
    cases heq
    exact advanced_provision hinv hat hprovision
  | listingKeys userId =>
    refine .of_eq ?_ hnext
    refine advanced_read hinv ?_ ?_
    · split
      · exact hat
      · rename_i hlisted
        refine ⟨hat.1, hat.2.2.1, fun hnone => hlisted ?_⟩
        rw [ControlStore.listApiKeys, hnone]
        rfl
    · split <;> exact id
  | resolving userId =>
    refine .of_eq ?_ hnext
    refine advanced_read hinv ?_ ?_
    · split
      · exact hat
      · trivial
    · split <;> exact id
  | creatingProject userId =>
    refine .of_eq ?_ hnext
    refine advanced_write hinv rfl fun hcall after point heffect => ?_
    obtain ⟨after', hcreated, heq⟩ := Option.map_eq_some_iff.1 heffect
    cases heq
    exact advanced_createProject hinv hat (hcareful hcall) hcreated
  | creatingKey userId projectId =>
    refine .of_eq ?_ hnext
    refine advanced_write hinv rfl fun _ after point heffect => ?_
    obtain ⟨control, hcreated, heq⟩ := Option.map_eq_some_iff.1 heffect
    cases heq
    exact advanced_createApiKey hinv hat hcreated
  | failed | ready => cases hnext

end Steps

/-! ## Idempotence -/

section Idempotence

variable {keyHash toLowercase : String → String} {args : BootArgs} {w : Accounts}
  {s s' : Pool Install BootPoint}

/-- The runs are as they should be: the tables are right, every run is where its
assertion holds, and one at most is about to store a key. -/
def BootOutline (toLowercase : String → String) (args : BootArgs) : Pool Install BootPoint → Prop :=
  Outline (InstallInv toLowercase args) (fun s op => op.At toLowercase args s.accounts)
    fun x y => ¬ (x.Mints ∧ y.Mints)

theorem keeps_bootOutline : KeepsOutline (bootRuns keyHash toLowercase args) CarefulRuns
    (InstallInv toLowercase args) (fun s op => op.At toLowercase args s.accounts)
    (fun x y => ¬ (x.Mints ∧ y.Mints)) := by
  constructor
  case start =>
    intro s s' op h _ hstarts
    obtain rfl : op = .checking := of_decide_eq_true hstarts
    exact ⟨trivial, fun o _ hboth => hboth.2⟩
  case advance =>
    intro s s' i chance op store next h hok hop hnext
    obtain ⟨⟨store', op'⟩, hstep, heq⟩ := Option.map_eq_some_iff.1 hnext
    cases heq
    have hdone := advanced_of_next h.store (h.each op (List.mem_of_getElem? hop)) (hok op hop) hstep
    refine ⟨hdone.inv, fun o ho => ?_, fun op'' hop'' => ?_⟩
    · refine (h.each o (List.mem_of_mem_eraseIdx ho)).mono hdone.grows fun hmints => ?_
      have hsymm : ∀ x y : BootPoint, ¬ (x.Mints ∧ y.Mints) → ¬ (y.Mints ∧ x.Mints) :=
        fun x y hxy hyx => hxy hyx.symm
      exact hdone.keys fun hop' => h.apart_at hsymm hop ho ⟨hop', hmints⟩
    · cases hop''
      refine ⟨hdone.arrives, fun o ho hboth => ?_⟩
      -- whoever is about to store a key has a project already
      have hat := h.each o (List.mem_of_mem_eraseIdx ho)
      cases o <;> try exact hboth.1
      obtain ⟨-, -, -, ⟨row, hrow⟩, -⟩ := hat
      rw [hdone.first hboth.2] at hrow
      cases hrow
  case commit => exact fun _ _ e => e.elim

/-- When a run is ready, everything is installed. -/
theorem installed_of_ready (h : BootOutline toLowercase args s) (hready : .ready ∈ s.inFlight) :
    Installed toLowercase args s.store.accounts := by
  obtain ⟨horg, hmembers, hkeys⟩ := h.each .ready hready
  constructor
  case org => exact h.store.org horg
  case owner =>
    obtain ⟨userId, m, huser, hmember, howner⟩ := h.store.members.resolve_left hmembers
    exact ⟨userId, m, findUserIdByEmail_of_sole huser, hmember.get?_eq, howner⟩
  case project =>
    obtain ⟨hash, key, projectId, row, hkey, hrow, horgId, hproject⟩ :=
      h.store.keys.resolve_left hkeys
    rcases h.store.tenants with hempty | ⟨t, ht, hprojects⟩
    · rw [Accounts.projectRows, Table.get?, hempty] at hrow
      cases hrow
    · rw [projectRows_of_sole ht] at hrow
      obtain ⟨projectId', row', hsole, hname⟩ := hprojects.resolve_left (by rw [hrow]; simp)
      obtain ⟨rfl, rfl⟩ := hsole.unique hrow
      exact ⟨t, projectId', row', hash, key, ht, hsole, hname, hkey, horgId, hproject⟩

/-- Nothing grows when everything is installed. -/
theorem Installed.grows_eq {w' : Accounts} (h : Installed toLowercase args w) (hgrows : w.Grows w') :
    w' = w := by
  obtain ⟨o, horg⟩ := h.org
  obtain ⟨userId, m, hfound, hmember, -⟩ := h.owner
  obtain ⟨t, projectId, row, hash, key, ht, hproject, -, hkey, -⟩ := h.project
  have horgs := hgrows.orgs (horg.has_iff.2 rfl)
  have husers := hgrows.users (by
    intro hempty
    rw [ControlStore.findUserIdByEmail, hempty] at hfound
    cases hfound)
  have hmembers := hgrows.members (by
    intro hempty
    rw [Table.get?, hempty] at hmember
    cases hmember)
  have hkeys := hgrows.keys hkey.rows_ne
  have htenants := hgrows.projects (by
    rw [projectRows_of_sole ht]
    exact hproject.rows_ne)
  obtain ⟨hsessions, haudit⟩ := hgrows.others
  obtain ⟨⟨users, orgs, members, sessions, apiKeys, auditLog⟩, tenants⟩ := w'
  simp only at horgs husers hmembers hkeys htenants hsessions haudit
  rw [horgs, husers, hmembers, hkeys, htenants, hsessions, haudit]

/-- In runs whose steps are careful, a run that is ready leaves one organization with
its admin, one project and one key of it, and nothing changes afterwards. -/
theorem bootstrap_idempotent {es : List (PoolEvent BootPoint BootChance Empty)}
    (hrun : Run (Guarded (stepOf (bootRuns keyHash toLowercase args).step) CarefulRuns) ⟨{}, []⟩ es s)
    (hready : .ready ∈ s.inFlight) :
    Installed toLowercase args s.store.accounts ∧
      ∀ es' s', Run (Guarded (stepOf (bootRuns keyHash toLowercase args).step) CarefulRuns) s es' s' →
        s'.store.accounts = s.store.accounts := by
  have hfresh : BootOutline toLowercase args ⟨{}, []⟩ := by
    refine outline_of_idle ⟨⟨le_rfl, fun _ => rfl⟩, ?_, .inl rfl, .inl rfl, .inl rfl, .inl rfl⟩ rfl
    exact fun h => Bool.noConfusion h
  have houtline : BootOutline toLowercase args s := Outline.run keeps_bootOutline hrun hfresh
  have hinstalled := installed_of_ready houtline hready
  refine ⟨hinstalled, fun es' s' hrun' => ?_⟩
  have hend := hrun'.invariant_of_guarded
    (fun t => BootOutline toLowercase args t ∧ t.store.accounts = s.store.accounts) ?_
    ⟨houtline, rfl⟩
  · exact hend.2
  · rintro t e t' ⟨ht, hsame⟩ hstep hok
    refine ⟨Outline.step keeps_bootOutline ht hstep hok, ?_⟩
    cases Program.effect_of_step hstep with
    | start hstarts => exact hsame
    | @advance i chance op store next hop hnext =>
      obtain ⟨⟨store', op'⟩, hstepped, heq⟩ := Option.map_eq_some_iff.1 hnext
      cases heq
      have hdone := advanced_of_next ht.store (ht.each op (List.mem_of_getElem? hop)) (hok op hop)
        hstepped
      rw [← hsame] at hinstalled ⊢
      exact hinstalled.grows_eq hdone.grows
    | abandon hop => exact hsame
    | @commit e store hwrite => exact e.elim

end Idempotence

/-- The check of a careful event. -/
def carefulEvent (s : Pool Install BootPoint) : PoolEvent BootPoint BootChance Empty → Bool
  | .advance i chance => (s.inFlight[i]?).all fun op => op.Careful s.store chance
  | .start _ | .abandon _ | .commit _ => true

theorem careful_of_carefulEvent (s : Pool Install BootPoint)
    (e : PoolEvent BootPoint BootChance Empty) (s' : Pool Install BootPoint)
    (h : carefulEvent s e = true) : CarefulRuns s e s' := by
  cases e with
  | advance i chance =>
    intro op hop
    rw [carefulEvent, hop, Option.all_some] at h
    exact of_decide_eq_true h
  | start | abandon | commit => trivial

/-- The arguments of a first start. -/
def firstStart : BootArgs := ⟨"admin@a.example", "correct horse", "Default"⟩

/-- A run with nobody beside it, which takes some steps before it creates the project. -/
def upToProject (steps : Nat) (projectId : Int64) (digits : String) :
    List (PoolEvent BootPoint BootChance Empty) :=
  .start .checking :: List.replicate steps (.advance 0 {}) ++
    [.advance 0 { projectId := projectId, digits := digits }]

/-- What is looked at after a sequence of events. -/
def bootSummary (s : Pool Install BootPoint) : List BootPoint × List Int64 × List String :=
  (s.inFlight, s.store.accounts.projectRows.map Prod.fst,
    s.store.accounts.control.apiKeys.rows.map Prod.fst)

theorem bootstrap_idempotent_first_start : ∃ s : Pool Install BootPoint,
    bootSummary s = ([.ready], [1], ["sk_live_5e"]) ∧
      Installed id firstStart s.store.accounts := by
  have hruns : (runOf (checked (bootRuns id id firstStart).step carefulEvent) ⟨{}, []⟩
      (upToProject 8 1 "c0ffee" ++ [.advance 0 { hex := "5e" }])).map bootSummary =
      some ([.ready], [1], ["sk_live_5e"]) := by decide
  obtain ⟨s, hs, hsummary⟩ := Option.map_eq_some_iff.1 hruns
  have hready : BootPoint.ready ∈ s.inFlight := by
    have hflight := congrArg Prod.fst hsummary
    rw [show s.inFlight = [.ready] from hflight]
    exact List.mem_singleton_self _
  have hrun := Run.of_runOf_checked careful_of_carefulEvent hs
  exact ⟨s, hsummary, (bootstrap_idempotent hrun hready).1⟩

/-- A run that stops between the project and the key leaves a project, and the next run
adds another one. -/
theorem interrupted_bootstrap_leaves_two_projects :
    ¬ ∀ (keyHash toLowercase : String → String) (args : BootArgs)
      (es : List (PoolEvent BootPoint BootChance Empty)) (s : Pool Install BootPoint),
      Run (stepOf (bootRuns keyHash toLowercase args).step) ⟨{}, []⟩ es s → .ready ∈ s.inFlight →
        Installed toLowercase args s.store.accounts := by
  intro hall
  have hruns : (runOf (bootRuns id id firstStart).step ⟨{}, []⟩
      (upToProject 8 1 "c0ffee" ++ [.abandon 0] ++ upToProject 6 2 "decade" ++
        [.advance 0 { hex := "5e" }])).map bootSummary =
      some ([.ready], [1, 2], ["sk_live_5e"]) := by decide
  obtain ⟨s, hs, hsummary⟩ := Option.map_eq_some_iff.1 hruns
  have hready : BootPoint.ready ∈ s.inFlight := by
    have hflight := congrArg Prod.fst hsummary
    rw [show s.inFlight = [.ready] from hflight]
    exact List.mem_singleton_self _
  obtain ⟨t, projectId, row, -, -, ht, hproject, -⟩ :=
    (hall id id firstStart _ s (Run.of_runOf hs) hready).project
  have hprojects : s.store.accounts.projectRows.map Prod.fst = [1, 2] :=
    congrArg (fun r => r.2.1) hsummary
  rw [projectRows_of_sole ht, hproject] at hprojects
  cases hprojects

/-- Two runs that both look for the organization before either creates it leave two. -/
example : ((runOf (bootRuns id id firstStart).step ⟨{}, []⟩
    [.start .checking, .start .checking, .advance 0 {}, .advance 0 {}, .advance 0 {},
      .advance 0 {}]).map fun s => s.store.accounts.control.orgs.rows.map Prod.fst) =
    some [1, 2] := by decide

end ReproitCloud
