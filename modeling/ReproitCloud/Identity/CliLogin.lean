import ReproitCloud.Members.Owners

/-!
# The login of the command line

`cli_device` stores an authorization under the hashes of two codes.  The command line keeps the
device code, and the user code is shown for a browser.  `cli_approve` writes the user and the
organization of the browser's session into the authorization, and `cli_token`, which the command
line calls again and again, exchanges an approved authorization for an API key.  Whoever is in
between is at one of the calls of `CliOp`.

The exchange is one transaction that holds the row.  The approval is one statement, and the user
and the organization in it were read before.

The tables do not say what has happened.  `CliStore` remembers the authorizations in the order
they were started, the approvals and the keys that were minted, and how often a membership was
taken away.  No code reads these.
-/

namespace ReproitCloud

open Lib

/-! ## The tables -/

/-- A row of `cli_authorizations`, keyed by the hash of the device code. -/
structure CliAuthorizationRow where
  userCodeHash : String
  /-- `org_id` and `user_id`, which are written together. -/
  grantee : Option (Int64 × Int64) := none
  approved : Bool := false
  consumed : Bool := false
  expiresAt : Micros
  /-- No column: the place of the authorization among those that were started. -/
  serial : Nat
  /-- No column: how often the membership of the grantee had been taken away when the approving
  request found it. -/
  removals : Nat := 0
deriving DecidableEq, Repr

/-- An authorization that was started. -/
structure CliStart where
  deviceCode : String
  expiresAt : Micros
deriving DecidableEq, Repr

/-- An approval that has taken effect. -/
structure CliApproval where
  serial : Nat
  orgId : Int64
  userId : Int64
  time : Micros
deriving DecidableEq, Repr

/-- A key that was minted, with the device code of the request. -/
structure CliMint where
  serial : Nat
  presented : String
  keyHash : String
  orgId : Int64
  userId : Int64
  time : Micros
  /-- Whether the user was a member of the organization. -/
  member : Bool
  /-- Whether the membership had not been taken away since the approving request found it. -/
  undisturbed : Bool
deriving DecidableEq, Repr

structure CliStore where
  control : ControlStore
  now : Micros
  authorizations : Table String CliAuthorizationRow := .empty
  /-- No tables. -/
  started : List CliStart := []
  approvals : List CliApproval := []
  minted : List CliMint := []
  /-- The memberships that were taken away, as organization and user. -/
  removed : List (Int64 × Int64) := []

/-- `to_ascii_uppercase`. -/
def toAsciiUppercase (text : String) : String := String.ofList (text.toList.map Char.toUpper)

/-- `CLI_AUTH_TTL_SECS`. -/
def cliAuthTtl : Micros := microsPerHour / 6

namespace CliStore

variable (keyHash : String → String) (s : CliStore)

/-- How often a membership was taken away. -/
def removals (orgId userId : Int64) : Nat := s.removed.count (orgId, userId)

/-- The last approval of an authorization. -/
def lastApproval (serial : Nat) : Option CliApproval :=
  (s.approvals.filter fun a => a.serial = serial).getLast?

/-- The deletion in `create_cli_authorization`. -/
def pruneAuthorizations : CliStore :=
  { s with authorizations := s.authorizations.delete fun _ r => r.consumed || r.expiresAt ≤ s.now }

/-- The insert in `create_cli_authorization`.  Both hashes are unique. -/
def storeAuthorization (deviceCode userCode : String) : Option CliStore :=
  let userCodeHash := keyHash (toAsciiUppercase userCode)
  if s.authorizations.count (fun _ r => r.userCodeHash = userCodeHash) = 0 then
    (s.authorizations.insert? (keyHash deviceCode)
      { userCodeHash := userCodeHash, expiresAt := s.now + cliAuthTtl,
        serial := s.started.length }).map fun authorizations =>
          { s with
            authorizations := authorizations
            started := s.started ++ [⟨deviceCode, s.now + cliAuthTtl⟩] }
  else none

/-- The rows that `approve_cli_authorization` writes to. -/
def approvable (userCode : String) (r : CliAuthorizationRow) : Bool :=
  r.userCodeHash = keyHash (toAsciiUppercase userCode) && s.now < r.expiresAt && !r.consumed

/-- `approve_cli_authorization`, with whether it has written to a row.  The user and the
organization have to exist. -/
def approveCliAuthorization (userCode : String) (userId orgId : Int64) (removals : Nat) :
    Option (CliStore × Bool) :=
  let rows := s.authorizations.rows.filter fun r => s.approvable keyHash userCode r.2
  if rows = [] then some (s, false)
  else if s.control.orgs.has orgId && s.control.users.has userId then
    some ({ s with
      authorizations := s.authorizations.update (fun _ r => s.approvable keyHash userCode r)
        fun _ r =>
          { r with approved := true, grantee := some (orgId, userId), removals := removals }
      approvals := s.approvals ++ rows.map fun r => ⟨r.2.serial, orgId, userId, s.now⟩ },
      rows.length = 1)
  else none

/-- `cli_authorization_state`. -/
def cliAuthorizationState (deviceCode : String) : Option (Bool × Bool) :=
  ((s.authorizations.get? (keyHash deviceCode)).filter fun r => s.now < r.expiresAt).map
    fun r => (r.approved, r.consumed)

/-- The row that `consume_cli_authorization` locks. -/
def toConsume (deviceCode : String) : Option CliAuthorizationRow :=
  (s.authorizations.get? (keyHash deviceCode)).filter fun r =>
    r.approved && !r.consumed && s.now < r.expiresAt

/-- What is remembered of an exchange. -/
def mintOf (row : CliAuthorizationRow) (deviceCode secret : String) (orgId userId : Int64) :
    CliMint where
  serial := row.serial
  presented := deviceCode
  keyHash := keyHash secret
  orgId := orgId
  userId := userId
  time := s.now
  member := s.control.members.has (orgId, userId)
  undisturbed := s.removals orgId userId = row.removals

/-- `consume_cli_authorization`, with the organization of the key. -/
def consumeCliAuthorization (deviceCode secret keyPrefix : String) :
    Option (CliStore × Option Int64) :=
  match s.toConsume keyHash deviceCode with
  | none => some (s, none)
  | some row =>
    row.grantee.bind fun (orgId, userId) =>
      (s.control.createApiKey (keyHash secret) keyPrefix orgId userId none).map fun control =>
        ({ s with
          control := control
          authorizations := s.authorizations.update (fun k _ => k = keyHash deviceCode)
            fun _ r => { r with consumed := true }
          minted := s.minted ++ [s.mintOf keyHash row deviceCode secret orgId userId] },
          some orgId)

/-- `remove_member`. -/
def removeMember (orgId userId : Int64) : CliStore :=
  { s with
    control := s.control.removeMember orgId userId
    removed := s.removed ++ [(orgId, userId)] }

/-- `delete_org`.  The members, the keys and the authorizations of the organization go with it. -/
def deleteOrg (orgId : Int64) : CliStore :=
  { s with
    control := { s.control with
      orgs := s.control.orgs.delete fun k _ => k = orgId
      members := s.control.members.delete fun k _ => k.1 = orgId
      apiKeys := s.control.apiKeys.delete fun _ k => k.orgId = orgId }
    authorizations := s.authorizations.delete fun _ r => r.grantee.any fun g => g.1 = orgId
    removed := s.removed ++
      (s.control.members.rows.map Prod.fst).filter fun k => k.1 = orgId }

end CliStore

/-! ## Requests -/

/-- What a server is given. -/
structure CliEnv where
  cfg : ServerConfig
  /-- `public_base` of the mails. -/
  publicBase : String := ""

/-- What the environment decides of a call. -/
structure CliChance where
  result : CallResult := .answered
  /-- `new_session_token`, and the digits of a new UUID. -/
  deviceCode : String := ""
  raw : String := ""
  /-- The random digits of the new key. -/
  hex : String := ""
  /-- The projects of the tenant, as far as they can be read. -/
  projects : List Json := []

/-- Where a request is. -/
inductive CliOp where
  /-- `create_cli_authorization` and `audit` of `cli_device`. -/
  | pruning (client : Option String)
  | storing (client : Option String) (deviceCode userCode : String)
  | startAuditing (client : Option String) (deviceCode userCode : String)
  /-- `user_and_org`, `approve_cli_authorization` and `audit` of `cli_approve`.  The request
  remembers how often the membership that it has found had been taken away. -/
  | arriving (cookie : Header) (code : String)
  | approving (actor : Actor) (code : String) (removals : Nat)
  | approveAuditing (actor : Actor)
  /-- `cli_authorization_state`, `consume_cli_authorization` and `list_projects` of
  `cli_token`. -/
  | polling (code : String)
  | consuming (code : String)
  | listing (orgId : Int64) (token : String)
  | replied (reply : Reply)

/-- The user code of a UUID. -/
def userCodeOf (raw : String) : String :=
  String.ofList (raw.toList.take 4) ++ "-" ++ String.ofList ((raw.toList.drop 4).take 4)

/-- A code of a body. -/
def trimmed (code : String) : String := String.ofList (trim code.toList)

/-- The audit row of `cli_device`. -/
def cliStartAudit (client : Option String) : AuditRow where
  actor := "anonymous"
  action := "cli.login.start"
  orgId := none
  detail := .object [("client", .string (client.getD "reproit"))]

/-- The reply of `cli_device`. -/
def deviceReply (E : CliEnv) (deviceCode userCode : String) : Reply :=
  okReply
    [("deviceCode", .string deviceCode), ("userCode", .string userCode),
     ("verificationUri", .string (E.publicBase ++ "/cli")),
     ("verificationUriComplete", .string (E.publicBase ++ "/cli?code=" ++ userCode)),
     ("expiresIn", .number (.int 600)), ("interval", .number (.int 2))]

namespace CliOp

variable (E : CliEnv) (s : CliStore) (chance : CliChance)

/-- What a call does when it takes effect. -/
def effect : CliOp → CliStore
  | pruning _ => s.pruneAuthorizations
  | storing _ deviceCode userCode =>
    (s.storeAuthorization E.cfg.keyHash deviceCode userCode).getD s
  | startAuditing client _ _ =>
    { s with control := s.control.audit false (cliStartAudit client) }
  | approving actor code removals =>
    ((s.approveCliAuthorization E.cfg.keyHash (trimmed code) actor.user.id actor.org.id
      removals).map Prod.fst).getD s
  | approveAuditing actor =>
    { s with
      control := s.control.audit false
        (userAudit actor.user.id "cli.login.approve" actor.org.id []) }
  | consuming code =>
    ((s.consumeCliAuthorization E.cfg.keyHash (trimmed code) (newApiKey chance.hex)
      (apiKeyPrefix (newApiKey chance.hex))).map Prod.fst).getD s
  | _ => s

/-- The gate of an approval. -/
def gate : GateChance where
  now := s.now
  sessionFails := chance.result ≠ .answered
  resolved := fun _ => .error .internal

/-- Where a request goes from a call that was answered, or not. -/
def next (answered : Bool) : CliOp → CliOp
  | pruning client =>
    if answered then .storing client chance.deviceCode (userCodeOf chance.raw)
    else .replied (err 500 "could not start CLI login")
  | storing client deviceCode userCode =>
    if answered && (s.storeAuthorization E.cfg.keyHash deviceCode userCode).isSome then
      .startAuditing client deviceCode userCode
    else .replied (err 500 "could not start CLI login")
  | startAuditing _ deviceCode userCode => .replied (deviceReply E deviceCode userCode)
  | arriving cookie code =>
    match userAndOrg E.cfg (gate s chance) s.control (cookieCredentials cookie) with
    | .error refusal => .replied refusal.reply
    | .ok (user, org) => .approving ⟨user, org⟩ code (s.removals org.id user.id)
  | approving actor code removals =>
    match if answered then
        s.approveCliAuthorization E.cfg.keyHash (trimmed code) actor.user.id actor.org.id removals
      else none with
    | some (_, true) => .approveAuditing actor
    | some (_, false) => .replied (err 404 "code is invalid or expired")
    | none => .replied (err 500 "could not approve CLI login")
  | approveAuditing actor =>
    .replied (okReply [("approved", .bool true), ("organization", .string actor.org.name)])
  | polling code =>
    if answered then
      match s.cliAuthorizationState E.cfg.keyHash (trimmed code) with
      | some (false, false) => .replied ⟨202, .object [("status", .string "pending")]⟩
      | some (true, false) => .consuming code
      | some (_, true) | none => .replied (err 410 "authorization is expired or already used")
    else .replied (err 500 "could not finish CLI login")
  | consuming code =>
    match if answered then
        s.consumeCliAuthorization E.cfg.keyHash (trimmed code) (newApiKey chance.hex)
          (apiKeyPrefix (newApiKey chance.hex))
      else none with
    | some (_, some orgId) => .listing orgId (newApiKey chance.hex)
    | some (_, none) => .replied (err 410 "authorization is expired or already used")
    | none => .replied (err 500 "could not finish CLI login")
  | listing orgId token =>
    .replied (okReply [("token", .string token), ("orgId", intJson orgId),
      ("projects", .array chance.projects)])
  | replied reply => .replied reply

/-- The requests on their arrival. -/
def starts : CliOp → Bool
  | pruning _ | arriving .. | polling _ => true
  | _ => false

end CliOp

/-! ## The processes -/

/-- The next call of a request. -/
def cliNext (E : CliEnv) (s : CliStore) (chance : CliChance) :
    CliOp → Option (CliStore × Option CliOp)
  | .replied _ => none
  | op =>
    some (if chance.result = .failed then s else op.effect E s chance,
      some (op.next E s chance (chance.result = .answered)))

/-- What happens beside the requests. -/
inductive CliWrite where
  | tick (now : Micros)
  /-- A member joins, or is given another role. -/
  | join (orgId userId : Int64) (role : String)
  | remove (orgId userId : Int64)
  | offboard (orgId : Int64)
deriving DecidableEq, Repr

def CliWrite.write (s : CliStore) : CliWrite → Option CliStore
  | tick now => if s.now ≤ now then some { s with now := now } else none
  | join orgId userId role =>
    (s.control.addMember orgId userId role).map fun control => { s with control := control }
  | remove orgId userId => some (s.removeMember orgId userId)
  | offboard orgId => some (s.deleteOrg orgId)

/-- The logins of the command line. -/
def cliLogins (E : CliEnv) : Program CliStore CliOp CliChance CliWrite where
  starts _ op := op.starts
  next s _ := cliNext E s
  write s _ := CliWrite.write s

abbrev CliLogins := Pool CliStore CliOp

abbrev CliEvent := PoolEvent CliOp CliChance CliWrite

/-- The next call of a request, taken apart. -/
theorem cliNext_eq_some {E : CliEnv} {s s' : CliStore} {chance : CliChance} {op : CliOp}
    {after : Option CliOp} (h : cliNext E s chance op = some (s', after)) :
    s' = (if chance.result = .failed then s else op.effect E s chance) ∧
      after = some (op.next E s chance (chance.result = .answered)) := by
  cases op with
  | replied reply => cases h
  | _ =>
    cases h
    exact ⟨rfl, rfl⟩

end ReproitCloud
