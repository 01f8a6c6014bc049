import ReproitCloud.Http.Gates
import ReproitCloud.Lib.Processes
import ReproitCloud.Members.Handlers

/-!
# Signing up and in

Three requests lead to an account.  `signup` creates the user, `verify_email` consumes the
token of the mailed link, and `login` checks the password.  A hosted server gives the user a
personal organization when the email is verified, or at a login that finds none.  A server
that hosts itself gives it at the signup, and its logins do not look.

`IdentityOp` says at which call a request is.  The organization is created in one call and
gets its owner in another, and whether the second one has succeeded is not looked at.
-/

namespace ReproitCloud

open Lib

/-! ## The tables -/

/-- The columns of `users` that a login reads, keyed by the user's id. -/
structure CredentialRow where
  passHash : String
  /-- `email_verified_at IS NOT NULL`. -/
  verified : Bool := false
deriving DecidableEq, Repr

/-- A row of `email_tokens`, keyed by the hash of the token. -/
structure EmailTokenRow where
  userId : Int64
  purpose : String
  expiresAt : Micros
deriving DecidableEq, Repr

structure IdentityStore where
  members : MembersStore := {}
  credentials : Table Int64 CredentialRow := .empty
  emailTokens : Table String EmailTokenRow := .empty
  /-- No table: the personal organizations that were created, with the user for whom. -/
  personal : List (Int64 × Int64) := []

namespace ControlStore

variable (c : ControlStore)

/-- `create_org`.  The id is the one that the sequence gives. -/
def createOrg (id : Int64) (name : String) (personal : Bool) : Option ControlStore :=
  (c.orgs.insert? id { name := name, personal := personal }).map fun orgs => { c with orgs := orgs }

/-- `primary_org`: the personal organization first, then by id. -/
def primaryOrg (userId : Int64) : Option Org :=
  (((c.orgsOfUser userId).insertionSort (orgBefore none)).head?).map fun o =>
    ⟨o.1, o.2.1.name, o.2.1.plan, o.2.2.role⟩

/-- `create_session`. -/
def createSession (now : Micros) (hash : String) (userId : Int64) (ttl : Micros) :
    Option ControlStore :=
  if c.users.has userId then
    (c.sessions.insert? hash
      { userId := userId, activeOrgId := (c.primaryOrg userId).map Org.id,
        expiresAt := some (now + ttl) }).map fun sessions => { c with sessions := sessions }
  else none

end ControlStore

namespace IdentityStore

variable (s : IdentityStore)

abbrev control : ControlStore := s.members.control

def setControl (c : ControlStore) : IdentityStore :=
  { s with members := { s.members with control := c } }

/-- `create_user`, with the id that the sequence gives.  An email has one user. -/
def createUser (id : Int64) (email passHash : String) : Option IdentityStore :=
  if s.control.findUserIdByEmail email = none then
    (s.control.users.insert? id ⟨email⟩).map fun users =>
      { s.setControl { s.control with users := users } with
        credentials := s.credentials.upsert id ⟨passHash, false⟩ fun _ => ⟨passHash, false⟩ }
  else none

/-- `user_auth_by_email`. -/
def userAuthByEmail (email : String) : Option (Int64 × String) :=
  (s.control.findUserIdByEmail email).bind fun id =>
    (s.credentials.get? id).map fun row => (id, row.passHash)

/-- `mark_email_verified`. -/
def markEmailVerified (userId : Int64) : IdentityStore :=
  { s with
    credentials := s.credentials.update (fun k _ => k = userId) fun _ row =>
      { row with verified := true } }

/-- `email_verified`. -/
def emailVerified (userId : Int64) : Bool := (s.credentials.get? userId).any CredentialRow.verified

/-- `create_email_token`. -/
def createEmailToken (hash : String) (userId : Int64) (purpose : String) (ttl : Micros) :
    Option IdentityStore :=
  if s.control.users.has userId then
    (s.emailTokens.insert? hash ⟨userId, purpose, s.members.now + ttl⟩).map fun emailTokens =>
      { s with emailTokens := emailTokens }
  else none

/-- The token that `consume_email_token` deletes. -/
def emailToken (hash purpose : String) : Option EmailTokenRow :=
  (s.emailTokens.get? hash).filter fun row => row.purpose = purpose && s.members.now < row.expiresAt

/-- `consume_email_token`, with the user. -/
def consumeEmailToken (hash purpose : String) : IdentityStore × Option Int64 :=
  match s.emailToken hash purpose with
  | some row => ({ s with emailTokens := s.emailTokens.delete fun k _ => k = hash }, some row.userId)
  | none => (s, none)

end IdentityStore

/-! ## Requests -/

/-- `Creds`. -/
structure Creds where
  email : String
  password : String
  plan : Option String := none
  invite : Option String := none
  orgId : Option Int64 := none
deriving DecidableEq, Repr

/-- `TokenQuery`. -/
structure TokenQuery where
  token : String
  plan : Option String := none
  invite : Option String := none
deriving DecidableEq, Repr

/-- What a server is given. -/
structure IdentityEnv where
  cfg : ServerConfig
  /-- `str::to_lowercase`, by the tables of Unicode. -/
  toLowercase : String → String
  /-- `verify_password`. -/
  verifyPassword : String → String → Bool
  /-- `login_denied` and `valid_checkout_plan` of the policy. -/
  loginDenied : String → Option String := fun _ => none
  validCheckoutPlan : Option String → Option String := fun _ => none

/-- What the environment decides of a call. -/
structure IdentityChance where
  result : CallResult := .answered
  /-- `hash_password`, with its salt. -/
  hash : Option String := some ""
  /-- `new_session_token`. -/
  token : String := ""
  /-- The next ids of the users and of the organizations. -/
  userId : Int64 := 0
  orgId : Int64 := 0

/-- A reply, with the session it starts. -/
inductive IdentityReply where
  | json (reply : Reply) (session : Option String)
  | redirect (location : String) (session : Option String)

/-- The request that a step shared by several belongs to. -/
inductive IdentityFlow where
  | signup (c : Creds)
  | verify (q : TokenQuery)
  | login (c : Creds)
deriving DecidableEq, Repr

/-- Where a request is. -/
inductive IdentityOp where
  /-- `create_user`, with `audit` after it. -/
  | signingUp (c : Creds)
  | signedUp (c : Creds) (userId : Int64)
  /-- `org_invitation_by_token` of a signup. -/
  | joinReading (c : Creds) (userId : Int64)
  /-- `consume_email_token`, `mark_email_verified`, `user_by_id` and
  `org_invitation_by_token`. -/
  | consuming (q : TokenQuery)
  | marking (flow : IdentityFlow) (userId : Int64)
  | emailReading (q : TokenQuery) (userId : Int64)
  | inviteReading (q : TokenQuery) (userId : Int64) (email : String)
  /-- `user_auth_by_email` and `email_verified`. -/
  | authReading (c : Creds)
  | verifiedReading (c : Creds) (userId : Int64)
  /-- `create_email_token` and the mail of `send_verification`, with the reply after them. -/
  | tokenCreating (userId : Int64) (reply : IdentityReply)
  | mailing (reply : IdentityReply)
  /-- `primary_org`. -/
  | primaryReading (flow : IdentityFlow) (userId : Int64)
  /-- `create_org`, `add_member` and `provision`, of `provision_personal_org`. -/
  | orgCreating (flow : IdentityFlow) (userId : Int64)
  | ownerAdding (flow : IdentityFlow) (userId orgId : Int64)
  | provisioning (flow : IdentityFlow) (userId orgId : Int64)
  /-- `audit`, whose failure is only logged. -/
  | auditing (flow : IdentityFlow) (userId : Int64) (validInvite : Bool)
  | failureAuditing (userId : Int64)
  /-- `create_session`, `set_session_org` and `primary_org` for the plan. -/
  | sessionCreating (flow : IdentityFlow) (userId : Int64) (validInvite : Bool)
  | orgSetting (flow : IdentityFlow) (userId orgId : Int64) (session : String)
  | planReading (flow : IdentityFlow) (userId : Int64) (session : String)
  | replied (reply : IdentityReply)

/-! ## Texts -/

/-- A user's audit row without an organization. -/
def signinAudit (userId : Int64) (action : String) : AuditRow where
  actor := "user:" ++ toString userId
  action := action
  orgId := none
  detail := .object []

def identityErr (status : Nat) (msg : String) : IdentityOp := .replied (.json (err status msg) none)

/-- The email of a request, as it is stored. -/
def IdentityEnv.emailOf (E : IdentityEnv) (c : Creds) : String :=
  E.toLowercase (String.ofList (trim c.email.toList))

/-- The checks of a signup. -/
def IdentityEnv.signupRefusal (E : IdentityEnv) (c : Creds) : Option IdentityOp :=
  if !(E.emailOf c).toList.contains '@' || byteLength (E.emailOf c) > 254 then
    some (identityErr 400 "enter a valid email")
  else if byteLength c.password < 8 || (trim c.password.toList).isEmpty then
    some (identityErr 400 "password must be at least 8 characters")
  else none

/-- `VERIFY_TTL_SECS` and `SESSION_TTL_SECS`. -/
def verifyTtl : Micros := 48 * microsPerHour

def sessionTtl : Micros := 30 * 24 * microsPerHour

/-- The page that a verified user lands on. -/
def verifiedPage (E : IdentityEnv) (q : TokenQuery) (validInvite : Bool) : String :=
  match validInvite, q.invite, E.validCheckoutPlan q.plan with
  | true, some invite, _ => "/invite?token=" ++ invite
  | _, _, some plan => "/app?plan=" ++ plan ++ "#account"
  | _, _, none => "/app"

/-- The reply that starts a session. -/
def signedIn (E : IdentityEnv) (status : Nat) (c : Creds) (plan session : String) : IdentityReply :=
  .json ⟨status, .object [("email", .string (E.emailOf c)), ("plan", .string plan)]⟩ (some session)

/-! ## The calls -/

/-- What a call does when it takes effect. -/
def IdentityOp.effect (E : IdentityEnv) (s : IdentityStore) (chance : IdentityChance) :
    IdentityOp → IdentityStore
  | signingUp c =>
    match E.signupRefusal c, chance.hash with
    | none, some hash => (s.createUser chance.userId (E.emailOf c) hash).getD s
    | _, _ => s
  | signedUp _ userId => s.setControl (s.control.audit false (signinAudit userId "auth.signup"))
  | consuming q => (s.consumeEmailToken (E.cfg.keyHash q.token) "verify").1
  | marking _ userId => s.markEmailVerified userId
  | tokenCreating userId _ =>
    (s.createEmailToken (E.cfg.keyHash chance.token) userId "verify" verifyTtl).getD s
  | orgCreating _ userId =>
    match s.control.createOrg chance.orgId "Personal" true with
    | some c => { s.setControl c with personal := s.personal ++ [(userId, chance.orgId)] }
    | none => s
  | ownerAdding _ userId orgId => s.setControl ((s.control.addMember orgId userId "owner").getD s.control)
  | auditing flow userId _ =>
    match flow with
    | .login _ => s.setControl (s.control.audit false (signinAudit userId "auth.login"))
    | _ => s.setControl (s.control.audit false (signinAudit userId "auth.verify"))
  | failureAuditing userId =>
    s.setControl (s.control.audit false (signinAudit userId "auth.login_failed"))
  | sessionCreating _ userId _ =>
    s.setControl ((s.control.createSession s.members.now (E.cfg.keyHash chance.token) userId
      sessionTtl).getD s.control)
  | orgSetting _ userId orgId session =>
    s.setControl (s.control.setSessionOrg s.members.now (E.cfg.keyHash session) userId orgId).1
  | _ => s

/-- Where a request goes with its personal organization looked after. -/
def afterProvision (flow : IdentityFlow) (userId : Int64) : IdentityOp :=
  match flow with
  | .signup _ => .marking flow userId
  | .verify _ => .auditing flow userId false
  | .login _ => .sessionCreating flow userId false

/-- The last calls of a request that has started a session. -/
def afterSession (E : IdentityEnv) (flow : IdentityFlow) (userId : Int64) (validInvite : Bool)
    (session : String) : IdentityOp :=
  match flow with
  | .verify q => .replied (.redirect (verifiedPage E q validInvite) (some session))
  | .signup c =>
    match c.orgId with
    | some orgId => .orgSetting flow userId orgId session
    | none => .replied (signedIn E 201 c "free" session)
  | .login c =>
    match c.orgId with
    | some orgId => .orgSetting flow userId orgId session
    | none => .planReading flow userId session

/-- Where a request goes from a call that was answered, or not. -/
def IdentityOp.next (E : IdentityEnv) (s : IdentityStore) (chance : IdentityChance)
    (answered : Bool) : IdentityOp → IdentityOp
  | signingUp c =>
    match E.signupRefusal c with
    | some refusal => refusal
    | none =>
      match chance.hash with
      | none => identityErr 500 "could not hash password"
      | some hash =>
        if answered && (s.createUser chance.userId (E.emailOf c) hash).isSome then
          .signedUp c chance.userId
        else identityErr 409 "that email is already registered"
  | signedUp c userId =>
    if !E.cfg.selfHosted then
      .tokenCreating userId (.json ⟨201, .object
        [("email", .string (E.emailOf c)), ("verifyEmail", .bool true)]⟩ none)
    else if c.invite.isSome then .joinReading c userId
    else .orgCreating (.signup c) userId
  | joinReading c userId =>
    let found := if answered then
      c.invite.bind fun invite => s.members.orgInvitationByToken (E.cfg.keyHash invite) else none
    if found.any fun i => i.email = E.emailOf c then .marking (.signup c) userId
    else .orgCreating (.signup c) userId
  | consuming q =>
    match if answered then (s.consumeEmailToken (E.cfg.keyHash q.token) "verify").2 else none with
    | some userId => .marking (.verify q) userId
    | none => .replied (.redirect "/login?verify=failed" none)
  | marking flow userId =>
    match flow with
    | .verify q => .emailReading q userId
    | _ => .sessionCreating flow userId false
  | emailReading q userId =>
    match q.invite, if answered then s.control.users.get? userId else none with
    | some _, some row => .inviteReading q userId row.email
    | _, _ => .primaryReading (.verify q) userId
  | inviteReading q userId email =>
    let found := if answered then
      q.invite.bind fun invite => s.members.orgInvitationByToken (E.cfg.keyHash invite) else none
    if found.any fun i => i.email = email then .auditing (.verify q) userId true
    else .primaryReading (.verify q) userId
  | authReading c =>
    match E.loginDenied (E.emailOf c) with
    | some message => identityErr 403 message
    | none =>
      match if answered then s.userAuthByEmail (E.emailOf c) else none with
      | none => identityErr 401 "wrong email or password"
      | some (userId, hash) =>
        if !E.verifyPassword c.password hash then .failureAuditing userId
        else if !E.cfg.selfHosted then .verifiedReading c userId
        else .auditing (.login c) userId false
  | verifiedReading c userId =>
    if answered && s.emailVerified userId then .auditing (.login c) userId false
    else
      .tokenCreating userId (.json (err 403 "verify your email first; we just sent you a fresh link")
        none)
  | tokenCreating userId reply =>
    if answered &&
        (s.createEmailToken (E.cfg.keyHash chance.token) userId "verify" verifyTtl).isSome then
      .mailing reply
    else .replied reply
  | mailing reply => .replied reply
  | primaryReading flow userId =>
    if (if answered then s.control.primaryOrg userId else none) = none then .orgCreating flow userId
    else afterProvision flow userId
  | orgCreating flow userId =>
    if answered && (s.control.createOrg chance.orgId "Personal" true).isSome then
      .ownerAdding flow userId chance.orgId
    else identityErr 500 "could not create org"
  | ownerAdding flow userId orgId => .provisioning flow userId orgId
  | provisioning flow userId _ =>
    if answered then afterProvision flow userId
    else identityErr 500 "could not provision your workspace (retry shortly)"
  | auditing flow userId validInvite =>
    match flow with
    | .login _ =>
      if !E.cfg.selfHosted then .primaryReading flow userId
      else .sessionCreating flow userId false
    | _ => .sessionCreating flow userId validInvite
  | failureAuditing _ => identityErr 401 "wrong email or password"
  | sessionCreating flow userId validInvite =>
    if answered && (s.control.createSession s.members.now (E.cfg.keyHash chance.token) userId
        sessionTtl).isSome then
      afterSession E flow userId validInvite chance.token
    else
      match flow with
      | .verify _ => .replied (.redirect "/login" none)
      | _ => identityErr 500 "could not start session"
  | orgSetting flow userId _ session =>
    match flow with
    | .login _ => .planReading flow userId session
    | .signup c => .replied (signedIn E 201 c "free" session)
    | .verify q => .replied (.redirect (verifiedPage E q false) (some session))
  | planReading flow userId session =>
    let plan := ((if answered then s.control.primaryOrg userId else none).map
      ControlStore.Org.plan).getD "free"
    match flow with
    | .login c | .signup c => .replied (signedIn E 200 c plan session)
    | .verify q => .replied (.redirect (verifiedPage E q false) (some session))
  | replied reply => .replied reply

/-! ## The processes -/

/-- The next call of a request. -/
def identityNext (E : IdentityEnv) (s : IdentityStore) (chance : IdentityChance) (op : IdentityOp) :
    Option (IdentityStore × Option IdentityOp) :=
  match op with
  | .replied _ => none
  | op =>
    some (if chance.result = .failed then s else op.effect E s chance,
      some (op.next E s chance (chance.result = .answered)))

/-- The requests on their arrival. -/
def IdentityOp.starts : IdentityOp → Bool
  | signingUp _ | consuming _ | authReading _ => true
  | _ => false

/-- Time passes. -/
def tickIdentity (s : IdentityStore) (now : Micros) : Option IdentityStore :=
  if s.members.now ≤ now then some { s with members := { s.members with now := now } } else none

/-- The accounts of a server. -/
def identity (E : IdentityEnv) : Program IdentityStore IdentityOp IdentityChance Micros where
  starts _ op := op.starts
  next s _ := identityNext E s
  write s _ now := tickIdentity s now

abbrev Identities := Pool IdentityStore IdentityOp

abbrev IdentityEvent := PoolEvent IdentityOp IdentityChance Micros

/-- The next call of a request, taken apart. -/
theorem identityNext_eq_some {E : IdentityEnv} {s s' : IdentityStore} {chance : IdentityChance}
    {op : IdentityOp} {next : Option IdentityOp} (h : identityNext E s chance op = some (s', next)) :
    s' = (if chance.result = .failed then s else op.effect E s chance) ∧
      next = some (op.next E s chance (chance.result = .answered)) := by
  cases op with
  | replied reply => cases h
  | _ =>
    cases h
    exact ⟨rfl, rfl⟩

end ReproitCloud
