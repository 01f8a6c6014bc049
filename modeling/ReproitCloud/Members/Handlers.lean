import ReproitCloud.Http.Gates
import ReproitCloud.Lib.Processes
import ReproitCloud.Members.Store

/-!
# The membership routes

`MemberOp` says at which call a request is, with what it has read.  The first call is the
gate, which reads the role of whoever asks.  The role is not read again: what a request may
do is decided by it, also when it has changed since.

The handlers look before they write.  `set_member_role` reads the role of the member and,
to take it from an owner, the number of owners.  `remove_member` reads the role, `set_seat`
the seats.  `add_member` and the acceptance of an invitation look at neither.  Only the
invitation of a member holds a lock between its count and its insert, on the row of the
organization.

A request ends in `replied`, with its reply.
-/

namespace ReproitCloud

open Lib

/-! ## Requests -/

/-- The requests, with their bodies. -/
inductive MemberRequest where
  | addMember (email : String) (role : Option String)
  | setMemberRole (userId : Int64) (role : String)
  | removeMember (userId : Int64)
  | setSeat (userId : Int64) (seat : Bool)
  | inviteMember (email : String) (role : Option String)
  | resendInvitation (invitationId : Int64)
  | revokeInvitation (invitationId : Int64)
  | acceptInvitation (token : String)
  | me
deriving DecidableEq, Repr

/-- What a server is given. -/
structure MembersEnv where
  cfg : ServerConfig
  /-- `seat_limit` of the policy. -/
  seatLimit : Int64 → Option Int := fun _ => none
  /-- `account_card` of the policy, and the projects of the tenant. -/
  accountCard : Int64 → List (String × Json) := fun _ => []
  projects : Int64 → List Json := fun _ => []
  /-- `str::to_lowercase`, by the tables of Unicode, and the `lower` of the database. -/
  toLowercase : String → String
  lower : String → String
  /-- `DateTime::to_rfc3339`, as text. -/
  rfc3339 : Micros → String

/-- What the environment decides of a call. -/
structure MemberChance where
  result : CallResult := .answered
  /-- `new_session_token`. -/
  token : String := ""
  /-- The next id of the invitations. -/
  invitationId : Int64 := 0

/-- Who is asking, as the gate has read it. -/
structure Actor where
  user : ControlStore.User
  org : ControlStore.Org
deriving DecidableEq, Repr

/-- Where a request is. -/
inductive MemberOp where
  /-- `user_and_org`, or `current_user` of an acceptance. -/
  | arriving (cookie : Header) (request : MemberRequest)
  /-- `find_user_id_by_email` and `add_member`. -/
  | addFinding (actor : Actor) (email role : String)
  | addWriting (actor : Actor) (email role : String) (target : Int64)
  /-- `org_role`, `count_owners` and the write of `set_member_role`, with what was read. -/
  | roleReading (actor : Actor) (target : Int64) (role : String)
  | roleCounting (actor : Actor) (target : Int64) (role : String) (current : Option String)
  | roleWriting (actor : Actor) (target : Int64) (role : String) (current : Option String)
    (owners : Option Int)
  /-- `org_role` and `remove_member`. -/
  | removeReading (actor : Actor) (target : Int64)
  | removeWriting (actor : Actor) (target : Int64) (current : Option String)
  /-- `org_role`, `count_seats`, `has_seat` and `set_seat`. -/
  | seatReading (actor : Actor) (target : Int64) (seat : Bool)
  | seatCounting (actor : Actor) (target : Int64) (limit : Int)
  | seatChecking (actor : Actor) (target : Int64) (limit used : Int)
  | seatWriting (actor : Actor) (target : Int64) (seat already : Bool) (used : Int)
  /-- `find_user_id_by_email` and `org_role`. -/
  | inviteFinding (actor : Actor) (email role : String)
  | inviteReading (actor : Actor) (email role : String) (target : Int64)
  /-- `upsert_org_invitation`, from the lock to the count and from there to the commit. -/
  | inviteCounting (actor : Actor) (email role token : String)
  | inviteInserting (actor : Actor) (email role token : String) (used : Int)
  /-- `org_invitation_by_token`. -/
  | inviteLooking (actor : Actor) (email role token : String) (id : Int64)
  /-- `refresh_org_invitation`. -/
  | resending (actor : Actor) (id : Int64) (token : String)
  /-- `deliver_invitation`, with what comes after it. -/
  | mailing (row : AuditRow) (reply : Reply) (failed : String)
  /-- `revoke_org_invitation`. -/
  | revoking (actor : Actor) (id : Int64)
  /-- `accept_org_invitation` and `set_session_org`. -/
  | accepting (user : ControlStore.User) (session token : String)
  | opening (user : ControlStore.User) (session : String) (orgId : Int64)
  /-- `list_api_keys`, `list_org_users`, `list_user_orgs` and `list_org_invitations`. -/
  | listingKeys (actor : Actor)
  | listingMembers (actor : Actor) (keys : List String)
  | listingOrgs (actor : Actor) (keys : List String) (members : List Member)
  | listingInvitations (actor : Actor) (keys : List String) (members : List Member)
    (orgs : List ControlStore.OrgSummary)
  /-- `audit`, which is not waited for an answer of. -/
  | auditing (row : AuditRow) (reply : Reply)
  | replied (reply : Reply)

/-! ## Texts -/

/-- The number of bytes of a text. -/
def byteLength (text : String) : Nat := (text.toList.map Char.utf8Size).sum

def intJson (n : Int64) : Json := .number (.int n.toInt)

/-- A reply with an object. -/
def okReply (members : List (String × Json)) : Reply := ⟨200, .object members⟩

/-- The refusals of a handler end the request. -/
def replyErr (status : Nat) (msg : String) : MemberOp := .replied (err status msg)

/-- `invite_role`, and the roles of `add_member`. -/
def inviteRole (role : Option String) : String := if role = some "admin" then "admin" else "member"

/-- The roles that `set_member_role` knows. -/
def parseRole (role : String) : Option String :=
  if role = "none" ∨ role = "no_access" ∨ role = "no-access" then some "none"
  else if role = "owner" ∨ role = "admin" ∨ role = "member" then some role
  else none

/-- `INVITE_TTL_SECS`. -/
def inviteTtl : Micros := 7 * 24 * microsPerHour

/-- An audit row of a user in an organization. -/
def userAudit (userId : Int64) (action : String) (orgId : Int64) (detail : List (String × Json)) :
    AuditRow where
  actor := "user:" ++ toString userId
  action := action
  orgId := some orgId
  detail := .object detail

/-- An invitation in a reply. -/
def invitationJson (E : MembersEnv) (i : OrgInvitation) : List (String × Json) :=
  [("id", intJson i.id), ("email", .string i.email), ("role", .string i.role), ("seat", .bool i.seat),
    ("expiresAt", .string (E.rfc3339 i.expiresAt))]

/-- The reply of `me`. -/
def meReply (E : MembersEnv) (actor : Actor) (keys : List String) (members : List Member)
    (orgs : List ControlStore.OrgSummary) (invitations : List OrgInvitation) : Reply :=
  okReply
    [("email", .string actor.user.email),
     ("organizations", .array (orgs.map fun o => .object
       [("id", intJson o.id), ("name", .string o.name), ("plan", .string o.plan),
        ("role", .string o.role), ("personal", .bool o.personal),
        ("active", .bool (o.id = actor.org.id))])),
     ("org", .object
       ([("id", intJson actor.org.id), ("name", .string actor.org.name),
        ("role", .string actor.org.role), ("selfHosted", .bool E.cfg.selfHosted)] ++
          E.accountCard actor.org.id)),
     ("projects", .array (E.projects actor.org.id)),
     ("apiKeys", .array (keys.map .string)),
     ("members", .array (members.map fun m => .object
       [("userId", intJson m.userId), ("email", .string m.email), ("role", .string m.role),
        ("seat", .bool m.seat)])),
     ("invitations", .array (invitations.map fun i => .object (invitationJson E i)))]

/-! ## The gate -/

/-- The chance of a gate, from that of a call. -/
def MemberChance.gate (chance : MemberChance) (s : MembersStore) : GateChance where
  now := s.now
  sessionFails := chance.result ≠ .answered
  resolved := fun _ => .error .internal

def cookieCredentials (cookie : Header) : Credentials := { method := "", path := "", cookie := cookie }

/-- What a handler does once it knows who is asking. -/
def MemberRequest.enter (E : MembersEnv) (chance : MemberChance) (actor : Actor) :
    MemberRequest → MemberOp
  | addMember email role =>
    if !canManage actor.org.role then replyErr 403 "only owners/admins can add members"
    else
      .addFinding actor (E.toLowercase (String.ofList (trim email.toList))) (inviteRole role)
  | setMemberRole userId role =>
    if !canManage actor.org.role then replyErr 403 "only owners/admins can manage roles"
    else
      match parseRole role with
      | none => replyErr 400 "role must be none, owner, admin, or member"
      | some parsed =>
        if parsed = "owner" ∧ actor.org.role ≠ "owner" then
          replyErr 403 "only owners can grant owner"
        else .roleReading actor userId parsed
  | removeMember userId =>
    if !canManage actor.org.role then replyErr 403 "only owners/admins can remove members"
    else .removeReading actor userId
  | setSeat userId seat =>
    if !canManage actor.org.role then replyErr 403 "only owners/admins can assign seats"
    else .seatReading actor userId seat
  | inviteMember email role =>
    if !canManage actor.org.role then replyErr 403 "only owners/admins can invite members"
    else
      let email := E.toLowercase (String.ofList (trim email.toList))
      if !email.toList.contains '@' || byteLength email > 254 then
        replyErr 400 "enter a valid email"
      else .inviteFinding actor email (inviteRole role)
  | resendInvitation invitationId =>
    if !canManage actor.org.role then replyErr 403 "only owners/admins can resend invitations"
    else .resending actor invitationId chance.token
  | revokeInvitation invitationId =>
    if !canManage actor.org.role then replyErr 403 "only owners/admins can revoke invitations"
    else .revoking actor invitationId
  | me => .listingKeys actor
  -- an acceptance has its own gate
  | acceptInvitation _ => replyErr 401 "sign in to accept this invitation"

/-- The gate of a request. -/
def MemberRequest.arrive (E : MembersEnv) (s : MembersStore) (chance : MemberChance)
    (cookie : Header) (request : MemberRequest) : MemberOp :=
  let req := cookieCredentials cookie
  match request with
  | acceptInvitation token =>
    match currentUser E.cfg (chance.gate s) s.control req,
        cookieValue sessionCookieName cookie with
    | some user, some session => .accepting user session token
    | _, _ => replyErr 401 "sign in to accept this invitation"
  | request =>
    match userAndOrg E.cfg (chance.gate s) s.control req with
    | .error refusal => .replied refusal.reply
    | .ok (user, org) => request.enter E chance ⟨user, org⟩

/-! ## The calls -/

/-- The invitation that a request writes. -/
def newInvitation (E : MembersEnv) (s : MembersStore) (actor : Actor) (email role token : String) :
    InvitationRow where
  tokenHash := E.cfg.keyHash token
  orgId := actor.org.id
  email := email
  role := role
  seat := true
  invitedBy := some actor.user.id
  expiresAt := s.now + inviteTtl
  byOwner := actor.org.role = "owner"

/-- `refresh_org_invitation` of a request. -/
def resend (E : MembersEnv) (s : MembersStore) (actor : Actor) (id : Int64) (token : String) :
    Option (MembersStore × Option OrgInvitation) :=
  s.refreshOrgInvitation actor.org.id id (E.cfg.keyHash token) (s.now + inviteTtl)
    (actor.org.role = "owner")

/-- The write of `set_member_role`, with whether it did what it was to do. -/
def writeRole (c : ControlStore) (orgId target : Int64) (role : String) (current : Option String) :
    ControlStore × Bool :=
  if role = "none" then (c.removeMember orgId target, true)
  else if current = none then
    match c.addMember orgId target role with
    | some c' => (c', true)
    | none => (c, false)
  else c.setMemberRole orgId target role

/-- What a call does when it takes effect. -/
def MemberOp.effect (E : MembersEnv) (s : MembersStore) (chance : MemberChance) :
    MemberOp → MembersStore
  | addWriting actor _ role target =>
    { s with control := (s.control.addMember actor.org.id target role).getD s.control }
  | roleWriting actor target role current _ =>
    { s with control := (writeRole s.control actor.org.id target role current).1 }
  | removeWriting actor target _ =>
    { s with control := s.control.removeMember actor.org.id target }
  | seatWriting actor target seat _ _ =>
    { s with control := (s.control.setSeat actor.org.id target seat).1 }
  | inviteInserting actor email role token _ =>
    ((s.insertInvitation chance.invitationId (newInvitation E s actor email role token)).map
      Prod.fst).getD s
  | resending actor id token => ((resend E s actor id token).map Prod.fst).getD s
  | revoking actor id => (s.revokeOrgInvitation actor.org.id id).1
  | accepting user _ token =>
    ((s.acceptOrgInvitation (E.cfg.keyHash token) user.id user.email).map Prod.fst).getD s
  | opening user session orgId =>
    { s with control := (s.control.setSessionOrg s.now (E.cfg.keyHash session) user.id orgId).1 }
  | auditing row _ => { s with control := s.control.audit false row }
  | _ => s

/-- The reply to a role that was set. -/
def roleReply (target : Int64) (role : String) : MemberOp :=
  .replied (okReply [("userId", intJson target), ("role", .string role)])

/-- `set_member_role` with the role of the member read. -/
def afterRoleRead (actor : Actor) (target : Int64) (role : String) (current : Option String) :
    MemberOp :=
  if current = none ∧ role = "none" then roleReply target role
  else if current = some "owner" ∧ actor.org.role ≠ "owner" then
    replyErr 403 "only owners can change owner roles"
  else if current = some "owner" ∧ role ≠ "owner" then .roleCounting actor target role current
  else .roleWriting actor target role current none

/-- Where a request goes from a call that was answered, or not. -/
def MemberOp.next (E : MembersEnv) (s : MembersStore) (chance : MemberChance) (answered : Bool) :
    MemberOp → MemberOp
  | arriving cookie request => request.arrive E s chance cookie
  | addFinding actor email role =>
    match if answered then s.control.findUserIdByEmail email else none with
    | some target => .addWriting actor email role target
    | none => replyErr 404 "no Repro It account with that email (they must sign up first)"
  | addWriting actor email role target =>
    if answered && (s.control.addMember actor.org.id target role).isSome then
      .replied (okReply [("email", .string email), ("role", .string role)])
    else replyErr 500 "could not add member"
  | roleReading actor target role =>
    afterRoleRead actor target role
      (if answered then s.control.orgRole actor.org.id target else none)
  | roleCounting actor target role current =>
    let owners := if answered then s.control.countOwners actor.org.id else 1
    if owners ≤ 1 then replyErr 400 "cannot demote the last owner"
    else .roleWriting actor target role current (some owners)
  | roleWriting actor target role current _ =>
    if answered && (writeRole s.control actor.org.id target role current).2 then
      roleReply target role
    else replyErr 500 "could not update role"
  | removeReading actor target =>
    let current := if answered then s.control.orgRole actor.org.id target else none
    if current = some "owner" then replyErr 400 "cannot remove an owner"
    else .removeWriting actor target current
  | removeWriting _ _ _ =>
    if answered then .replied (okReply [("ok", .bool true)])
    else replyErr 500 "could not remove member"
  | seatReading actor target seat =>
    if (if answered then s.control.orgRole actor.org.id target else none) = none then
      replyErr 404 "no such member in this org"
    else
      match seat, E.seatLimit actor.org.id with
      | true, some limit => .seatCounting actor target limit
      | _, _ => .seatWriting actor target seat true 0
  | seatCounting actor target limit =>
    .seatChecking actor target limit (if answered then s.control.countSeats actor.org.id else 0)
  | seatChecking actor target limit used =>
    let already := answered && s.control.hasSeat actor.org.id target
    if !already && used ≥ limit then
      replyErr 402 "hosted seat limit reached for this plan; upgrade to add more seats"
    else .seatWriting actor target true already used
  | seatWriting actor target seat _ _ =>
    if answered && (s.control.setSeat actor.org.id target seat).2 then
      .auditing (userAudit actor.user.id "seat.set" actor.org.id
          [("target", intJson target), ("seat", .bool seat)])
        (okReply [("userId", intJson target), ("seat", .bool seat)])
    else replyErr 500 "could not update seat"
  | inviteFinding actor email role =>
    match if answered then s.control.findUserIdByEmail email else none with
    | some target => .inviteReading actor email role target
    | none => .inviteCounting actor email role chance.token
  | inviteReading actor email role target =>
    if (if answered then s.control.orgRole actor.org.id target else none) = none then
      .inviteCounting actor email role chance.token
    else replyErr 409 "that person is already a member"
  | inviteCounting actor email role token =>
    let used := s.seatsUsedBeside actor.org.id email
    if !answered || !s.control.orgs.has actor.org.id then
      replyErr 500 "could not create invitation"
    else if (E.seatLimit actor.org.id).any fun limit => used ≥ limit then
      replyErr 402 "seat limit reached for this plan; upgrade to invite another member"
    else .inviteInserting actor email role token used
  | inviteInserting actor email role token _ =>
    match if answered then
        s.insertInvitation chance.invitationId (newInvitation E s actor email role token)
      else none with
    | some (_, id) => .inviteLooking actor email role token id
    | none => replyErr 500 "could not create invitation"
  | inviteLooking actor email role token id =>
    match if answered then s.orgInvitationByToken (E.cfg.keyHash token) else none with
    | some i =>
      .mailing (userAudit actor.user.id "member.invite" actor.org.id
          [("invitationId", intJson id), ("email", .string email), ("role", .string role)])
        ⟨201, .object (invitationJson E i)⟩ "invitation saved, but the email could not be sent"
    | none => replyErr 500 "could not create invitation"
  | resending actor id token =>
    if !answered then replyErr 500 "could not refresh invitation"
    else
      match resend E s actor id token with
      | none => replyErr 500 "could not refresh invitation"
      | some (_, none) => replyErr 404 "invitation not found"
      | some (_, some i) =>
        .mailing (userAudit actor.user.id "member.invite_resend" actor.org.id
            [("invitationId", intJson i.id)])
          (okReply [("ok", .bool true), ("expiresAt", .string (E.rfc3339 i.expiresAt))])
          "invitation refreshed, but the email could not be sent"
  | mailing row reply failed => if answered then .auditing row reply else replyErr 502 failed
  | revoking actor id =>
    if !answered then replyErr 500 "could not revoke invitation"
    else if (s.revokeOrgInvitation actor.org.id id).2 then
      .auditing (userAudit actor.user.id "member.invite_revoke" actor.org.id
        [("invitationId", intJson id)]) (okReply [("ok", .bool true)])
    else replyErr 404 "invitation not found"
  | accepting user session token =>
    if !answered then replyErr 500 "could not accept invitation"
    else
      match s.acceptOrgInvitation (E.cfg.keyHash token) user.id user.email with
      | none => replyErr 500 "could not accept invitation"
      | some (_, none) =>
        replyErr 400 "invitation is invalid, expired, or belongs to another email"
      | some (_, some orgId) => .opening user session orgId
  | opening user session orgId =>
    if answered && (s.control.setSessionOrg s.now (E.cfg.keyHash session) user.id orgId).2 then
      .auditing (userAudit user.id "member.invite_accept" orgId [])
        (okReply [("ok", .bool true), ("orgId", intJson orgId)])
    else replyErr 500 "could not open organization"
  | listingKeys actor =>
    .listingMembers actor (if answered then s.control.listApiKeys actor.org.id else [])
  | listingMembers actor keys =>
    .listingOrgs actor keys (if answered then s.listOrgUsers actor.org.id else [])
  | listingOrgs actor keys members =>
    let orgs := if answered then s.control.listUserOrgs E.lower actor.user.id else []
    if canManage actor.org.role then .listingInvitations actor keys members orgs
    else .replied (meReply E actor keys members orgs [])
  | listingInvitations actor keys members orgs =>
    .replied (meReply E actor keys members orgs
      (if answered then s.listOrgInvitations E.lower actor.org.id else []))
  | auditing _ reply => .replied reply
  | replied reply => .replied reply

/-! ## The processes -/

/-- The row of an organization that a request has locked. -/
def MemberOp.locks : MemberOp → Option Int64
  | inviteInserting actor _ _ _ _ => some actor.org.id
  | _ => none

/-- The row of an organization that a request is about to lock. -/
def MemberOp.wants : MemberOp → Option Int64
  | inviteCounting actor _ _ _ => some actor.org.id
  | _ => none

/-- The next call of a request.  It waits for a row that another one has locked. -/
def memberNext (E : MembersEnv) (s : MembersStore) (others : List MemberOp) (chance : MemberChance)
    (op : MemberOp) : Option (MembersStore × Option MemberOp) :=
  match op with
  | .replied _ => none
  | op =>
    if op.wants.any fun org => others.any fun o => o.locks = some org then none
    else
      some (if chance.result = .failed then s else op.effect E s chance,
        some (op.next E s chance (chance.result = .answered)))

/-- The writes of others: time passes, invitations are pruned, people sign up and in, and
a directory provisions them. -/
inductive MemberCommit where
  | tick (now : Micros)
  | prune
  | signUp (userId : Int64) (email : String)
  | signIn (hash : String) (row : SessionRow)
  | provision (externalId : String) (row : DirectoryRow)

def commitMembers (s : MembersStore) : MemberCommit → Option MembersStore
  | .tick now => if s.now ≤ now then some { s with now := now } else none
  | .prune => some s.pruneOrgInvitations
  | .signUp userId email =>
    if s.control.findUserIdByEmail email = none then
      (s.control.users.insert? userId ⟨email⟩).map fun users =>
        { s with control := { s.control with users := users } }
    else none
  | .signIn hash row =>
    some { s with control := { s.control with
      sessions := s.control.sessions.upsert hash row fun _ => row } }
  | .provision externalId row =>
    some { s with directory := s.directory.upsert externalId row fun _ => row }

/-- The membership routes of a server. -/
def membership (E : MembersEnv) : Program MembersStore MemberOp MemberChance MemberCommit where
  starts _ op :=
    match op with
    | .arriving _ _ => true
    | _ => false
  next := memberNext E
  write s _ c := commitMembers s c

abbrev Membership := Pool MembersStore MemberOp

abbrev MemberEvent := PoolEvent MemberOp MemberChance MemberCommit

/-! ## A small organization -/

/-- A server whose texts are all lower case. -/
def plainEnv : MembersEnv where
  cfg := { keyHash := id }
  toLowercase := id
  lower := id
  rfc3339 := fun _ => ""

/-- An organization, and three people who are signed in. -/
def acme (members : Table (Int64 × Int64) MemberRow) : Membership where
  store :=
    { control :=
        { users := ⟨[(1, ⟨"ann@x"⟩), (2, ⟨"bob@x"⟩), (3, ⟨"cid@x"⟩)], by decide⟩
          orgs := ⟨[(1, { name := "Acme" })], by decide⟩
          members := members
          sessions := ⟨[("a", { userId := 1 }), ("b", { userId := 2 }), ("c", { userId := 3 })],
            by decide⟩ } }

/-- A request on its own, through so many answered calls. -/
def alone (cookie : String) (request : MemberRequest) (calls : Nat) : List MemberEvent :=
  .start (.arriving (.text cookie) request) ::
    List.replicate calls (.advance 0 {}) ++ [.abandon 0]

/-- Ann is the owner, and Bob an admin. -/
def annAndBob : Table (Int64 × Int64) MemberRow :=
  ⟨[((1, 1), ⟨"owner", false⟩), ((1, 2), ⟨"admin", false⟩)], by decide⟩

/-- Ann and Cid are owners. -/
def annAndCid : Table (Int64 × Int64) MemberRow :=
  ⟨[((1, 1), ⟨"owner", false⟩), ((1, 3), ⟨"owner", false⟩)], by decide⟩

end ReproitCloud
