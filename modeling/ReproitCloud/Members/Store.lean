import ReproitCloud.Control.Store
import ReproitCloud.Http.Request

/-!
# Members and invitations

The members of an organization, its pending invitations and the people that its
directory has provisioned.  A member has a role and may have a seat.  An owner has a seat
whether or not the column says so.  An invitation is bound to an email and reserves the
seat of whoever accepts it.

A statement that fails has no result.  Who exists in `users` and `orgs` is what the
foreign keys of `org_members` ask for.
-/

namespace ReproitCloud

open Lib

/-- A row of `org_invitations`, keyed by its id. -/
structure InvitationRow where
  tokenHash : String
  orgId : Int64
  email : String
  role : String := "member"
  seat : Bool := true
  invitedBy : Option Int64
  expiresAt : Micros
  /-- No column: whether an owner has made the invitation, or renewed it. -/
  byOwner : Bool := false
deriving DecidableEq, Repr

/-- A row of `directory_users`, keyed by its external id. -/
structure DirectoryRow where
  orgId : Int64
  userId : Int64
  active : Bool := true
deriving DecidableEq, Repr

/-- The control plane with the tables of the membership routes, and the clock. -/
structure MembersStore where
  control : ControlStore := {}
  invitations : Table Int64 InvitationRow := .empty
  directory : Table String DirectoryRow := .empty
  now : Micros := 0

namespace ControlStore

variable (c : ControlStore)

/-- `find_user_id_by_email`. -/
def findUserIdByEmail (email : String) : Option Int64 :=
  (c.users.rows.find? fun r => r.2.email = email).map Prod.fst

/-- `add_member`: a new member, or another role for one. -/
def addMember (orgId userId : Int64) (role : String) : Option ControlStore :=
  if c.orgs.has orgId && c.users.has userId then
    some { c with
      members := c.members.upsert (orgId, userId) { role := role } fun m => { m with role := role } }
  else none

/-- `set_member_role`, with whether there was a member. -/
def setMemberRole (orgId userId : Int64) (role : String) : ControlStore × Bool :=
  ({ c with
    members := c.members.update (fun k _ => k = (orgId, userId)) fun _ m =>
      { m with role := role } },
    c.members.has (orgId, userId))

/-- `remove_member`. -/
def removeMember (orgId userId : Int64) : ControlStore :=
  { c with members := c.members.delete fun k _ => k = (orgId, userId) }

/-- The membership that `accept_org_invitation` writes: a seat is not taken away. -/
def joinMember (orgId userId : Int64) (role : String) (seat : Bool) : ControlStore :=
  { c with
    members := c.members.upsert (orgId, userId) { role := role, seat := seat } fun m =>
      { role := role, seat := m.seat || seat } }

/-- `count_owners`. -/
def countOwners (orgId : Int64) : Int :=
  c.members.count fun k m => k.1 = orgId && m.role = "owner"

/-- `seat OR role = 'owner'`. -/
def seated (m : MemberRow) : Bool := m.seat || m.role = "owner"

/-- `count_seats`. -/
def countSeats (orgId : Int64) : Int := c.members.count fun k m => k.1 = orgId && seated m

/-- `set_seat`, with whether there was a member. -/
def setSeat (orgId userId : Int64) (seat : Bool) : ControlStore × Bool :=
  ({ c with
    members := c.members.update (fun k _ => k = (orgId, userId)) fun _ m =>
      { m with seat := seat } },
    c.members.has (orgId, userId))

/-- `set_session_org`, with whether the session is the user's and the user is a member. -/
def setSessionOrg (now : Micros) (hash : String) (userId orgId : Int64) : ControlStore × Bool :=
  let meets (s : SessionRow) : Bool :=
    s.userId = userId && live now s.expiresAt && c.members.has (orgId, userId)
  ({ c with
    sessions := c.sessions.update (fun k s => k = hash && meets s) fun _ s =>
      { s with activeOrgId := some orgId } },
    (c.sessions.get? hash).any meets)

/-- `OrgSummary`. -/
structure OrgSummary where
  id : Int64
  name : String
  plan : String
  role : String
  personal : Bool
deriving DecidableEq, Repr

/-- The order of `list_user_orgs`: the personal organization first, then by name and id. -/
def summaryBefore (lower : String → String) (a b : OrgSummary) : Bool :=
  if a.personal = b.personal then
    lower a.name < lower b.name || (lower a.name = lower b.name && a.id ≤ b.id)
  else a.personal

/-- `list_user_orgs`. -/
def listUserOrgs (lower : String → String) (userId : Int64) : List OrgSummary :=
  ((c.orgsOfUser userId).map fun o => OrgSummary.mk o.1 o.2.1.name o.2.1.plan o.2.2.role
    o.2.1.personal).insertionSort fun a b => summaryBefore lower a b

/-- `list_api_keys`, oldest first. -/
def listApiKeys (orgId : Int64) : List String :=
  (c.apiKeys.rows.filter fun r => r.2.orgId = orgId).map fun r => r.2.keyPrefix

end ControlStore

/-- `Member`, of a member or of someone in the directory. -/
structure Member where
  userId : Int64
  email : String
  role : String
  seat : Bool
deriving DecidableEq, Repr

/-- `OrgInvitation`. -/
structure OrgInvitation where
  id : Int64
  orgName : String
  email : String
  role : String
  seat : Bool
  expiresAt : Micros
deriving DecidableEq, Repr

namespace MembersStore

variable (s : MembersStore)

/-- The members of an organization and the active people of its directory. -/
def scopedUsers (orgId : Int64) : List Int64 :=
  (((s.control.members.rows.filter fun r => r.1.1 = orgId).map fun r => r.1.2) ++
    (s.directory.rows.filter fun r => r.2.orgId = orgId && r.2.active).map fun r =>
      r.2.userId).dedup

/-- Someone as `list_org_users` finds them, before the order. -/
def listedUser (orgId userId : Int64) : Option (Option MemberRow × Member) :=
  (s.control.users.get? userId).map fun u =>
    let m := s.control.members.get? (orgId, userId)
    (m, ⟨userId, u.email, (m.map MemberRow.role).getD "none", m.any ControlStore.seated⟩)

/-- The order of `list_org_users`: owners, then other members, then people without a
membership, and by email. -/
def memberBefore (a b : Option MemberRow × Member) : Bool :=
  let rank (m : Option MemberRow) : Nat := m.elim 2 fun m => if m.role = "owner" then 0 else 1
  rank a.1 < rank b.1 || (rank a.1 = rank b.1 && a.2.email ≤ b.2.email)

/-- `list_org_users`. -/
def listOrgUsers (orgId : Int64) : List Member :=
  (((s.scopedUsers orgId).filterMap (s.listedUser orgId)).insertionSort fun a b =>
    memberBefore a b).map Prod.snd

/-! ## Invitations -/

/-- An invitation as the handlers read it, with the name of its organization. -/
def orgInvitation (r : Int64 × InvitationRow) : Option OrgInvitation :=
  (s.control.orgs.get? r.2.orgId).map fun o =>
    ⟨r.1, o.name, r.2.email, r.2.role, r.2.seat, r.2.expiresAt⟩

/-- `list_org_invitations`. -/
def listOrgInvitations (lower : String → String) (orgId : Int64) : List OrgInvitation :=
  ((s.invitations.rows.filter fun r => r.2.orgId = orgId && decide (s.now < r.2.expiresAt)).filterMap
    s.orgInvitation).insertionSort fun a b => lower a.email ≤ lower b.email

/-- `org_invitation_by_token`. -/
def orgInvitationByToken (hash : String) : Option OrgInvitation :=
  (s.invitations.rows.find? fun r => r.2.tokenHash = hash && decide (s.now < r.2.expiresAt)).bind
    s.orgInvitation

/-- Whether a token is that of another invitation. -/
def tokenTaken (hash : String) (id : Option Int64) : Bool :=
  s.invitations.rows.any fun r => r.2.tokenHash = hash && some r.1 ≠ id

/-- The invitation that a new one for an email would replace. -/
def invitationFor (orgId : Int64) (email : String) : Option Int64 :=
  (s.invitations.rows.find? fun r => r.2.orgId = orgId && r.2.email = email).map Prod.fst

/-- A live invitation that reserves a seat of an organization. -/
def reserves (now : Micros) (orgId : Int64) (r : InvitationRow) : Bool :=
  r.orgId = orgId && r.seat && decide (now < r.expiresAt)

/-- The count of `upsert_org_invitation`: the seats taken, and those reserved for others. -/
def seatsUsedBeside (orgId : Int64) (email : String) : Int :=
  s.control.countSeats orgId +
    s.invitations.count fun _ r => reserves s.now orgId r && r.email ≠ email

/-- The insert of `upsert_org_invitation`, with the id.  A new row takes the id that the
sequence gives. -/
def insertInvitation (id : Int64) (row : InvitationRow) : Option (MembersStore × Int64) :=
  let old := s.invitationFor row.orgId row.email
  if s.tokenTaken row.tokenHash old || !s.control.orgs.has row.orgId then none
  else
    match old with
    | some old =>
      some ({ s with invitations := s.invitations.update (fun k _ => k = old) fun _ _ => row }, old)
    | none =>
      (s.invitations.insert? id row).map fun invitations => ({ s with invitations := invitations }, id)

/-- `refresh_org_invitation`, with the invitation. -/
def refreshOrgInvitation (orgId id : Int64) (hash : String) (expiresAt : Micros) (byOwner : Bool) :
    Option (MembersStore × Option OrgInvitation) :=
  let s' := { s with
    invitations := s.invitations.update (fun k r => k = id && r.orgId = orgId) fun _ r =>
      { r with tokenHash := hash, expiresAt := expiresAt, byOwner := r.byOwner || byOwner } }
  if (s.invitations.get? id).any (fun r => r.orgId = orgId) && s.tokenTaken hash (some id) then none
  else
    some (s', ((s'.invitations.get? id).filter fun r => r.orgId = orgId).bind fun r =>
      s'.orgInvitation (id, r))

/-- `revoke_org_invitation`, with whether there was one. -/
def revokeOrgInvitation (orgId id : Int64) : MembersStore × Bool :=
  ({ s with invitations := s.invitations.delete fun k r => k = id && r.orgId = orgId },
    (s.invitations.get? id).any fun r => r.orgId = orgId)

/-- The invitation that a user may accept with a token. -/
def acceptable (hash email : String) (r : InvitationRow) : Bool :=
  r.tokenHash = hash && r.email = email && decide (s.now < r.expiresAt)

/-- The invitation that `accept_org_invitation` consumes. -/
def invitationToAccept (hash email : String) : Option (Int64 × InvitationRow) :=
  s.invitations.rows.find? fun r => s.acceptable hash email r.2

/-- `accept_org_invitation`, with the organization. -/
def acceptOrgInvitation (hash : String) (userId : Int64) (email : String) :
    Option (MembersStore × Option Int64) :=
  match s.invitationToAccept hash email with
  | none => some (s, none)
  | some (id, r) =>
    if s.control.users.has userId then
      some ({ s with
        invitations := s.invitations.delete fun k _ => k = id
        control := s.control.joinMember r.orgId userId r.role r.seat }, some r.orgId)
    else none

/-- `prune_org_invitations`. -/
def pruneOrgInvitations : MembersStore :=
  { s with invitations := s.invitations.delete fun _ r => decide (r.expiresAt < s.now) }

end MembersStore

/-! ## What the statements write -/

namespace ControlStore

theorem get?_addMember_ne (c : ControlStore) (orgId userId : Int64) (role : String)
    {key : Int64 × Int64} (hkey : key ≠ (orgId, userId)) :
    ((c.addMember orgId userId role).getD c).members.get? key = c.members.get? key := by
  unfold addMember
  split
  · simp [hkey]
  · rfl

theorem get?_setMemberRole_ne (c : ControlStore) (orgId userId : Int64) (role : String)
    {key : Int64 × Int64} (hkey : key ≠ (orgId, userId)) :
    (c.setMemberRole orgId userId role).1.members.get? key = c.members.get? key := by
  cases hrow : c.members.get? key <;> simp [setMemberRole, hkey, hrow]

theorem get?_removeMember_ne (c : ControlStore) (orgId userId : Int64) {key : Int64 × Int64}
    (hkey : key ≠ (orgId, userId)) :
    (c.removeMember orgId userId).members.get? key = c.members.get? key := by
  cases hrow : c.members.get? key <;> simp [removeMember, hkey, hrow]

theorem get?_setSeat_ne (c : ControlStore) (orgId userId : Int64) (seat : Bool)
    {key : Int64 × Int64} (hkey : key ≠ (orgId, userId)) :
    (c.setSeat orgId userId seat).1.members.get? key = c.members.get? key := by
  cases hrow : c.members.get? key <;> simp [setSeat, hkey, hrow]

theorem get?_joinMember_ne (c : ControlStore) (orgId userId : Int64) (role : String) (seat : Bool)
    {key : Int64 × Int64} (hkey : key ≠ (orgId, userId)) :
    (c.joinMember orgId userId role seat).members.get? key = c.members.get? key := by
  simp [joinMember, hkey]

end ControlStore

end ReproitCloud
