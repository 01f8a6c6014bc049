import ReproitCloud.Members.Handlers

/-!
# Owners

What a call does to the roles is one membership that it writes (`MemberOp.roleWrite`).  Two
laws about owners follow from it.

The first is that an organization keeps an owner.  Only `set_member_role` counts the owners
before it takes one away, and it writes after it has counted.  Adding an owner as a member,
and an owner's acceptance of an invitation, take the role away and look at nothing.

* `org_keeps_an_owner`: an organization keeps an owner as long as those two do not meet its
  only one, and the roles are set and the members removed on a reading that still holds.
* `added_owner_is_no_owner`: an admin adds the only owner as a member.

The second is that only an owner changes an owner.

* `owners_change_owners`: it is so as long as no admin adds an owner and no owner accepts
  the invitation of an admin, and the roles were read.
* `admin_demotes_owner`: the same request of the admin.
-/

namespace ReproitCloud

open Lib

/-! ## What a call does to the roles -/

/-- The membership that a call writes when it takes effect, and the role it leaves there. -/
def MemberOp.roleWrite (E : MembersEnv) (s : MembersStore) :
    MemberOp → Option ((Int64 × Int64) × Option String)
  | addWriting actor _ role target =>
    if s.control.orgs.has actor.org.id && s.control.users.has target then
      some ((actor.org.id, target), some role)
    else none
  | roleWriting actor target role current _ =>
    if role = "none" then some ((actor.org.id, target), none)
    else if current = none then
      if s.control.orgs.has actor.org.id && s.control.users.has target then
        some ((actor.org.id, target), some role)
      else none
    else if s.control.members.has (actor.org.id, target) then
      some ((actor.org.id, target), some role)
    else none
  | removeWriting actor target _ => some ((actor.org.id, target), none)
  | accepting user _ token =>
    (s.invitationToAccept (E.cfg.keyHash token) user.email).bind fun r =>
      if s.control.users.has user.id then some ((r.2.orgId, user.id), some r.2.role) else none
  | _ => none

section Roles

variable {E : MembersEnv} {s : MembersStore}

theorem orgRole_addMember (c : ControlStore) (orgId userId : Int64) (role : String)
    (org user : Int64) :
    ((c.addMember orgId userId role).getD c).orgRole org user =
      if (org, user) = (orgId, userId) ∧ (c.orgs.has orgId && c.users.has userId) = true then
        some role
      else c.orgRole org user := by
  unfold ControlStore.addMember
  split
  · rename_i hmeets
    simp only [hmeets, and_true, Option.getD_some, ControlStore.orgRole, Table.get?_upsert]
    split
    · cases c.members.get? (orgId, userId) <;> rfl
    · rfl
  · rename_i hmeets
    simp [hmeets]

theorem orgRole_removeMember (c : ControlStore) (orgId userId org user : Int64) :
    (c.removeMember orgId userId).orgRole org user =
      if (org, user) = (orgId, userId) then none else c.orgRole org user := by
  simp only [ControlStore.orgRole, ControlStore.removeMember, Table.get?_delete]
  split
  · rename_i hkey
    simp [hkey]
  · rename_i hkey
    cases c.members.get? (org, user) <;> simp [hkey]

theorem orgRole_setMemberRole (c : ControlStore) (orgId userId : Int64) (role : String)
    (org user : Int64) :
    (c.setMemberRole orgId userId role).1.orgRole org user =
      if (org, user) = (orgId, userId) ∧ c.members.has (orgId, userId) = true then some role
      else c.orgRole org user := by
  simp only [ControlStore.orgRole, ControlStore.setMemberRole, Table.get?_update, Table.has]
  by_cases hkey : (org, user) = (orgId, userId)
  · rw [hkey]
    obtain hrow | ⟨m, hrow⟩ := Option.eq_none_or_eq_some (c.members.get? (orgId, userId)) <;>
      simp [hrow]
  · simp [hkey]

theorem orgRole_setSeat (c : ControlStore) (orgId userId : Int64) (seat : Bool) (org user : Int64) :
    (c.setSeat orgId userId seat).1.orgRole org user = c.orgRole org user := by
  simp only [ControlStore.orgRole, ControlStore.setSeat, Table.get?_update, Option.map_map]
  refine congrArg (fun f => Option.map f _) (funext fun m => ?_)
  simp only [Function.comp_apply]
  split <;> rfl

theorem orgRole_writeRole (c : ControlStore) (orgId target : Int64) (role : String)
    (current : Option String) (org user : Int64) :
    (writeRole c orgId target role current).1.orgRole org user =
      if role = "none" then if (org, user) = (orgId, target) then none else c.orgRole org user
      else if current = none then
        if (org, user) = (orgId, target) ∧ (c.orgs.has orgId && c.users.has target) = true then
          some role
        else c.orgRole org user
      else
        if (org, user) = (orgId, target) ∧ c.members.has (orgId, target) = true then some role
        else c.orgRole org user := by
  unfold writeRole
  split
  · exact orgRole_removeMember ..
  · split
    · have hadd := orgRole_addMember c orgId target role org user
      cases hstmt : c.addMember orgId target role with
      | none => rwa [hstmt] at hadd
      | some c' => rwa [hstmt] at hadd
    · exact orgRole_setMemberRole ..

theorem control_insertInvitation {id : Int64} {row : InvitationRow} {out : MembersStore × Int64}
    (h : s.insertInvitation id row = some out) : out.1.control = s.control := by
  simp only [MembersStore.insertInvitation] at h
  split at h
  · cases h
  · split at h
    · cases h
      rfl
    · obtain ⟨invitations, -, rfl⟩ := Option.map_eq_some_iff.1 h
      rfl

theorem control_refreshOrgInvitation {orgId id : Int64} {hash : String} {expiresAt : Micros}
    {byOwner : Bool} {out : MembersStore × Option OrgInvitation}
    (h : s.refreshOrgInvitation orgId id hash expiresAt byOwner = some out) :
    out.1.control = s.control := by
  simp only [MembersStore.refreshOrgInvitation] at h
  split at h
  · cases h
  · cases h
    rfl

theorem orgRole_acceptOrgInvitation (s : MembersStore) (hash email : String)
    (userId org user : Int64) :
    (((s.acceptOrgInvitation hash userId email).map Prod.fst).getD s).control.orgRole org user =
      match s.invitationToAccept hash email with
      | some (_, r) =>
        if (org, user) = (r.orgId, userId) ∧ s.control.users.has userId = true then some r.role
        else s.control.orgRole org user
      | none => s.control.orgRole org user := by
  unfold MembersStore.acceptOrgInvitation
  cases s.invitationToAccept hash email with
  | none => rfl
  | some found =>
    obtain ⟨id, r⟩ := found
    show ((Option.map Prod.fst (if s.control.users.has userId then _ else none)).getD s).control.orgRole
      org user = _
    split
    · rename_i hhas
      simp only [hhas, and_true, Option.map_some, Option.getD_some, ControlStore.orgRole,
        ControlStore.joinMember, Table.get?_upsert]
      split
      · cases s.control.members.get? (r.orgId, userId) <;> rfl
      · rfl
    · rename_i hhas
      simp [hhas]

/-- A call writes one role, or none. -/
theorem orgRole_effect (chance : MemberChance) (op : MemberOp) (org user : Int64) :
    (op.effect E s chance).control.orgRole org user =
      match op.roleWrite E s with
      | some (key, role) => if (org, user) = key then role else s.control.orgRole org user
      | none => s.control.orgRole org user := by
  cases op with
  | addWriting actor email role target =>
    refine (orgRole_addMember s.control actor.org.id target role org user).trans ?_
    simp only [MemberOp.roleWrite]
    cases s.control.orgs.has actor.org.id && s.control.users.has target <;> simp
  | roleWriting actor target role current owners =>
    refine (orgRole_writeRole s.control actor.org.id target role current org user).trans ?_
    simp only [MemberOp.roleWrite]
    split
    · rfl
    · split
      · cases s.control.orgs.has actor.org.id && s.control.users.has target <;> simp
      · cases s.control.members.has (actor.org.id, target) <;> simp
  | removeWriting actor target current => exact orgRole_removeMember ..
  | seatWriting actor target seat already used => exact orgRole_setSeat ..
  | inviteInserting actor email role token used =>
    simp only [MemberOp.effect, MemberOp.roleWrite]
    cases hins : s.insertInvitation chance.invitationId (newInvitation E s actor email role token) with
    | none => rfl
    | some out => exact congrArg (ControlStore.orgRole · org user) (control_insertInvitation hins)
  | resending actor id token =>
    simp only [MemberOp.effect, MemberOp.roleWrite]
    cases href : resend E s actor id token with
    | none => rfl
    | some out => exact congrArg (ControlStore.orgRole · org user) (control_refreshOrgInvitation href)
  | accepting user' session token =>
    refine (orgRole_acceptOrgInvitation s (E.cfg.keyHash token) user'.email user'.id org user).trans ?_
    simp only [MemberOp.roleWrite]
    cases s.invitationToAccept (E.cfg.keyHash token) user'.email with
    | none => rfl
    | some found =>
      obtain ⟨id, r⟩ := found
      cases s.control.users.has user'.id <;> simp
  | _ => rfl

/-- What `set_member_role` writes is the role of the user it names. -/
theorem roleWrite_roleWriting {actor : Actor} {target : Int64} {role : String}
    {current : Option String} {owners : Option Int} {key : Int64 × Int64} {out : Option String}
    (h : (MemberOp.roleWriting actor target role current owners).roleWrite E s = some (key, out)) :
    key = (actor.org.id, target) ∧ out = if role = "none" then none else some role := by
  simp only [MemberOp.roleWrite] at h
  split at h
  · rename_i hnone
    cases h
    exact ⟨rfl, (if_pos hnone).symm⟩
  · rename_i hnone
    rw [if_neg hnone]
    split at h
    all_goals
      rw [Option.ite_none_right_eq_some] at h
      cases h.2
      exact ⟨rfl, rfl⟩

/-- The writes of others leave the members alone. -/
theorem members_commit {c : MemberCommit} {s' : MembersStore} (h : commitMembers s c = some s') :
    s'.control.members = s.control.members := by
  cases c with
  | tick now =>
    rw [commitMembers, Option.ite_none_right_eq_some] at h
    obtain ⟨-, heq⟩ := h
    cases heq
    rfl
  | signUp userId email =>
    rw [commitMembers, Option.ite_none_right_eq_some] at h
    obtain ⟨users, -, rfl⟩ := Option.map_eq_some_iff.1 h.2
    rfl
  | prune | signIn _ _ | provision _ _ =>
    cases h
    rfl

end Roles

/-! ## What the handlers have checked -/

/-- What a request has read before it takes a role away. -/
def MemberOp.Checked : MemberOp → Prop
  | roleCounting actor _ _ current => current = some "owner" → actor.org.role = "owner"
  | roleWriting actor _ role current owners => current = some "owner" →
    actor.org.role = "owner" ∧ (role = "owner" ∨ ∃ n, owners = some n ∧ 1 < n)
  | removeWriting _ _ current => current ≠ some "owner"
  | _ => True

section Checks

variable {E : MembersEnv} {s : MembersStore} {chance : MemberChance}

theorem checked_afterRoleRead (actor : Actor) (target : Int64) (role : String)
    (current : Option String) : (afterRoleRead actor target role current).Checked := by
  unfold afterRoleRead
  split
  · trivial
  · split
    · trivial
    · rename_i hactor
      have howner : current = some "owner" → actor.org.role = "owner" := by
        intro hcurrent
        by_contra hne
        exact hactor ⟨hcurrent, hne⟩
      split
      · exact howner
      · rename_i hrole
        intro hcurrent
        refine ⟨howner hcurrent, .inl ?_⟩
        by_contra hne
        exact hrole ⟨hcurrent, hne⟩

theorem checked_enter (actor : Actor) (request : MemberRequest) :
    (request.enter E chance actor).Checked := by
  cases request <;> simp only [MemberRequest.enter] <;> repeat' split
  all_goals trivial

theorem checked_arrive (cookie : Header) (request : MemberRequest) :
    (request.arrive E s chance cookie).Checked := by
  simp only [MemberRequest.arrive]
  split
  · split <;> trivial
  · split
    · trivial
    · exact checked_enter ..

theorem checked_next (answered : Bool) {op : MemberOp} (h : op.Checked) :
    (op.next E s chance answered).Checked := by
  cases op with
  | arriving cookie request => exact checked_arrive cookie request
  | roleReading actor target role => exact checked_afterRoleRead ..
  | roleCounting actor target role current =>
    simp only [MemberOp.next]
    generalize (if answered = true then s.control.countOwners actor.org.id else 1) = owners
    split
    · trivial
    · rename_i howners
      exact fun hcurrent => ⟨h hcurrent, .inr ⟨_, rfl, not_le.1 howners⟩⟩
  | removeReading actor target =>
    simp only [MemberOp.next]
    generalize (if answered = true then s.control.orgRole actor.org.id target else none) = current
    split
    · trivial
    · rename_i hcurrent
      exact hcurrent
  | _ =>
    simp only [MemberOp.next, roleReply, replyErr]
    repeat' split
    all_goals trivial

end Checks

/-- The next call of a request, taken apart. -/
theorem memberNext_eq_some {E : MembersEnv} {s s' : MembersStore} {others : List MemberOp}
    {chance : MemberChance} {op : MemberOp} {next : Option MemberOp}
    (h : memberNext E s others chance op = some (s', next)) :
    s' = (if chance.result = .failed then s else op.effect E s chance) ∧
      next = some (op.next E s chance (chance.result = .answered)) := by
  have hcall : (if op.wants.any fun org => others.any fun o => o.locks = some org then none
      else some (if chance.result = .failed then s else op.effect E s chance,
        some (op.next E s chance (chance.result = .answered)))) = some (s', next) := by
    cases op with
    | replied reply => cases h
    | _ => exact h
  rw [Option.ite_none_left_eq_some, Option.some.injEq, Prod.mk.injEq] at hcall
  exact ⟨hcall.2.1.symm, hcall.2.2.symm⟩

theorem checked_step {E : MembersEnv} {s s' : Membership} {e : MemberEvent} (h : ∀ op ∈ s.inFlight, op.Checked)
    (hstep : (membership E).step s e = some s') : ∀ op ∈ s'.inFlight, op.Checked := by
  cases Program.effect_of_step hstep with
  | @start op hstarts =>
    intro o ho
    rcases List.mem_append.1 ho with ho | ho
    · exact h o ho
    · rw [List.mem_singleton.1 ho]
      cases op with
      | arriving cookie request => trivial
      | _ => cases hstarts
  | @advance i chance op store next hop hnext =>
    obtain ⟨-, rfl⟩ := memberNext_eq_some hnext
    intro o ho
    rcases List.mem_append.1 ho with ho | ho
    · exact h o (List.mem_of_mem_eraseIdx ho)
    · cases Option.mem_toList.1 ho
      exact checked_next _ (h op (List.mem_of_getElem? hop))
  | abandon hop => exact fun o ho => h o (List.mem_of_mem_eraseIdx ho)
  | commit hwrite => exact h

/-! ## An organization keeps an owner -/

def ControlStore.HasOwner (c : ControlStore) (org : Int64) : Prop :=
  ∃ user, c.orgRole org user = some "owner"

/-- A user is the only owner of an organization. -/
def ControlStore.SoleOwner (c : ControlStore) (org user : Int64) : Prop :=
  c.orgRole org user = some "owner" ∧ c.countOwners org ≤ 1

instance (c : ControlStore) (org user : Int64) : Decidable (c.SoleOwner org user) :=
  inferInstanceAs (Decidable (_ ∧ _))

/-- A call that is about to take effect spares the only owner.  The calls that have read
the role of the member may meet it with a reading that does not hold any more. -/
def MemberOp.SparesOwner (E : MembersEnv) (s : MembersStore) (org : Int64) : MemberOp → Prop
  | addWriting actor _ _ target => actor.org.id = org → ¬ s.control.SoleOwner org target
  | roleWriting actor target role current owners => actor.org.id = org → role ≠ "owner" →
    s.control.SoleOwner org target → s.control.orgRole org target = current ∧
      ∀ n, owners = some n → s.control.countOwners org = n
  | removeWriting actor target current => actor.org.id = org →
    s.control.SoleOwner org target → s.control.orgRole org target = current
  | accepting user _ token => ∀ r,
    s.invitationToAccept (E.cfg.keyHash token) user.email = some r → r.2.orgId = org →
      r.2.role ≠ "owner" → ¬ s.control.SoleOwner org user.id
  | _ => True

/-- The only owner is spared by the calls of a run. -/
def SparesSoleOwner (E : MembersEnv) (org : Int64) (s : Membership) (e : MemberEvent)
    (_ : Membership) : Prop :=
  match e with
  | .advance i chance => ∀ op, s.inFlight[i]? = some op → chance.result ≠ .failed →
    op.SparesOwner E s.store org
  | _ => True

section LastOwner

variable {c : ControlStore} {E : MembersEnv} {s s' : MembersStore} {org user : Int64} {op : MemberOp}

/-- Beside a user who is not the only owner there is another one. -/
theorem exists_other_owner (howner : c.HasOwner org) (hsole : ¬ c.SoleOwner org user) :
    ∃ v, v ≠ user ∧ c.orgRole org v = some "owner" := by
  by_cases huser : c.orgRole org user = some "owner"
  · have hcount : 1 < c.countOwners org := by
      by_contra hle
      exact hsole ⟨huser, not_lt.1 hle⟩
    obtain ⟨⟨o, v⟩, m, hne, hrow, hmeets⟩ :=
      Table.exists_ne_of_one_lt_count (Nat.one_lt_cast.1 hcount) (org, user)
    rw [Bool.and_eq_true, decide_eq_true_eq, decide_eq_true_eq] at hmeets
    obtain ⟨horg, hrole⟩ := hmeets
    subst horg
    refine ⟨v, fun heq => hne (by rw [heq]), ?_⟩
    rw [ControlStore.orgRole, hrow, Option.map_some, hrole]
  · obtain ⟨v, hv⟩ := howner
    exact ⟨v, fun heq => huser (heq ▸ hv), hv⟩

/-- A role other than owner is written to a user beside whom there is an owner. -/
theorem exists_other_of_roleWrite (howner : s.control.HasOwner org) (hchecked : op.Checked)
    (hspares : op.SparesOwner E s org) {role : Option String}
    (hwrite : op.roleWrite E s = some ((org, user), role)) (hrole : role ≠ some "owner") :
    ∃ v, v ≠ user ∧ s.control.orgRole org v = some "owner" := by
  refine exists_other_owner howner fun hsole => ?_
  cases op with
  | addWriting actor email given target =>
    rw [MemberOp.roleWrite, Option.ite_none_right_eq_some] at hwrite
    cases hwrite.2
    exact hspares rfl hsole
  | roleWriting actor target given current owners =>
    obtain ⟨hkey, rfl⟩ := roleWrite_roleWriting hwrite
    cases hkey
    have hgiven : given ≠ "owner" := by
      rintro rfl
      exact hrole rfl
    -- the reading holds, so it has seen an owner and counted two of them
    obtain ⟨hcurrent, hcount⟩ := hspares rfl hgiven hsole
    rw [hsole.1] at hcurrent
    obtain ⟨-, hdone | ⟨n, hn, hlt⟩⟩ := hchecked hcurrent.symm
    · exact hgiven hdone
    · have := hcount n hn
      have := hsole.2
      omega
  | removeWriting actor target current =>
    cases hwrite
    exact hchecked ((hspares rfl hsole).symm.trans hsole.1)
  | accepting user' session token =>
    simp only [MemberOp.roleWrite, Option.bind_eq_some_iff] at hwrite
    obtain ⟨r, hfound, hr⟩ := hwrite
    rw [Option.ite_none_right_eq_some] at hr
    cases hr.2
    exact hspares r hfound rfl (fun heq => hrole (congrArg some heq)) hsole
  | _ => cases hwrite

theorem hasOwner_effect (chance : MemberChance) (howner : s.control.HasOwner org)
    (hchecked : op.Checked) (hspares : op.SparesOwner E s org) :
    (op.effect E s chance).control.HasOwner org := by
  cases hwrite : op.roleWrite E s with
  | none =>
    obtain ⟨user, huser⟩ := howner
    refine ⟨user, ?_⟩
    rw [orgRole_effect, hwrite]
    exact huser
  | some write =>
    obtain ⟨⟨o, u⟩, role⟩ := write
    by_cases hkept : o = org ∧ role ≠ some "owner"
    · obtain ⟨rfl, hrole⟩ := hkept
      obtain ⟨v, hne, hv⟩ := exists_other_of_roleWrite howner hchecked hspares hwrite hrole
      refine ⟨v, ?_⟩
      rw [orgRole_effect, hwrite]
      simp only
      rw [if_neg fun heq => hne (Prod.mk.inj heq).2]
      exact hv
    · obtain ⟨user, huser⟩ := howner
      refine ⟨user, ?_⟩
      rw [orgRole_effect, hwrite]
      simp only
      split
      · rename_i heq
        cases heq
        by_contra hrole
        exact hkept ⟨rfl, hrole⟩
      · exact huser

theorem hasOwner_commit {e : MemberCommit} (h : commitMembers s e = some s')
    (howner : s.control.HasOwner org) : s'.control.HasOwner org := by
  obtain ⟨user, huser⟩ := howner
  refine ⟨user, ?_⟩
  rw [ControlStore.orgRole, members_commit h]
  exact huser

theorem hasOwner_step {s s' : Membership} {e : MemberEvent} (howner : s.store.control.HasOwner org)
    (hchecked : ∀ op ∈ s.inFlight, op.Checked) (hstep : (membership E).step s e = some s')
    (hspares : SparesSoleOwner E org s e s') : s'.store.control.HasOwner org := by
  cases Program.effect_of_step hstep with
  | start hstarts => exact howner
  | @advance i chance op store next hop hnext =>
    obtain ⟨rfl, -⟩ := memberNext_eq_some hnext
    simp only
    split
    · exact howner
    · rename_i hresult
      exact hasOwner_effect chance howner (hchecked op (List.mem_of_getElem? hop))
        (hspares op hop hresult)
  | abandon hop => exact howner
  | commit hwrite => exact hasOwner_commit hwrite howner

/-- In a run that spares the only owner, an organization keeps an owner. -/
theorem org_keeps_an_owner {E : MembersEnv} {org : Int64} {s s' : Membership}
    {es : List MemberEvent} (hidle : s.inFlight = []) (howner : s.store.control.HasOwner org)
    (hrun : Run (Guarded (stepOf (membership E).step) (SparesSoleOwner E org)) s es s') :
    s'.store.control.HasOwner org := by
  refine (hrun.invariant_of_guarded
    (fun s => s.store.control.HasOwner org ∧ ∀ op ∈ s.inFlight, op.Checked)
    (fun _ _ _ h hstep hok => ⟨hasOwner_step h.1 h.2 hstep hok, checked_step h.2 hstep⟩) ?_).1
  rw [hidle]
  exact ⟨howner, fun op hop => nomatch hop⟩

end LastOwner

/-- The calls advance while there are two owners. -/
def twoOwners (org : Int64) (s : Membership) : MemberEvent → Bool
  | .advance _ _ => decide (1 < s.store.control.countOwners org)
  | _ => true

/-- Beside two owners there is no only one. -/
theorem sparesSoleOwner_of_two (E : MembersEnv) (org : Int64) (s : Membership) (e : MemberEvent)
    (s' : Membership) (h : twoOwners org s e = true) : SparesSoleOwner E org s e s' := by
  cases e with
  | advance i chance =>
    have hsole : ∀ user, ¬ s.store.control.SoleOwner org user := fun user hsole =>
      absurd hsole.2 (not_le.2 (of_decide_eq_true h))
    intro op hop _
    cases op with
    | addWriting actor email role target => exact fun _ => hsole target
    | roleWriting actor target role current owners => exact fun _ _ h => absurd h (hsole target)
    | removeWriting actor target current => exact fun _ h => absurd h (hsole target)
    | accepting user session token => exact fun _ _ _ _ => hsole user.id
    | _ => trivial
  | start op | abandon i | commit c => trivial

theorem org_keeps_an_owner_demoted :
    ∃ s, Run (Guarded (stepOf (membership plainEnv).step) (SparesSoleOwner plainEnv 1))
        (acme annAndCid) (alone "rid_session=a" (.setMemberRole 3 "member") 4) s ∧
      s.store.control.orgRole 1 3 = some "member" ∧ s.store.control.HasOwner 1 := by
  have hsome : (runOf (checked (membership plainEnv).step (twoOwners 1)) (acme annAndCid)
      (alone "rid_session=a" (.setMemberRole 3 "member") 4)).map
        (fun s => s.store.control.orgRole 1 3) = some (some "member") := by decide
  obtain ⟨s, hs, hend⟩ := Option.map_eq_some_iff.1 hsome
  have hrun := Run.of_runOf_checked (sparesSoleOwner_of_two plainEnv 1) hs
  exact ⟨s, hrun, hend, org_keeps_an_owner rfl ⟨1, by decide⟩ hrun⟩

/-- An admin adds the only owner as a member, and nobody is an owner. -/
theorem added_owner_is_no_owner :
    ¬ ∀ (E : MembersEnv) (org : Int64) (s s' : Membership) (es : List MemberEvent),
      s.inFlight = [] → s.store.control.HasOwner org → Run (stepOf (membership E).step) s es s' →
      s'.store.control.HasOwner org := by
  intro hall
  have hsome : (runOf (membership plainEnv).step (acme annAndBob)
      (alone "rid_session=b" (.addMember "ann@x" none) 3)).map
        (fun s => s.store.control.members.rows) =
      some [((1, 1), ⟨"member", false⟩), ((1, 2), ⟨"admin", false⟩)] := by decide
  obtain ⟨s, hs, hend⟩ := Option.map_eq_some_iff.1 hsome
  obtain ⟨user, howner⟩ := hall plainEnv 1 _ s _ rfl ⟨1, by decide⟩ (Run.of_runOf hs)
  obtain ⟨m, hm, hrole⟩ := Option.map_eq_some_iff.1 howner
  rw [Table.get?_eq_some_iff, hend] at hm
  simp only [List.mem_cons, Prod.mk.injEq, List.not_mem_nil, or_false] at hm
  obtain ⟨-, rfl⟩ | ⟨-, rfl⟩ := hm
  · revert hrole
    decide
  · revert hrole
    decide

/-! ## Only an owner changes an owner -/

/-- The organization that an owner stands behind a call for, when it writes a role.  The
role is the one the gate has read, of the acting user or of whoever made the invitation. -/
def MemberOp.ownerBehind (E : MembersEnv) (s : MembersStore) : MemberOp → Option Int64
  | addWriting actor _ _ _ | roleWriting actor _ _ _ _ | removeWriting actor _ _ =>
    if actor.org.role = "owner" then some actor.org.id else none
  | accepting user _ token =>
    (s.invitationToAccept (E.cfg.keyHash token) user.email).bind fun r =>
      if r.2.byOwner then some r.2.orgId else none
  | _ => none

/-- A step takes no owner's role away, unless an owner of the organization stands behind
it. -/
def OwnersChangeOwners (E : MembersEnv) (s : Membership) (e : MemberEvent) (s' : Membership) :
    Prop :=
  ∀ org user, s.store.control.orgRole org user = some "owner" →
    s'.store.control.orgRole org user ≠ some "owner" →
    ∃ i chance op, e = .advance i chance ∧ s.inFlight[i]? = some op ∧
      op.ownerBehind E s.store = some org

/-- A call behind which no owner stands addresses no owner.  The calls that have read the
role may meet one that they have not read as such. -/
def MemberOp.AsksOwner (E : MembersEnv) (s : MembersStore) : MemberOp → Prop
  | addWriting actor _ _ target => actor.org.role ≠ "owner" →
    s.control.orgRole actor.org.id target ≠ some "owner"
  | roleWriting actor target _ current _ | removeWriting actor target current =>
    actor.org.role ≠ "owner" → s.control.orgRole actor.org.id target = some "owner" →
      current = some "owner"
  | accepting user _ token => ∀ r,
    s.invitationToAccept (E.cfg.keyHash token) user.email = some r → r.2.byOwner = false →
      r.2.role ≠ "owner" → s.control.orgRole r.2.orgId user.id ≠ some "owner"
  | _ => True

/-- The calls of a run ask an owner to change one. -/
def AsksOwners (E : MembersEnv) (s : Membership) (e : MemberEvent) (_ : Membership) : Prop :=
  match e with
  | .advance i chance => ∀ op, s.inFlight[i]? = some op → chance.result ≠ .failed →
    op.AsksOwner E s.store
  | _ => True

section Authority

variable {E : MembersEnv} {s : MembersStore} {org user : Int64} {op : MemberOp}

/-- The role that a gate has read is the role of the user. -/
theorem orgRole_of_userAndOrg {cfg : ServerConfig} {chance : GateChance} {c : ControlStore}
    {req : Credentials} {u : ControlStore.User} {o : ControlStore.Org}
    (h : userAndOrg cfg chance c req = .ok (u, o)) : c.orgRole o.id u.id = some o.role := by
  unfold userAndOrg at h
  split at h
  · cases h
  · split at h
    · cases h
    · rename_i found hfound
      cases h
      rw [Option.ite_none_left_eq_some] at hfound
      have hread := hfound.2
      simp only [ControlStore.userAndOrgForSession, Option.bind_eq_some_iff,
        Option.map_eq_some_iff] at hread
      obtain ⟨session, -, row, -, first, hfirst, heq⟩ := hread
      cases heq
      have hmem := (List.mem_insertionSort _).1 (List.mem_of_mem_head? hfirst)
      obtain ⟨⟨⟨org, member⟩, m⟩, hrow, hm⟩ := List.mem_filterMap.1 hmem
      rw [Option.ite_none_right_eq_some] at hm
      obtain ⟨rfl, hm⟩ := hm
      obtain ⟨o, -, rfl⟩ := Option.map_eq_some_iff.1 hm
      rw [ControlStore.orgRole, Table.get?_eq_some_iff.2 hrow, Option.map_some]

theorem ownerBehind_of_roleWrite (hchecked : op.Checked) (hasks : op.AsksOwner E s)
    (howner : s.control.orgRole org user = some "owner") {role : Option String}
    (hwrite : op.roleWrite E s = some ((org, user), role)) (hrole : role ≠ some "owner") :
    op.ownerBehind E s = some org := by
  cases op with
  | addWriting actor email given target =>
    rw [MemberOp.roleWrite, Option.ite_none_right_eq_some] at hwrite
    cases hwrite.2
    exact if_pos (by_contra fun hactor => hasks hactor howner)
  | roleWriting actor target given current owners =>
    cases (roleWrite_roleWriting hwrite).1
    refine if_pos (by_contra fun hactor => hactor ?_)
    exact (hchecked (hasks hactor howner)).1
  | removeWriting actor target current =>
    cases hwrite
    exact if_pos (by_contra fun hactor => hchecked (hasks hactor howner))
  | accepting user' session token =>
    simp only [MemberOp.roleWrite, Option.bind_eq_some_iff] at hwrite
    obtain ⟨r, hfound, hr⟩ := hwrite
    rw [Option.ite_none_right_eq_some] at hr
    cases hr.2
    rw [MemberOp.ownerBehind, hfound, Option.bind_some]
    refine if_pos (by_contra fun hby => ?_)
    exact hasks r hfound (Bool.not_eq_true _ ▸ hby) (fun heq => hrole (congrArg some heq)) howner
  | _ => cases hwrite

theorem ownersChangeOwners_advance {s : Membership} {i : Nat} {chance : MemberChance}
    {op : MemberOp} {s' : Membership} (hop : s.inFlight[i]? = some op) (hchecked : op.Checked)
    (hasks : chance.result ≠ .failed → op.AsksOwner E s.store)
    (hstore : s'.store = if chance.result = .failed then s.store else op.effect E s.store chance) :
    OwnersChangeOwners E s (.advance i chance) s' := by
  intro org user howner hlost
  refine ⟨i, chance, op, rfl, hop, ?_⟩
  rw [hstore] at hlost
  split at hlost
  · exact absurd howner hlost
  · rename_i hresult
    rw [orgRole_effect] at hlost
    cases hwrite : op.roleWrite E s.store with
    | none =>
      rw [hwrite] at hlost
      exact absurd howner hlost
    | some write =>
      obtain ⟨key, role⟩ := write
      rw [hwrite] at hlost
      simp only at hlost
      split at hlost
      · rename_i hkey
        subst hkey
        exact ownerBehind_of_roleWrite hchecked (hasks hresult) howner hwrite hlost
      · exact absurd howner hlost

/-- In a run whose calls ask an owner to change one, no owner's role changes without an
owner behind it. -/
theorem owners_change_owners {s s' : Membership} {es : List MemberEvent} (hidle : s.inFlight = [])
    (hrun : Run (Guarded (stepOf (membership E).step) (AsksOwners E)) s es s') :
    Run (Guarded (stepOf (membership E).step) (OwnersChangeOwners E)) s es s' := by
  refine hrun.guarded_of_invariant (fun s => ∀ op ∈ s.inFlight, op.Checked)
    (fun _ _ _ h hstep _ => checked_step h hstep) (fun t e t' h hstep hok => ?_) ?_
  · cases Program.effect_of_step hstep with
    | start hstarts => exact fun _ _ howner hlost => absurd howner hlost
    | @advance i chance op store next hop hnext =>
      obtain ⟨rfl, rfl⟩ := memberNext_eq_some hnext
      exact ownersChangeOwners_advance hop (h op (List.mem_of_getElem? hop)) (hok op hop) rfl
    | abandon hop => exact fun _ _ howner hlost => absurd howner hlost
    | commit hwrite =>
      intro org user howner hlost
      rw [ControlStore.orgRole, members_commit hwrite] at hlost
      exact absurd howner hlost
  · rw [hidle]
    exact fun op hop => nomatch hop

end Authority

/-- The guard, where only owners write roles and nobody accepts an invitation. -/
def ownersAsk (s : Membership) : MemberEvent → Bool
  | .advance i _ => (s.inFlight[i]?).all fun op =>
      match op with
      | .addWriting actor _ _ _ | .roleWriting actor _ _ _ _ | .removeWriting actor _ _ =>
        actor.org.role = "owner"
      | .accepting _ _ _ => false
      | _ => true
  | _ => true

theorem ownersAsk_sound (E : MembersEnv) (s : Membership) (e : MemberEvent) (s' : Membership)
    (h : ownersAsk s e = true) : AsksOwners E s e s' := by
  cases e with
  | advance i chance =>
    intro op hop _
    rw [ownersAsk, hop, Option.all_some] at h
    cases op with
    | addWriting actor email role target | roleWriting actor target role current owners
    | removeWriting actor target current => exact fun hactor => absurd (of_decide_eq_true h) hactor
    | accepting user session token => cases h
    | _ => trivial
  | start op | abandon i | commit c => trivial

theorem owners_change_owners_demoted :
    ∃ s, Run (Guarded (stepOf (membership plainEnv).step) (OwnersChangeOwners plainEnv))
        (acme annAndCid) (alone "rid_session=a" (.setMemberRole 3 "member") 4) s ∧
      s.store.control.orgRole 1 3 = some "member" := by
  have hsome : (runOf (checked (membership plainEnv).step ownersAsk) (acme annAndCid)
      (alone "rid_session=a" (.setMemberRole 3 "member") 4)).map
        (fun s => s.store.control.orgRole 1 3) = some (some "member") := by decide
  obtain ⟨s, hs, hend⟩ := Option.map_eq_some_iff.1 hsome
  exact ⟨s, owners_change_owners rfl (Run.of_runOf_checked (ownersAsk_sound plainEnv) hs), hend⟩

/-- An admin adds the owner as a member, and no owner stands behind it. -/
theorem admin_demotes_owner :
    ¬ ∀ (E : MembersEnv) (s s' : Membership) (es : List MemberEvent), s.inFlight = [] →
      Run (stepOf (membership E).step) s es s' →
      Run (Guarded (stepOf (membership E).step) (OwnersChangeOwners E)) s es s' := by
  intro hall
  -- the request up to its write, and the write
  let before : List MemberEvent :=
    .start (.arriving (.text "rid_session=b") (.addMember "ann@x" none)) ::
      List.replicate 2 (.advance 0 {})
  have hbefore : (runOf (membership plainEnv).step (acme annAndBob) before).map (fun s =>
      (s.store.control.orgRole 1 1, (s.inFlight[0]?).bind (MemberOp.ownerBehind plainEnv s.store))) =
      some (some "owner", none) := by decide
  have hafter : (runOf (membership plainEnv).step (acme annAndBob)
      (before ++ [.advance 0 {}])).map (fun s => s.store.control.orgRole 1 1) =
      some (some "member") := by decide
  obtain ⟨t, ht, hread⟩ := Option.map_eq_some_iff.1 hbefore
  obtain ⟨s, hs, hrole⟩ := Option.map_eq_some_iff.1 hafter
  rw [Prod.mk.injEq] at hread
  obtain ⟨t', hpre, hlast⟩ := (hall plainEnv _ s _ rfl (Run.of_runOf hs)).of_append
  cases (Run.of_runOf ht).deterministic hpre.of_guarded
  cases hlast with
  | cons hstep hnil =>
    cases hnil
    obtain ⟨i, chance, op, heq, hop, hbehind⟩ := hstep.2 1 1 hread.1 (by rw [hrole]; decide)
    cases heq
    rw [hop, Option.bind_some, hbehind] at hread
    exact nomatch hread.2

end ReproitCloud
