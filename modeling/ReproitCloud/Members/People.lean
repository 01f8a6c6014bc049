import ReproitCloud.Members.Owners

/-!
# The people of an organization

The people of an organization are its members and those its directory has provisioned.
`set_member_role` takes the id of any user.  For someone without a role in the
organization it adds a member, and the list of the members shows the email.

Two control planes that differ in the email of one user are run side by side
(`withEmail`).  A user who is not of the organization stays so, and all requests that
managers make to set roles and to see the members go the same way in both, with the same
replies, as long as no such request writes a role for that user.

* `role_requests_reach_own_people`: the law, for any order of the calls.
* `stranger_is_added`: an admin makes a member of a stranger, by the id.
-/

namespace ReproitCloud

open Lib

/-! ## Another email -/

/-- The control plane with another email for a user. -/
def ControlStore.withEmail (c : ControlStore) (user : Int64) (email : String) : ControlStore :=
  { c with users := c.users.update (fun k _ => k = user) fun _ u => { u with email := email } }

def MembersStore.withEmail (s : MembersStore) (user : Int64) (email : String) : MembersStore :=
  { s with control := s.control.withEmail user email }

/-- A user is no member of an organization, and not active in its directory. -/
structure MembersStore.Stranger (s : MembersStore) (org user : Int64) : Prop where
  member : s.control.members.get? (org, user) = none
  directory : ∀ r ∈ s.directory.rows, r.2.orgId = org → r.2.userId = user → r.2.active = false

section Emails

variable (c : ControlStore) (s : MembersStore) (user : Int64) (email : String)

theorem has_withEmail (k : Int64) : (c.withEmail user email).users.has k = c.users.has k := by
  simp [ControlStore.withEmail, Table.has]

theorem get?_withEmail_of_ne {k : Int64} (h : k ≠ user) :
    (c.withEmail user email).users.get? k = c.users.get? k := by
  simp [ControlStore.withEmail, h]

theorem addMember_withEmail (orgId userId : Int64) (role : String) :
    (c.withEmail user email).addMember orgId userId role =
      (c.addMember orgId userId role).map fun c' => c'.withEmail user email := by
  have hhas := has_withEmail c user email userId
  unfold ControlStore.addMember
  rw [hhas]
  show (if c.orgs.has orgId && c.users.has userId then _ else none) = _
  split <;> rfl

theorem writeRole_withEmail (orgId target : Int64) (role : String) (current : Option String) :
    writeRole (c.withEmail user email) orgId target role current =
      ((writeRole c orgId target role current).1.withEmail user email,
        (writeRole c orgId target role current).2) := by
  unfold writeRole
  split
  · rfl
  · split
    · rw [addMember_withEmail]
      cases c.addMember orgId target role <;> rfl
    · rfl

/-- The list of the members does not show a stranger. -/
theorem listOrgUsers_withEmail {org : Int64} (h : s.Stranger org user) :
    (s.withEmail user email).listOrgUsers org = s.listOrgUsers org := by
  have hscope : ∀ u ∈ s.scopedUsers org, u ≠ user := by
    rintro u hu rfl
    rcases List.mem_append.1 (List.mem_dedup.1 hu) with hu | hu
    · obtain ⟨⟨⟨o, v⟩, m⟩, hrow, rfl⟩ := List.mem_map.1 hu
      rw [List.mem_filter, decide_eq_true_eq] at hrow
      obtain ⟨hrow, rfl⟩ := hrow
      exact Table.get?_eq_none_iff.1 h.member m hrow
    · obtain ⟨r, hrow, hr⟩ := List.mem_map.1 hu
      rw [List.mem_filter, Bool.and_eq_true, decide_eq_true_eq] at hrow
      have := h.directory r hrow.1 hrow.2.1 hr
      rw [hrow.2.2] at this
      cases this
  have hlisted : (s.scopedUsers org).filterMap ((s.withEmail user email).listedUser org) =
      (s.scopedUsers org).filterMap (s.listedUser org) := by
    refine List.filterMap_congr fun u hu => ?_
    unfold MembersStore.listedUser
    rw [show (s.withEmail user email).control.users.get? u = s.control.users.get? u from
      get?_withEmail_of_ne s.control user email (hscope u hu)]
    rfl
  unfold MembersStore.listOrgUsers
  rw [show (s.withEmail user email).scopedUsers org = s.scopedUsers org from rfl, hlisted]

/-- A gate lets the same people in, with the email as it is. -/
theorem userAndOrg_withEmail (cfg : ServerConfig) (chance : GateChance) (req : Credentials) :
    userAndOrg cfg chance (c.withEmail user email) req =
      (userAndOrg cfg chance c req).map fun r =>
        (if r.1.id = user then { r.1 with email := email } else r.1, r.2) := by
  unfold userAndOrg
  cases cookieValue sessionCookieName req.cookie with
  | none => rfl
  | some token =>
    cases chance.sessionFails with
    | true => rfl
    | false =>
      simp only [Bool.false_eq_true, if_false]
      have hread : (c.withEmail user email).userAndOrgForSession chance.now (cfg.keyHash token) =
          (c.userAndOrgForSession chance.now (cfg.keyHash token)).map fun r =>
            (if r.1.id = user then { r.1 with email := email } else r.1, r.2) := by
        unfold ControlStore.userAndOrgForSession
        show (c.liveSession chance.now (cfg.keyHash token)).bind _ = _
        cases c.liveSession chance.now (cfg.keyHash token) with
        | none => rfl
        | some session =>
          simp only [Option.bind_some, ControlStore.withEmail, Table.get?_update]
          cases c.users.get? session.userId with
          | none => rfl
          | some row =>
            simp only [Option.map_some, Option.bind_some, Option.map_map, decide_eq_true_eq]
            show Option.map _ ((c.orgsOfUser session.userId).insertionSort _).head? = _
            refine congrArg (Option.map · _) (funext fun o => ?_)
            simp only [Function.comp_apply]
            split <;> rfl
      rw [hread]
      cases c.userAndOrgForSession chance.now (cfg.keyHash token) <;> rfl

end Emails

/-! ## Requests to manage roles -/

/-- The requests that set roles and show the members, on their way, of people who act for an
organization. -/
def MemberOp.Manages (org : Int64) : MemberOp → Prop
  | arriving _ request => request = .me ∨ ∃ user role, request = .setMemberRole user role
  | roleReading actor _ _ | roleCounting actor _ _ _ | roleWriting actor _ _ _ _ | listingKeys actor
  | listingMembers actor _ | listingOrgs actor _ _ | listingInvitations actor _ _ _ =>
    actor.org.id = org
  | replied _ => True
  | _ => False

/-- A run of such requests, in which time passes.  A gate lets only people in who act for the
organization. -/
def ManagesRoles (E : MembersEnv) (org : Int64) (s : Membership) (e : MemberEvent)
    (_ : Membership) : Prop :=
  match e with
  | .start op => op.Manages org
  | .advance i chance => ∀ cookie request, s.inFlight[i]? = some (.arriving cookie request) →
    ∀ r, userAndOrg E.cfg (chance.gate s.store) s.store.control (cookieCredentials cookie) = .ok r →
      r.2.id = org
  | .abandon _ => True
  | .commit c => ∃ now, c = .tick now

/-- No such request adds a user to the members. -/
def AddsNot (user : Int64) (s : Membership) (e : MemberEvent) (_ : Membership) : Prop :=
  match e with
  | .advance i chance => ∀ actor role current owners,
    s.inFlight[i]? = some (.roleWriting actor user role current owners) → role ≠ "none" →
      chance.result = .failed ∨
        (s.store.control.orgs.has actor.org.id && s.store.control.users.has user) = false
  | _ => True

/-- A run leaves the memberships of a user alone, and is the same whatever email the user
has: all requests are where they are, and have the same replies. -/
structure Untouched (E : MembersEnv) (user : Int64) (s : Membership) (es : List MemberEvent)
    (s' : Membership) : Prop where
  kept : ∀ org, s'.store.control.members.get? (org, user) = s.store.control.members.get? (org, user)
  blind : ∀ email, ∃ t, Run (stepOf (membership E).step)
    ⟨s.store.withEmail user email, s.inFlight⟩ es t ∧ t.inFlight = s'.inFlight

section People

variable {E : MembersEnv} {s : MembersStore} {org user : Int64} {op : MemberOp}
  {chance : MemberChance}

theorem manages_enter {actor : Actor} {request : MemberRequest} (horg : actor.org.id = org)
    (h : request = .me ∨ ∃ user role, request = .setMemberRole user role) :
    (request.enter E chance actor).Manages org := by
  obtain rfl | ⟨target, role, rfl⟩ := h
  · exact horg
  · simp only [MemberRequest.enter]
    repeat' split
    all_goals trivial

theorem manages_afterRoleRead {actor : Actor} (horg : actor.org.id = org) (target : Int64)
    (role : String) (current : Option String) :
    (afterRoleRead actor target role current).Manages org := by
  unfold afterRoleRead
  repeat' split
  all_goals trivial

/-- The gate of these requests. -/
theorem arrive_of_manages {cookie : Header} {request : MemberRequest}
    (h : (MemberOp.arriving cookie request).Manages org) :
    request.arrive E s chance cookie =
      match userAndOrg E.cfg (chance.gate s) s.control (cookieCredentials cookie) with
      | .error refusal => .replied refusal.reply
      | .ok (user, org) => request.enter E chance ⟨user, org⟩ := by
  obtain rfl | ⟨target, role, rfl⟩ := h <;> rfl

theorem manages_next (answered : Bool) (h : op.Manages org)
    (hgate : ∀ cookie request, op = .arriving cookie request → ∀ r,
      userAndOrg E.cfg (chance.gate s) s.control (cookieCredentials cookie) = .ok r → r.2.id = org) :
    (op.next E s chance answered).Manages org := by
  cases op with
  | arriving cookie request =>
    rw [MemberOp.next, arrive_of_manages h]
    split
    · trivial
    · rename_i u o hread
      exact manages_enter (hgate _ _ rfl _ hread) h
  | roleReading actor target role => exact manages_afterRoleRead h ..
  | roleCounting actor target role current =>
    simp only [MemberOp.next]
    generalize (if answered = true then s.control.countOwners actor.org.id else 1) = owners
    split
    · trivial
    · exact h
  | roleWriting actor target role current owners =>
    simp only [MemberOp.next]
    split <;> trivial
  | listingKeys actor | listingMembers actor keys => exact h
  | listingOrgs actor keys members =>
    simp only [MemberOp.next]
    split
    · exact h
    · trivial
  | listingInvitations actor keys members orgs | replied reply => trivial
  | _ => exact absurd h id

/-- The next call of such a request does not depend on the email of a stranger. -/
theorem next_withEmail (email : String) (answered : Bool) (h : op.Manages org)
    (hstranger : s.Stranger org user)
    (hgate : ∀ cookie request, op = .arriving cookie request → ∀ r,
      userAndOrg E.cfg (chance.gate s) s.control (cookieCredentials cookie) = .ok r → r.2.id = org) :
    op.next E (s.withEmail user email) chance answered = op.next E s chance answered := by
  cases op with
  | arriving cookie request =>
    rw [MemberOp.next, MemberOp.next, arrive_of_manages h, arrive_of_manages h]
    show (match userAndOrg E.cfg (chance.gate s) (s.control.withEmail user email) _ with
      | .error refusal => MemberOp.replied refusal.reply
      | .ok (user, org) => request.enter E chance ⟨user, org⟩) = _
    rw [userAndOrg_withEmail]
    cases hread : userAndOrg E.cfg (chance.gate s) s.control (cookieCredentials cookie) with
    | error refusal => rfl
    | ok r =>
      -- whoever acts for the organization is a member, and no stranger
      have hne : r.1.id ≠ user := by
        intro heq
        have hrole := orgRole_of_userAndOrg hread
        rw [hgate _ _ rfl _ hread, heq, ControlStore.orgRole, hstranger.member] at hrole
        cases hrole
      simp only [Except.map, if_neg hne]
  | roleWriting actor target role current owners =>
    simp only [MemberOp.next]
    rw [show (s.withEmail user email).control = s.control.withEmail user email from rfl,
      writeRole_withEmail]
  | listingMembers actor keys =>
    obtain rfl : actor.org.id = org := h
    simp only [MemberOp.next]
    rw [listOrgUsers_withEmail s user email hstranger]
  | roleReading actor target role | roleCounting actor target role current | listingKeys actor
  | listingOrgs actor keys members | listingInvitations actor keys members orgs
  | replied reply => rfl
  | _ => exact absurd h id

theorem effect_withEmail (email : String) (h : op.Manages org) :
    op.effect E (s.withEmail user email) chance = (op.effect E s chance).withEmail user email := by
  cases op with
  | roleWriting actor target role current owners =>
    simp only [MemberOp.effect]
    rw [show (s.withEmail user email).control = s.control.withEmail user email from rfl,
      writeRole_withEmail]
    rfl
  | arriving cookie request | roleReading actor target role | roleCounting actor target role current
  | listingKeys actor | listingMembers actor keys | listingOrgs actor keys members
  | listingInvitations actor keys members orgs | replied reply => rfl
  | _ => exact absurd h id

theorem memberNext_withEmail (email : String) (others : List MemberOp) (h : op.Manages org)
    (hstranger : s.Stranger org user)
    (hgate : ∀ cookie request, op = .arriving cookie request → ∀ r,
      userAndOrg E.cfg (chance.gate s) s.control (cookieCredentials cookie) = .ok r → r.2.id = org) :
    memberNext E (s.withEmail user email) others chance op =
      (memberNext E s others chance op).map fun r => (r.1.withEmail user email, r.2) := by
  have hnext := next_withEmail (E := E) email (chance.result = .answered) h hstranger hgate
  have heffect : op.effect E (s.withEmail user email) chance =
      (op.effect E s chance).withEmail user email := effect_withEmail email h
  have hcall :
      some (if chance.result = .failed then s.withEmail user email
          else op.effect E (s.withEmail user email) chance,
        some (op.next E (s.withEmail user email) chance (chance.result = .answered))) =
      (some (if chance.result = .failed then s else op.effect E s chance,
        some (op.next E s chance (chance.result = .answered)))).map
          fun r => (r.1.withEmail user email, r.2) := by
    rw [hnext, heffect]
    split <;> rfl
  cases op with
  | replied reply => rfl
  | arriving cookie request | roleReading actor target role | roleCounting actor target role current
  | roleWriting actor target role current owners
  | listingKeys actor | listingMembers actor keys | listingOrgs actor keys members
  | listingInvitations actor keys members orgs => exact hcall
  | _ => exact absurd h id

/-- A write of a role leaves a membership alone that it does not address, and the missing one
of a user whom it does not add. -/
theorem get?_writeRole (c : ControlStore) (orgId target : Int64) (role : String)
    (current : Option String) {key : Int64 × Int64}
    (h : key = (orgId, target) → c.members.get? key = none ∧
      (role ≠ "none" → (c.orgs.has orgId && c.users.has target) = false)) :
    (writeRole c orgId target role current).1.members.get? key = c.members.get? key := by
  unfold writeRole
  by_cases hkey : key = (orgId, target)
  · obtain ⟨hnone, hadds⟩ := h hkey
    split
    · simp [ControlStore.removeMember, hnone]
    · rename_i hrole
      split
      · rw [ControlStore.addMember, if_neg (by rw [hadds hrole]; decide)]
      · simp [ControlStore.setMemberRole, hnone]
  · split
    · exact c.get?_removeMember_ne orgId target hkey
    · split
      · have hadd := c.get?_addMember_ne orgId target role hkey
        cases hstmt : c.addMember orgId target role with
        | none => rfl
        | some c' => rwa [hstmt] at hadd
      · exact c.get?_setMemberRole_ne orgId target role hkey

theorem get?_effect (h : op.Manages org) (hstranger : s.Stranger org user)
    (hadds : ∀ actor role current owners, op = .roleWriting actor user role current owners →
      role ≠ "none" → (s.control.orgs.has actor.org.id && s.control.users.has user) = false)
    (o : Int64) :
    (op.effect E s chance).control.members.get? (o, user) = s.control.members.get? (o, user) := by
  cases op with
  | roleWriting actor target role current owners =>
    obtain rfl : actor.org.id = org := h
    refine get?_writeRole s.control actor.org.id target role current fun hkey => ?_
    cases hkey
    exact ⟨hstranger.member, hadds actor role current owners rfl⟩
  | arriving cookie request | roleReading actor target role | roleCounting actor target role current
  | listingKeys actor | listingMembers actor keys | listingOrgs actor keys members
  | listingInvitations actor keys members orgs | replied reply => rfl
  | _ => exact absurd h id

theorem directory_effect (h : op.Manages org) :
    (op.effect E s chance).directory = s.directory := by
  cases op with
  | roleWriting actor target role current owners | arriving cookie request
  | roleReading actor target role | roleCounting actor target role current
  | listingKeys actor | listingMembers actor keys | listingOrgs actor keys members
  | listingInvitations actor keys members orgs | replied reply => rfl
  | _ => exact absurd h id

/-- What a run of such requests keeps. -/
structure StaysStranger (org user : Int64) (s₀ : MembersStore) (s : Membership) : Prop where
  kept : ∀ o, s.store.control.members.get? (o, user) = s₀.control.members.get? (o, user)
  stranger : s.store.Stranger org user
  manages : ∀ op ∈ s.inFlight, op.Manages org

variable {s₀ : MembersStore} {t t' : Membership} {e : MemberEvent}

theorem staysStranger_step (h : StaysStranger org user s₀ t)
    (hstep : (membership E).step t e = some t') (hmanages : ManagesRoles E org t e t')
    (hadds : AddsNot user t e t') : StaysStranger org user s₀ t' := by
  cases Program.effect_of_step hstep with
  | @start op hstarts =>
    refine ⟨h.kept, h.stranger, fun o ho => ?_⟩
    rcases List.mem_append.1 ho with ho | ho
    · exact h.manages o ho
    · rw [List.mem_singleton.1 ho]
      exact hmanages
  | @advance i chance op store next hop hnext =>
    obtain ⟨rfl, rfl⟩ := memberNext_eq_some hnext
    have hthis := h.manages op (List.mem_of_getElem? hop)
    have hkept : ∀ o, (if chance.result = .failed then t.store
        else op.effect E t.store chance).control.members.get? (o, user) =
          t.store.control.members.get? (o, user) := by
      intro o
      split
      · rfl
      · rename_i hresult
        refine get?_effect hthis h.stranger (fun actor role current owners heq hrole => ?_) o
        subst heq
        exact (hadds actor role current owners hop hrole).resolve_left hresult
    refine ⟨fun o => (hkept o).trans (h.kept o), ⟨(hkept org).trans h.stranger.member, ?_⟩, ?_⟩
    · intro r hr
      refine h.stranger.directory r ?_
      simp only at hr
      split at hr
      · exact hr
      · rwa [directory_effect hthis] at hr
    · intro o ho
      rcases List.mem_append.1 ho with ho | ho
      · exact h.manages o (List.mem_of_mem_eraseIdx ho)
      · cases Option.mem_toList.1 ho
        refine manages_next _ hthis fun cookie request heq => ?_
        subst heq
        exact hmanages cookie request hop
  | abandon hop =>
    exact ⟨h.kept, h.stranger, fun o ho => h.manages o (List.mem_of_mem_eraseIdx ho)⟩
  | @commit c store hwrite =>
    obtain ⟨now, rfl⟩ := hmanages
    obtain ⟨-, heq⟩ := Option.ite_none_right_eq_some.1 hwrite
    cases heq
    exact ⟨h.kept, ⟨h.stranger.member, h.stranger.directory⟩, h.manages⟩

/-- The same event is possible whatever email a stranger has, and does the same. -/
theorem step_withEmail (email : String) (h : StaysStranger org user s₀ t)
    (hstep : (membership E).step t e = some t') (hmanages : ManagesRoles E org t e t') :
    (membership E).step ⟨t.store.withEmail user email, t.inFlight⟩ e =
      some ⟨t'.store.withEmail user email, t'.inFlight⟩ := by
  cases Program.effect_of_step hstep with
  | @start op hstarts => exact if_pos hstarts
  | @advance i chance op store next hop hnext =>
    have hsame : memberNext E (t.store.withEmail user email) (t.inFlight.eraseIdx i) chance op =
        (memberNext E t.store (t.inFlight.eraseIdx i) chance op).map fun r =>
          (r.1.withEmail user email, r.2) :=
      memberNext_withEmail email _ (h.manages op (List.mem_of_getElem? hop)) h.stranger
        fun cookie request heq => by subst heq; exact hmanages cookie request hop
    simp only [Program.step, hop, Option.bind_some]
    rw [show (membership E).next = memberNext E from rfl, hsame,
      show memberNext E t.store (t.inFlight.eraseIdx i) chance op = some (store, next) from hnext]
    rfl
  | @abandon i op hop => exact if_pos (List.getElem?_eq_some_iff.1 hop).1
  | @commit c store hwrite =>
    obtain ⟨now, rfl⟩ := hmanages
    obtain ⟨hle, heq⟩ := Option.ite_none_right_eq_some.1 hwrite
    cases heq
    show (commitMembers (t.store.withEmail user email) (.tick now)).map _ = _
    rw [commitMembers, if_pos (show (t.store.withEmail user email).now ≤ now from hle)]
    rfl

/-- In a run of requests to manage roles that does not add a stranger, the stranger stays
untouched. -/
theorem role_requests_reach_own_people {es : List MemberEvent} (hidle : t.inFlight = [])
    (hstranger : t.store.Stranger org user)
    (hrun : Run (Guarded (stepOf (membership E).step) fun s e s' =>
      ManagesRoles E org s e s' ∧ AddsNot user s e s') t es t') : Untouched E user t es t' := by
  have hinit : StaysStranger org user t.store t := by
    refine ⟨fun _ => rfl, hstranger, ?_⟩
    rw [hidle]
    exact fun op hop => nomatch hop
  refine ⟨(hrun.invariant_of_guarded (StaysStranger org user t.store)
    (fun _ _ _ h hstep hok => staysStranger_step h hstep hok.1 hok.2) hinit).kept, fun email => ?_⟩
  have hanswer : ∀ s e s' (u : Membership),
      (u = ⟨s.store.withEmail user email, s.inFlight⟩ ∧ StaysStranger org user t.store s) →
      Guarded (stepOf (membership E).step) (fun s e s' =>
        ManagesRoles E org s e s' ∧ AddsNot user s e s') s e s' →
      ∃ u', stepOf (membership E).step u e u' ∧
        (u' = ⟨s'.store.withEmail user email, s'.inFlight⟩ ∧
          StaysStranger org user t.store s') := by
    rintro s e s' u ⟨rfl, hs⟩ ⟨hstep, hmanages, hadds⟩
    exact ⟨_, step_withEmail email hs hstep hmanages, rfl,
      staysStranger_step hs hstep hmanages hadds⟩
  obtain ⟨u, hu, heq, -⟩ := hrun.simulate _ hanswer ⟨rfl, hinit⟩
  exact ⟨u, hu, by rw [heq]⟩

end People

/-- Both conditions, computed. -/
def managesBeside (E : MembersEnv) (org user : Int64) (s : Membership) : MemberEvent → Bool
  | .start (.arriving _ .me) | .start (.arriving _ (.setMemberRole _ _)) => true
  | .advance i chance => (s.inFlight[i]?).all fun op =>
      match op with
      | .arriving cookie _ =>
        match userAndOrg E.cfg (chance.gate s.store) s.store.control (cookieCredentials cookie) with
        | .ok r => r.2.id = org
        | .error _ => true
      | .roleWriting _ target role _ _ =>
        target ≠ user || role = "none" || chance.result = .failed
      | _ => true
  | .abandon _ => true
  | _ => false

theorem managesBeside_sound (E : MembersEnv) (org user : Int64) (s : Membership) (e : MemberEvent)
    (s' : Membership) (h : managesBeside E org user s e = true) :
    ManagesRoles E org s e s' ∧ AddsNot user s e s' := by
  cases e with
  | start op =>
    refine ⟨?_, trivial⟩
    cases op with
    | arriving cookie request =>
      cases request with
      | me => exact .inl rfl
      | setMemberRole target role => exact .inr ⟨target, role, rfl⟩
      | _ => cases h
    | _ => cases h
  | advance i chance =>
    constructor
    · intro cookie request hop r hread
      simp only [managesBeside, hop, Option.all_some, hread, decide_eq_true_eq] at h
      exact h
    · intro actor role current owners hop hrole
      simp only [managesBeside, hop, Option.all_some, ne_eq, not_true, decide_false,
        Bool.false_or, Bool.or_eq_true, decide_eq_true_eq] at h
      exact .inl (h.resolve_left hrole)
  | abandon i => exact ⟨trivial, trivial⟩
  | commit c => cases h

theorem cid_is_stranger : (acme annAndBob).store.Stranger 1 3 :=
  ⟨by decide, fun _ hr => nomatch hr⟩

/-- Ann names Cid, who is a stranger: the write of one request fails, and the other finds
nobody to remove. -/
def namesCid : List MemberEvent :=
  [.start (.arriving (.text "rid_session=a") (.setMemberRole 3 "member")), .advance 0 {},
    .advance 0 {}, .advance 0 { result := .failed }, .abandon 0] ++
    alone "rid_session=a" (.setMemberRole 3 "none") 2

/-- Ann makes Bob a member, names Cid and looks at the list. -/
theorem role_requests_reach_own_people_demoted :
    ∃ s, Untouched plainEnv 3 (acme annAndBob)
        (alone "rid_session=a" (.setMemberRole 2 "member") 3 ++ namesCid ++
          alone "rid_session=a" .me 5) s ∧
      s.store.control.orgRole 1 2 = some "member" := by
  have hsome : (runOf (checked (membership plainEnv).step (managesBeside plainEnv 1 3))
      (acme annAndBob) (alone "rid_session=a" (.setMemberRole 2 "member") 3 ++ namesCid ++
        alone "rid_session=a" .me 5)).map (fun s => s.store.control.orgRole 1 2) =
      some (some "member") := by decide
  obtain ⟨s, hs, hend⟩ := Option.map_eq_some_iff.1 hsome
  have hrun : Run (Guarded (stepOf (membership plainEnv).step) fun s e s' =>
      ManagesRoles plainEnv 1 s e s' ∧ AddsNot 3 s e s') (acme annAndBob) _ s :=
    Run.of_runOf_checked (managesBeside_sound plainEnv 1 3) hs
  exact ⟨s, role_requests_reach_own_people rfl cid_is_stranger hrun, hend⟩

/-- An admin sets a role for the id of a stranger, who is a member then. -/
theorem stranger_is_added :
    ¬ ∀ (E : MembersEnv) (org user : Int64) (s s' : Membership) (es : List MemberEvent),
      s.inFlight = [] → s.store.Stranger org user →
      Run (Guarded (stepOf (membership E).step) (ManagesRoles E org)) s es s' →
      Untouched E user s es s' := by
  intro hall
  have hsome : (runOf (checked (membership plainEnv).step (managesBeside plainEnv 1 4))
      (acme annAndBob) (alone "rid_session=b" (.setMemberRole 3 "member") 3)).map
        (fun s => (s.store.control.members.get? (1, 3)).isSome) = some true := by decide
  obtain ⟨s, hs, hadded⟩ := Option.map_eq_some_iff.1 hsome
  have hrun : Run (Guarded (stepOf (membership plainEnv).step) (ManagesRoles plainEnv 1))
      (acme annAndBob) _ s :=
    Run.of_runOf_checked (fun s e s' h => (managesBeside_sound plainEnv 1 4 s e s' h).1) hs
  have hkept := (hall plainEnv 1 3 _ s _ rfl cid_is_stranger hrun).kept 1
  rw [hkept] at hadded
  revert hadded
  decide

end ReproitCloud
