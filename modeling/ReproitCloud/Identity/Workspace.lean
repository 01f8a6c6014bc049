import ReproitCloud.Identity.Flows

/-!
# One personal workspace

A personal organization is there for good once it was created, and so is a membership.  What
`primary_org` finds is any organization that the user is a member of (`Housed`).

* `one_workspace`: a user gets one personal organization, and whoever logs in alone is a
  member of an organization after it.  It is so as long as an organization is created only
  while the user still has none, with the memberships of the earlier ones written, and the
  signup on a server that hosts itself gets as far as the membership.
* `workspace_is_doubled`: two logins both find none, and both create one.
-/

namespace ReproitCloud

open Lib

/-! ## Members of an organization -/

/-- A user has an organization exactly when `primary_org` finds one. -/
theorem ControlStore.primaryOrg_eq_none_iff {c : ControlStore} {u : Int64} :
    c.primaryOrg u = none ↔ ∀ o, c.members.has (o, u) = true → c.orgs.has o = false := by
  have hnil : c.primaryOrg u = none ↔ c.orgsOfUser u = [] := by
    rw [primaryOrg, Option.map_eq_none_iff, List.head?_eq_none_iff, ← List.length_eq_zero_iff,
      (List.perm_insertionSort _ _).length_eq, List.length_eq_zero_iff]
  rw [hnil, orgsOfUser, List.filterMap_eq_nil_iff]
  constructor
  · intro hall o hmember
    obtain ⟨m, hm⟩ := Option.isSome_iff_exists.1 hmember
    have := hall ((o, u), m) (Table.get?_eq_some_iff.1 hm)
    rw [if_pos rfl, Option.map_eq_none_iff] at this
    exact Table.has_eq_false_iff.2 this
  · intro hall r hr
    split
    · rename_i hu
      have hmember : c.members.has (r.1.1, u) = true := by
        rw [Table.has_iff_mem_keys, ← hu]
        exact List.mem_map_of_mem hr
      rw [Table.has_eq_false_iff.1 (hall r.1.1 hmember), Option.map_none]
    · rfl

namespace IdentityStore

/-- The user is a member of an organization. -/
def Housed (s : IdentityStore) (u : Int64) : Prop :=
  ∃ o, s.control.orgs.has o = true ∧ s.control.members.has (o, u) = true

theorem primaryOrg_ne_none {s : IdentityStore} {u : Int64} (h : s.control.primaryOrg u ≠ none) :
    s.Housed u := by
  by_contra hnot
  apply h
  rw [ControlStore.primaryOrg_eq_none_iff]
  intro o hmember
  by_contra horg
  exact hnot ⟨o, Bool.not_eq_false _ ▸ horg, hmember⟩

/-- No user, organization or membership is taken away. -/
structure Grows (s s' : IdentityStore) : Prop where
  users : ∀ u, s.control.users.has u = true → s'.control.users.has u = true
  orgs : ∀ o, s.control.orgs.has o = true → s'.control.orgs.has o = true
  members : ∀ k, s.control.members.has k = true → s'.control.members.has k = true

theorem Grows.refl (s : IdentityStore) : s.Grows s := ⟨fun _ => id, fun _ => id, fun _ => id⟩

theorem Grows.housed {s s' : IdentityStore} {u : Int64} (h : s.Grows s') (hu : s.Housed u) :
    s'.Housed u := by
  obtain ⟨o, horg, hmember⟩ := hu
  exact ⟨o, h.orgs o horg, h.members _ hmember⟩

end IdentityStore

/-! ## What a call adds -/

section Calls

variable {E : IdentityEnv} {s s' : IdentityStore} {chance : IdentityChance} {op : IdentityOp}

theorem has_users_createUser {id : Int64} {email passHash : String}
    (h : s.createUser id email passHash = some s') (u : Int64) :
    s'.control.users.has u = (decide (u = id) || s.control.users.has u) := by
  obtain ⟨-, h⟩ := Option.ite_none_right_eq_some.1 h
  obtain ⟨users, hins, rfl⟩ := Option.map_eq_some_iff.1 h
  exact Table.has_insert? hins u

theorem grows_createUser {id : Int64} {email passHash : String}
    (h : s.createUser id email passHash = some s') : s.Grows s' := by
  refine ⟨fun u hu => ?_, ?_, ?_⟩
  · rw [has_users_createUser h, hu, Bool.or_true]
  all_goals
    obtain ⟨-, h⟩ := Option.ite_none_right_eq_some.1 h
    obtain ⟨users, -, rfl⟩ := Option.map_eq_some_iff.1 h
    exact fun _ h => h

theorem has_orgs_createOrg {c c' : ControlStore} {id : Int64} {name : String} {personal : Bool}
    (h : c.createOrg id name personal = some c') (o : Int64) :
    c'.orgs.has o = (decide (o = id) || c.orgs.has o) := by
  obtain ⟨orgs, hins, rfl⟩ := Option.map_eq_some_iff.1 h
  exact Table.has_insert? hins o

/-- The users, organizations and memberships are the same. -/
structure SameAccounts (s s' : IdentityStore) : Prop where
  users : s'.control.users = s.control.users
  orgs : s'.control.orgs = s.control.orgs
  members : s'.control.members = s.control.members
  personal : s'.personal = s.personal

theorem SameAccounts.grows (h : SameAccounts s s') : s.Grows s' :=
  ⟨fun _ => h.users ▸ id, fun _ => h.orgs ▸ id, fun _ => h.members ▸ id⟩

theorem sameAccounts_createSession (now : Micros) (hash : String) (userId : Int64) (ttl : Micros) :
    SameAccounts s (s.setControl ((s.control.createSession now hash userId ttl).getD s.control)) := by
  unfold ControlStore.createSession
  split
  · cases s.control.sessions.insert? hash _ <;> exact ⟨rfl, rfl, rfl, rfl⟩
  · exact ⟨rfl, rfl, rfl, rfl⟩

theorem sameAccounts_createEmailToken (hash : String) (userId : Int64) (purpose : String)
    (ttl : Micros) : SameAccounts s ((s.createEmailToken hash userId purpose ttl).getD s) := by
  unfold IdentityStore.createEmailToken
  split
  · cases s.emailTokens.insert? hash _ <;> exact ⟨rfl, rfl, rfl, rfl⟩
  · exact ⟨rfl, rfl, rfl, rfl⟩

theorem sameAccounts_consumeEmailToken (hash purpose : String) :
    SameAccounts s (s.consumeEmailToken hash purpose).1 := by
  unfold IdentityStore.consumeEmailToken
  cases s.emailToken hash purpose <;> exact ⟨rfl, rfl, rfl, rfl⟩

/-- What a call may add: a user, an organization or a membership. -/
theorem effect_cases (E : IdentityEnv) (s : IdentityStore) (chance : IdentityChance)
    (op : IdentityOp) :
    SameAccounts s (op.effect E s chance) ∨
      (∃ c hash, op = .signingUp c ∧ E.signupRefusal c = none ∧ chance.hash = some hash ∧
        s.createUser chance.userId (E.emailOf c) hash = some (op.effect E s chance)) ∨
      (∃ flow u c, op = .orgCreating flow u ∧
        s.control.createOrg chance.orgId "Personal" true = some c ∧
        op.effect E s chance =
          { s.setControl c with personal := s.personal ++ [(u, chance.orgId)] }) ∨
      ∃ flow u o, op = .ownerAdding flow u o ∧
        op.effect E s chance =
          s.setControl ((s.control.addMember o u "owner").getD s.control) := by
  cases op with
  | signingUp c =>
    simp only [IdentityOp.effect]
    split
    · rename_i hash hrefusal hhash
      cases hcreate : s.createUser chance.userId (E.emailOf c) hash with
      | none => exact .inl ⟨rfl, rfl, rfl, rfl⟩
      | some s' => exact .inr (.inl ⟨c, hash, rfl, hrefusal, hhash, hcreate⟩)
    · exact .inl ⟨rfl, rfl, rfl, rfl⟩
  | consuming q => exact .inl (sameAccounts_consumeEmailToken _ _)
  | tokenCreating userId reply => exact .inl (sameAccounts_createEmailToken _ _ _ _)
  | orgCreating flow userId =>
    simp only [IdentityOp.effect]
    split
    · rename_i c hcreate
      exact .inr (.inr (.inl ⟨flow, userId, c, rfl, hcreate, rfl⟩))
    · exact .inl ⟨rfl, rfl, rfl, rfl⟩
  | ownerAdding flow userId orgId => exact .inr (.inr (.inr ⟨flow, userId, orgId, rfl, rfl⟩))
  | sessionCreating flow userId validInvite => exact .inl (sameAccounts_createSession _ _ _ _)
  | auditing flow userId validInvite => cases flow <;> exact .inl ⟨rfl, rfl, rfl, rfl⟩
  | _ => exact .inl ⟨rfl, rfl, rfl, rfl⟩

theorem has_users_userAuthByEmail {email hash : String} {u : Int64}
    (h : s.userAuthByEmail email = some (u, hash)) : s.control.users.has u = true := by
  obtain ⟨id, hfind, hrow⟩ := Option.bind_eq_some_iff.1 h
  obtain ⟨row, -, heq⟩ := Option.map_eq_some_iff.1 hrow
  cases heq
  obtain ⟨r, hr, rfl⟩ := Option.map_eq_some_iff.1 hfind
  rw [Table.has_iff_mem_keys]
  exact List.mem_map_of_mem (List.mem_of_find?_eq_some hr)

theorem grows_effect (E : IdentityEnv) (s : IdentityStore) (chance : IdentityChance)
    (op : IdentityOp) : s.Grows (op.effect E s chance) := by
  obtain hsame | ⟨c, hash, rfl, -, -, hcreate⟩ | ⟨flow, u, c, rfl, hcreate, heq⟩ |
      ⟨flow, u, o, rfl, heq⟩ := effect_cases E s chance op
  · exact hsame.grows
  · exact grows_createUser hcreate
  · rw [heq]
    obtain ⟨orgs, hins, rfl⟩ := Option.map_eq_some_iff.1 hcreate
    refine ⟨fun _ h => h, fun o ho => ?_, fun _ h => h⟩
    show orgs.has o = true
    rw [Table.has_insert? hins, ho, Bool.or_true]
  · rw [heq]
    unfold ControlStore.addMember
    split
    · refine ⟨fun _ h => h, fun _ h => h, fun k hk => ?_⟩
      show (s.control.members.upsert (o, u) _ _).has k = true
      rw [Table.has_upsert, hk, Bool.or_true]
    · exact .refl s

/-- `add_member` gives the user an organization. -/
theorem housed_ownerAdding (E : IdentityEnv) (chance : IdentityChance) (flow : IdentityFlow)
    {u o : Int64}
    (huser : s.control.users.has u = true) (horg : s.control.orgs.has o = true) :
    (IdentityOp.effect E s chance (.ownerAdding flow u o)).Housed u := by
  refine ⟨o, (grows_effect E s chance (.ownerAdding flow u o)).orgs o horg, ?_⟩
  simp only [IdentityOp.effect, IdentityStore.setControl, ControlStore.addMember, horg, huser,
    Bool.and_self, if_true, Option.getD_some]
  rw [Table.has_upsert, decide_eq_true rfl, Bool.true_or]

/-- Only `create_org` adds to the personal organizations. -/
theorem personal_effect (E : IdentityEnv) (s : IdentityStore) (chance : IdentityChance)
    (op : IdentityOp) :
    (op.effect E s chance).personal = s.personal ∨
      ∃ flow u, op = .orgCreating flow u ∧
        (op.effect E s chance).personal = s.personal ++ [(u, chance.orgId)] ∧
        (op.effect E s chance).control.orgs.has chance.orgId = true := by
  obtain hsame | ⟨c, hash, rfl, -, -, hcreate⟩ | ⟨flow, u, c, rfl, hcreate, heq⟩ |
      ⟨flow, u, o, rfl, heq⟩ := effect_cases E s chance op
  · exact .inl hsame.personal
  · obtain ⟨-, hcreate⟩ := Option.ite_none_right_eq_some.1 hcreate
    obtain ⟨users, -, heq⟩ := Option.map_eq_some_iff.1 hcreate
    rw [← heq]
    exact .inl rfl
  · rw [heq]
    refine .inr ⟨flow, u, rfl, rfl, ?_⟩
    show c.orgs.has chance.orgId = true
    rw [has_orgs_createOrg hcreate, decide_eq_true rfl, Bool.true_or]
  · rw [heq]
    exact .inl rfl

end Calls

/-! ## One organization for a user -/

/-- How many personal organizations were created for a user. -/
def IdentityStore.personalOrgs (s : IdentityStore) (u : Int64) : Nat :=
  s.personal.countP fun p => p.1 = u

/-- An organization is created for a user who still has none, and those that were created
before have got their owner. -/
def StillUnhoused (u : Int64) (s : Identities) : IdentityEvent → Identities → Prop
  | .advance i chance, _ => ∀ flow, s.inFlight[i]? = some (.orgCreating flow u) →
      chance.result ≠ .failed →
      s.store.control.primaryOrg u = none ∧
        ∀ o, (u, o) ∈ s.store.personal → s.store.control.members.has (o, u) = true
  | _, _ => True

/-- The personal organizations of a user exist, and there is at most one. -/
structure OneWorkspace (u : Int64) (s : IdentityStore) : Prop where
  created : ∀ o, (u, o) ∈ s.personal → s.control.orgs.has o = true
  atMost : s.personalOrgs u ≤ 1

theorem oneWorkspace_step {E : IdentityEnv} {u : Int64} {t t' : Identities} {e : IdentityEvent}
    (h : OneWorkspace u t.store) (hstep : (identity E).step t e = some t')
    (hstill : StillUnhoused u t e t') : OneWorkspace u t'.store := by
  cases Program.effect_of_step hstep with
  | start _ => exact h
  | abandon _ => exact h
  | commit hwrite =>
    obtain ⟨-, heq⟩ := Option.ite_none_right_eq_some.1 hwrite
    cases heq
    exact ⟨h.created, h.atMost⟩
  | @advance i chance op store next hop hnext =>
    obtain ⟨rfl, -⟩ := identityNext_eq_some hnext
    simp only
    split
    · exact h
    · rename_i hresult
      have hgrows := grows_effect E t.store chance op
      rcases personal_effect E t.store chance op with
        hsame | ⟨flow, v, rfl, hadded, hexists⟩
      · refine ⟨fun o ho => hgrows.orgs o (h.created o (hsame ▸ ho)), ?_⟩
        rw [IdentityStore.personalOrgs, hsame]
        exact h.atMost
      · refine ⟨fun o ho => ?_, ?_⟩
        · rw [hadded, List.mem_append, List.mem_singleton] at ho
          rcases ho with ho | ho
          · exact hgrows.orgs o (h.created o ho)
          · cases ho
            exact hexists
        · rw [IdentityStore.personalOrgs, hadded, List.countP_append, List.countP_singleton]
          by_cases hv : v = u
          · -- a user without an organization has had none created
            subst hv
            obtain ⟨hnone, howned⟩ := hstill flow hop hresult
            rw [ControlStore.primaryOrg_eq_none_iff] at hnone
            have hzero : (t.store.personal.countP fun p => p.1 = v) = 0 := by
              rw [List.countP_eq_zero]
              rintro ⟨w, o⟩ ho hw
              have hw : w = v := of_decide_eq_true hw
              subst hw
              have := h.created o ho
              rw [hnone o (howned o ho)] at this
              cases this
            rw [hzero]
            split <;> omega
          · rw [if_neg (by simpa using hv)]
            exact h.atMost

/-! ## A signup that settles its user -/

/-- No request carries an invitation. -/
def Uninvited (_ : Identities) : IdentityEvent → Identities → Prop
  | .start (.signingUp c), _ | .start (.authReading c), _ => c.invite = none
  | .start (.consuming q), _ => q.invite = none
  | _, _ => True

namespace IdentityOp

/-- The user whose first membership a signup has still to write. -/
def settling : IdentityOp → Option Int64
  | signedUp _ userId | joinReading _ userId | orgCreating (.signup _) userId
  | ownerAdding (.signup _) userId _ => some userId
  | _ => none

/-- What a request without an invitation knows. -/
def Grounded (s : IdentityStore) : IdentityOp → Prop
  | signingUp c => c.invite = none
  | signedUp c userId => c.invite = none ∧ s.control.users.has userId = true
  | joinReading _ _ | primaryReading (.signup _) _ => False
  | orgCreating (.signup _) userId => s.control.users.has userId = true
  | ownerAdding (.signup _) userId orgId =>
    s.control.users.has userId = true ∧ s.control.orgs.has orgId = true
  | _ => True

/-- A step of a signup that loses nothing of the user `u`. -/
def Settles (E : IdentityEnv) (u : Int64) (s : IdentityStore) (chance : IdentityChance)
    (op : IdentityOp) : Prop :=
  match op with
  | signingUp _ => chance.result = .unanswered →
      (op.effect E s chance).control.users.has u = true → s.control.users.has u = true
  | orgCreating (.signup _) userId => userId = u →
      chance.result = .answered ∧ s.control.orgs.has chance.orgId = false
  | ownerAdding (.signup _) userId _ => userId = u → chance.result ≠ .failed
  | _ => True

end IdentityOp

/-- The signup of the user `u` writes the membership once the user is created. -/
def SignupSettles (E : IdentityEnv) (u : Int64) (t : Identities) :
    IdentityEvent → Identities → Prop
  | .advance i chance, _ => ∀ op, t.inFlight[i]? = some op → op.Settles E u t.store chance
  | .abandon i, _ => ∀ op, t.inFlight[i]? = some op → op.settling ≠ some u
  | _, _ => True

section Settled

variable {E : IdentityEnv} {u : Int64} {s s' : IdentityStore} {chance : IdentityChance}
  {op : IdentityOp}

theorem grounded_mono (hgrows : s.Grows s') (h : op.Grounded s) : op.Grounded s' := by
  cases op with
  | signedUp c userId => exact ⟨h.1, hgrows.users _ h.2⟩
  | orgCreating flow userId =>
    cases flow with
    | signup c => exact hgrows.users _ h
    | verify _ | login _ => trivial
  | ownerAdding flow userId orgId =>
    cases flow with
    | signup c => exact ⟨hgrows.users _ h.1, hgrows.orgs _ h.2⟩
    | verify _ | login _ => trivial
  | primaryReading flow userId => cases flow <;> exact h
  | _ => exact h

theorem grounded_ite {p : Prop} [Decidable p] {op' : IdentityOp} (h : op.Grounded s)
    (h' : op'.Grounded s) : (if p then op else op').Grounded s := by
  split
  · exact h
  · exact h'

theorem grounded_afterProvision (flow : IdentityFlow) (userId : Int64) :
    (afterProvision flow userId).Grounded s := by
  cases flow <;> trivial

theorem grounded_afterSession (flow : IdentityFlow) (userId : Int64) (validInvite : Bool)
    (session : String) : (afterSession E flow userId validInvite session).Grounded s := by
  cases flow with
  | verify q => trivial
  | signup c | login c => simp only [afterSession]; split <;> trivial

/-- A call leads to where a request without an invitation may be. -/
theorem grounded_next (h : op.Grounded s) (hgrows : s.Grows s')
    (heffect : chance.result = .answered → s' = op.effect E s chance) :
    (op.next E s chance (chance.result = .answered)).Grounded s' := by
  cases op with
  | signingUp c =>
    simp only [IdentityOp.next]
    cases hrefusal : E.signupRefusal c with
    | some refusal =>
      have : ∃ status msg, refusal = identityErr status msg := by
        simp only [IdentityEnv.signupRefusal] at hrefusal
        split at hrefusal
        · exact ⟨_, _, (Option.some.inj hrefusal).symm⟩
        · split at hrefusal
          · exact ⟨_, _, (Option.some.inj hrefusal).symm⟩
          · cases hrefusal
      obtain ⟨status, msg, rfl⟩ := this
      trivial
    | none =>
      cases hhash : chance.hash with
      | none => trivial
      | some hash =>
        simp only
        split
        · rename_i hcreated
          obtain ⟨hanswered, hcreated⟩ := Bool.and_eq_true_iff.1 hcreated
          obtain ⟨s'', hs''⟩ := Option.isSome_iff_exists.1 hcreated
          have hstore : s' = s'' := by
            rw [heffect (of_decide_eq_true hanswered)]
            simp only [IdentityOp.effect, hrefusal, hhash, hs'', Option.getD_some]
          refine ⟨h, ?_⟩
          rw [hstore, has_users_createUser hs'', decide_eq_true rfl, Bool.true_or]
        · trivial
  | signedUp c userId =>
    simp only [IdentityOp.next, h.1, Option.isSome_none]
    split
    · trivial
    · exact hgrows.users userId h.2
  | joinReading c userId => exact h.elim
  | orgCreating flow userId =>
    simp only [IdentityOp.next]
    split
    · rename_i hcreated
      obtain ⟨hanswered, hcreated⟩ := Bool.and_eq_true_iff.1 hcreated
      cases flow with
      | signup c =>
        obtain ⟨c', hc'⟩ := Option.isSome_iff_exists.1 hcreated
        refine ⟨hgrows.users userId h, ?_⟩
        rw [heffect (of_decide_eq_true hanswered)]
        simp only [IdentityOp.effect, hc']
        show c'.orgs.has chance.orgId = true
        rw [has_orgs_createOrg hc', decide_eq_true rfl, Bool.true_or]
      | verify _ | login _ => trivial
    · trivial
  | consuming q => simp only [IdentityOp.next]; split <;> trivial
  | marking flow userId => cases flow <;> trivial
  | emailReading q userId => simp only [IdentityOp.next]; split <;> trivial
  | inviteReading q userId email => exact grounded_ite trivial trivial
  | authReading c =>
    simp only [IdentityOp.next]
    split
    · trivial
    · split
      · trivial
      · exact grounded_ite trivial (grounded_ite trivial trivial)
  | verifiedReading c userId => exact grounded_ite trivial trivial
  | tokenCreating userId reply => exact grounded_ite trivial trivial
  | primaryReading flow userId =>
    cases flow with
    | signup c => exact h.elim
    | verify _ | login _ => exact grounded_ite trivial (grounded_afterProvision _ userId)
  | provisioning flow userId orgId => exact grounded_ite (grounded_afterProvision flow userId) trivial
  | auditing flow userId validInvite =>
    cases flow with
    | login c => exact grounded_ite trivial trivial
    | signup _ | verify _ => trivial
  | sessionCreating flow userId validInvite =>
    refine grounded_ite (grounded_afterSession flow userId validInvite chance.token) ?_
    cases flow <;> trivial
  | orgSetting flow userId orgId session => cases flow <;> trivial
  | planReading flow userId session => cases flow <;> trivial
  | _ => trivial

/-- A call of a signup goes on until the user has an organization. -/
theorem settling_next (hself : E.cfg.selfHosted = true) (h : op.Grounded s)
    (hsettling : op.settling = some u) (hsettles : op.Settles E u s chance) :
    (op.next E s chance (chance.result = .answered)).settling = some u ∨
      (chance.result ≠ .failed ∧ (op.effect E s chance).Housed u) := by
  cases op with
  | signedUp c userId =>
    left
    simp only [IdentityOp.next, h.1, Option.isSome_none, hself, Bool.not_true, Bool.false_eq_true,
      if_false]
    exact hsettling
  | orgCreating flow userId =>
    cases flow with
    | signup c =>
      left
      obtain ⟨hanswered, hfresh⟩ := hsettles (Option.some.inj hsettling)
      have hcreated : (s.control.createOrg chance.orgId "Personal" true).isSome = true := by
        simp [ControlStore.createOrg, Table.insert?, hfresh]
      simp only [IdentityOp.next, hanswered, hcreated, decide_true, Bool.and_true, if_true]
      exact hsettling
    | verify _ | login _ => cases hsettling
  | ownerAdding flow userId orgId =>
    cases flow with
    | signup c =>
      have hu : userId = u := Option.some.inj hsettling
      subst hu
      exact .inr ⟨hsettles rfl, housed_ownerAdding E chance _ h.1 h.2⟩
    | verify _ | login _ => cases hsettling
  | joinReading c userId => exact h.elim
  | _ => cases hsettling

/-- A user who was not there is that of a signup. -/
theorem settling_created (hsettles : op.Settles E u s chance) (hresult : chance.result ≠ .failed)
    (hbefore : s.control.users.has u = false)
    (hafter : (op.effect E s chance).control.users.has u = true) :
    (op.next E s chance (chance.result = .answered)).settling = some u := by
  have hsame : ∀ s' : IdentityStore, s'.control.users = s.control.users → s'.control.users.has u ≠ true := by
    intro s' husers
    rw [husers, hbefore]
    exact Bool.false_ne_true
  obtain hkept | ⟨c, hash, rfl, hrefusal, hhash, hcreate⟩ | ⟨flow, v, c, rfl, hcreate, heq⟩ |
      ⟨flow, v, o, rfl, heq⟩ := effect_cases E s chance op
  · exact absurd hafter (hsame _ hkept.users)
  · have hanswered : chance.result = .answered := by
      cases hres : chance.result with
      | answered => rfl
      | failed => exact absurd hres hresult
      | unanswered => exact absurd (hsettles hres hafter) (hbefore ▸ Bool.false_ne_true)
    rw [has_users_createUser hcreate, hbefore, Bool.or_false, decide_eq_true_eq] at hafter
    simp only [IdentityOp.next, hrefusal, hhash, hanswered, hcreate, decide_true,
      Option.isSome_some, Bool.and_self, if_true]
    rw [hafter]
    rfl
  · refine absurd hafter (hsame _ ?_)
    rw [heq]
    obtain ⟨orgs, -, rfl⟩ := Option.map_eq_some_iff.1 hcreate
    rfl
  · refine absurd hafter (hsame _ ?_)
    rw [heq]
    unfold ControlStore.addMember
    split <;> rfl

/-- A user has an organization, or a signup is on the way to it. -/
structure Settled (u : Int64) (t : Identities) : Prop where
  grounded : ∀ op ∈ t.inFlight, op.Grounded t.store
  housed : t.store.control.users.has u = true →
    t.store.Housed u ∨ ∃ op ∈ t.inFlight, op.settling = some u

theorem settled_step {t t' : Identities} {e : IdentityEvent} (hself : E.cfg.selfHosted = true)
    (h : Settled u t) (hstep : (identity E).step t e = some t') (huninvited : Uninvited t e t')
    (hsettles : SignupSettles E u t e t') : Settled u t' := by
  cases Program.effect_of_step hstep with
  | @start op hstarts =>
    refine ⟨fun o ho => ?_, fun hu => (h.housed hu).imp_right fun ⟨o, ho, hsettling⟩ =>
      ⟨o, List.mem_append_left _ ho, hsettling⟩⟩
    rcases List.mem_append.1 ho with ho | ho
    · exact h.grounded o ho
    · rw [List.mem_singleton.1 ho]
      cases op with
      | signingUp c => exact huninvited
      | consuming _ | authReading _ => trivial
      | _ => cases hstarts
  | @abandon i op hop =>
    refine ⟨fun o ho => h.grounded o (List.mem_of_mem_eraseIdx ho), fun hu => ?_⟩
    refine (h.housed hu).imp_right fun ⟨o, ho, hsettling⟩ => ?_
    rcases (mem_iff_eraseIdx hop).1 ho with rfl | ho
    · exact absurd hsettling (hsettles o hop)
    · exact ⟨o, ho, hsettling⟩
  | commit hwrite =>
    obtain ⟨-, heq⟩ := Option.ite_none_right_eq_some.1 hwrite
    cases heq
    exact ⟨fun o ho => grounded_mono ⟨fun _ h => h, fun _ h => h, fun _ h => h⟩ (h.grounded o ho),
      h.housed⟩
  | @advance i chance op store next hop hnext =>
    obtain ⟨hstore, rfl⟩ := identityNext_eq_some hnext
    have hgrows : t.store.Grows store := by
      rw [hstore]
      split
      · exact .refl t.store
      · exact grows_effect E t.store chance op
    have heffect : chance.result ≠ .failed → store = op.effect E t.store chance := fun hresult => by
      rw [hstore, if_neg hresult]
    have hgrounded := h.grounded op (List.mem_of_getElem? hop)
    refine ⟨fun o ho => ?_, fun hu => ?_⟩
    · rcases List.mem_append.1 ho with ho | ho
      · exact grounded_mono hgrows (h.grounded o (List.mem_of_mem_eraseIdx ho))
      · cases Option.mem_toList.1 ho
        exact grounded_next hgrounded hgrows fun hanswered => heffect (by rw [hanswered]; decide)
    · have harrives : ∀ op', op' ∈ (t.inFlight.eraseIdx i ++ [op.next E t.store chance
          (chance.result = .answered)]) ↔ op' ∈ t.inFlight.eraseIdx i ∨
            op' = op.next E t.store chance (chance.result = .answered) := by
        intro op'
        rw [List.mem_append, List.mem_singleton]
      by_cases hbefore : t.store.control.users.has u = true
      · rcases h.housed hbefore with hhoused | ⟨o, ho, hsettling⟩
        · exact .inl (hgrows.housed hhoused)
        · rcases (mem_iff_eraseIdx hop).1 ho with rfl | ho
          · rcases settling_next hself hgrounded hsettling (hsettles o hop) with hgoes | hends
            · exact .inr ⟨_, (harrives _).2 (.inr rfl), hgoes⟩
            · exact .inl (heffect hends.1 ▸ hends.2)
          · exact .inr ⟨o, (harrives o).2 (.inl ho), hsettling⟩
      · -- the user is new
        have hresult : chance.result ≠ .failed := by
          intro hfailed
          rw [hstore, if_pos hfailed] at hu
          exact hbefore hu
        rw [heffect hresult] at hu
        exact .inr ⟨_, (harrives _).2 (.inr rfl),
          settling_created (hsettles op hop) hresult (Bool.not_eq_true _ ▸ hbefore) hu⟩

end Settled

/-! ## A login alone -/

/-- What a login meets whose password is right and whose user may sign in. -/
structure LogsIn (E : IdentityEnv) (s : IdentityStore) (c : Creds) (u : Int64) : Prop where
  allowed : E.loginDenied (E.emailOf c) = none
  known : ∃ hash, s.userAuthByEmail (E.emailOf c) = some (u, hash) ∧
    E.verifyPassword c.password hash = true
  verified : E.cfg.selfHosted = false → s.emailVerified u = true

/-- A request that is alone and whose calls are answered ends, and the user has an
organization. -/
def EndsHoused (E : IdentityEnv) (chance : IdentityChance) (u : Int64) (s : IdentityStore)
    (op : IdentityOp) : Prop :=
  ∃ k t, runOf (identity E).step ⟨s, [op]⟩ (List.replicate k (.advance 0 chance)) = some t ∧
    (∃ reply, t.inFlight = [.replied reply]) ∧ t.store.Housed u

section Login

variable {E : IdentityEnv} {chance : IdentityChance} {u : Int64} {s : IdentityStore}

theorem endsHoused_replied {reply : IdentityReply} (h : s.Housed u) :
    EndsHoused E chance u s (.replied reply) :=
  ⟨0, _, rfl, ⟨reply, rfl⟩, h⟩

theorem endsHoused_step {op : IdentityOp} (hanswered : chance.result = .answered)
    (hop : ∀ reply, op ≠ .replied reply)
    (h : EndsHoused E chance u (op.effect E s chance) (op.next E s chance true)) :
    EndsHoused E chance u s op := by
  obtain ⟨k, t, hrun, hend⟩ := h
  refine ⟨k + 1, t, ?_, hend⟩
  have hnext : identityNext E s chance op =
      some (op.effect E s chance, some (op.next E s chance true)) := by
    cases op with
    | replied reply => exact absurd rfl (hop reply)
    | _ => simp only [identityNext, hanswered, decide_true, if_neg (by decide : ¬CallResult.answered = .failed)]
  have hstep : (identity E).step ⟨s, [op]⟩ (.advance 0 chance) =
      some ⟨op.effect E s chance, [op.next E s chance true]⟩ := by
    show Option.map _ (identityNext E s chance op) = _
    rw [hnext]
    rfl
  rw [List.replicate_succ, runOf, hstep, Option.bind_some, hrun]

variable (hanswered : chance.result = .answered) {c : Creds}
include hanswered

theorem endsHoused_planReading {session : String} (h : s.Housed u) :
    EndsHoused E chance u s (.planReading (.login c) u session) :=
  endsHoused_step hanswered (fun _ heq => by cases heq) (endsHoused_replied h)

theorem endsHoused_sessionCreating {validInvite : Bool} (h : s.Housed u) :
    EndsHoused E chance u s (.sessionCreating (.login c) u validInvite) := by
  refine endsHoused_step hanswered (fun _ heq => by cases heq) ?_
  have hhoused : (IdentityOp.effect E s chance (.sessionCreating (.login c) u validInvite)).Housed u :=
    (sameAccounts_createSession _ _ _ _).grows.housed h
  simp only [IdentityOp.next]
  split
  · simp only [afterSession]
    split
    · exact endsHoused_step hanswered (fun _ heq => by cases heq) (endsHoused_planReading hanswered hhoused)
    · exact endsHoused_planReading hanswered hhoused
  · exact endsHoused_replied hhoused

theorem endsHoused_orgCreating (huser : s.control.users.has u = true)
    (hfresh : s.control.orgs.has chance.orgId = false) :
    EndsHoused E chance u s (.orgCreating (.login c) u) := by
  have hcreated : (s.control.createOrg chance.orgId "Personal" true).isSome = true := by
    simp [ControlStore.createOrg, Table.insert?, hfresh]
  obtain ⟨c', hc'⟩ := Option.isSome_iff_exists.1 hcreated
  have horg : c'.orgs.has chance.orgId = true := by
    rw [has_orgs_createOrg hc', decide_eq_true rfl, Bool.true_or]
  have huser' : c'.users.has u = true := by
    obtain ⟨orgs, -, rfl⟩ := Option.map_eq_some_iff.1 hc'
    exact huser
  refine endsHoused_step hanswered (fun _ heq => by cases heq) ?_
  simp only [IdentityOp.next, IdentityOp.effect, hc', Option.isSome_some, Bool.and_self, if_true]
  -- the membership, and the call that provisions
  refine endsHoused_step hanswered (fun _ heq => by cases heq) ?_
  have hhoused := housed_ownerAdding E chance (.login c)
    (s := { s.setControl c' with personal := s.personal ++ [(u, chance.orgId)] }) huser' horg
  exact endsHoused_step hanswered (fun _ heq => by cases heq) (endsHoused_sessionCreating hanswered hhoused)

theorem endsHoused_primaryReading (huser : s.control.users.has u = true)
    (hfresh : s.control.orgs.has chance.orgId = false) :
    EndsHoused E chance u s (.primaryReading (.login c) u) := by
  refine endsHoused_step hanswered (fun _ heq => by cases heq) ?_
  simp only [IdentityOp.next, if_true]
  split
  · exact endsHoused_orgCreating hanswered huser hfresh
  · rename_i hfound
    exact endsHoused_sessionCreating hanswered (IdentityStore.primaryOrg_ne_none hfound)

theorem endsHoused_auditing (huser : s.control.users.has u = true)
    (hfresh : s.control.orgs.has chance.orgId = false)
    (hself : E.cfg.selfHosted = true → s.Housed u) :
    EndsHoused E chance u s (.auditing (.login c) u false) := by
  refine endsHoused_step hanswered (fun _ heq => by cases heq) ?_
  simp only [IdentityOp.next]
  split
  · exact endsHoused_primaryReading hanswered huser hfresh
  · rename_i hhosts
    exact endsHoused_sessionCreating hanswered (hself (by simpa using hhosts))

/-- A login alone ends with an organization for its user, if a server that hosts itself has
one for the user already. -/
theorem endsHoused_authReading (hlogs : LogsIn E s c u)
    (hfresh : s.control.orgs.has chance.orgId = false)
    (hself : E.cfg.selfHosted = true → s.Housed u) :
    EndsHoused E chance u s (.authReading c) := by
  obtain ⟨hash, hauth, hpassword⟩ := hlogs.known
  have huser := has_users_userAuthByEmail hauth
  refine endsHoused_step hanswered (fun _ heq => by cases heq) ?_
  simp only [IdentityOp.next, hlogs.allowed, if_true, hauth, hpassword, Bool.not_true,
    Bool.false_eq_true, if_false]
  split
  · rename_i hhosted
    refine endsHoused_step hanswered (fun _ heq => by cases heq) ?_
    have hverified : s.emailVerified u = true := hlogs.verified (by simpa using hhosted)
    simp only [IdentityOp.next, IdentityOp.effect, hverified, Bool.and_self, if_true]
    exact endsHoused_auditing hanswered huser hfresh hself
  · exact endsHoused_auditing hanswered huser hfresh hself

end Login

/-! ## Both together -/

/-- The condition of `one_workspace` on an event. -/
def KeepsWorkspace (E : IdentityEnv) (u : Int64) (t : Identities) (e : IdentityEvent)
    (t' : Identities) : Prop :=
  Uninvited t e t' ∧ StillUnhoused u t e t' ∧
    (E.cfg.selfHosted = true → SignupSettles E u t e t')

/-- A user gets at most one personal organization, and one who logs in alone is a member of an
organization after it. -/
theorem one_workspace {E : IdentityEnv} {u : Int64} {t t' : Identities} {es : List IdentityEvent}
    (hidle : t.inFlight = []) (hnone : t.store.personalOrgs u = 0)
    (hhoused : E.cfg.selfHosted = true → t.store.control.users.has u = true → t.store.Housed u)
    (hrun : Run (Guarded (stepOf (identity E).step) (KeepsWorkspace E u)) t es t') :
    t'.store.personalOrgs u ≤ 1 ∧
      ∀ c chance, t'.inFlight = [] → LogsIn E t'.store c u → chance.result = .answered →
        t'.store.control.orgs.has chance.orgId = false →
        EndsHoused E chance u t'.store (.authReading c) := by
  constructor
  · have hstart : OneWorkspace u t.store := by
      refine ⟨fun o ho => ?_, by omega⟩
      have := List.countP_eq_zero.1 hnone (u, o) ho
      exact absurd (decide_eq_true rfl) this
    exact (hrun.invariant_of_guarded (fun t => OneWorkspace u t.store)
      (fun _ _ _ h hstep hok => oneWorkspace_step h hstep hok.2.1) hstart).atMost
  · intro c chance hidle' hlogs hanswered hfresh
    refine endsHoused_authReading hanswered hlogs hfresh fun hself => ?_
    have hstart : Settled u t := by
      refine ⟨fun op hop => ?_, fun hu => .inl (hhoused hself hu)⟩
      rw [hidle] at hop
      cases hop
    have hsettled := hrun.invariant_of_guarded (Settled u)
      (fun _ _ _ h hstep hok => settled_step hself h hstep hok.1 (hok.2.2 hself)) hstart
    obtain ⟨hash, hauth, -⟩ := hlogs.known
    rcases hsettled.housed (has_users_userAuthByEmail hauth) with hend | ⟨op, hop, -⟩
    · exact hend
    · rw [hidle'] at hop
      cases hop

/-- The condition, where every call is answered and no signup stops early. -/
def keepsWorkspace (u : Int64) (t : Identities) : IdentityEvent → Bool
  | .start (.signingUp c) | .start (.authReading c) => c.invite = none
  | .start (.consuming q) => q.invite = none
  | .start _ | .commit _ => true
  | .advance i chance =>
    chance.result = .answered && (t.inFlight[i]?).all fun op =>
      match op with
      | .orgCreating _ _ =>
        !t.store.control.orgs.has chance.orgId && t.store.control.primaryOrg u = none &&
          t.store.personalOrgs u = 0
      | _ => true
  | .abandon i => (t.inFlight[i]?).all fun op => op.settling ≠ some u

theorem keepsWorkspace_sound (E : IdentityEnv) (u : Int64) (t : Identities) (e : IdentityEvent)
    (t' : Identities) (h : keepsWorkspace u t e = true) : KeepsWorkspace E u t e t' := by
  cases e with
  | start op =>
    refine ⟨?_, trivial, fun _ => trivial⟩
    cases op with
    | signingUp c | authReading c => exact (of_decide_eq_true h : c.invite = none)
    | consuming q => exact (of_decide_eq_true h : q.invite = none)
    | _ => trivial
  | commit now => exact ⟨trivial, trivial, fun _ => trivial⟩
  | abandon i =>
    refine ⟨trivial, trivial, fun _ op hop => ?_⟩
    simp only [keepsWorkspace, hop, Option.all_some] at h
    exact of_decide_eq_true h
  | advance i chance =>
    obtain ⟨hanswered, hcreates⟩ := Bool.and_eq_true_iff.1 h
    have hanswered := of_decide_eq_true hanswered
    refine ⟨trivial, fun flow hop _ => ?_, fun _ op hop => ?_⟩
    · simp only [hop, Option.all_some, Bool.and_eq_true, decide_eq_true_eq] at hcreates
      refine ⟨hcreates.1.2, fun o ho => ?_⟩
      exact absurd (decide_eq_true rfl) (List.countP_eq_zero.1 hcreates.2 (u, o) ho)
    · cases op with
      | signingUp c => exact fun hlost => by cases hanswered.symm.trans hlost
      | orgCreating flow userId =>
        cases flow with
        | signup c =>
          simp only [hop, Option.all_some, Bool.and_eq_true, Bool.not_eq_true'] at hcreates
          exact fun _ => ⟨hanswered, hcreates.1.1⟩
        | verify _ | login _ => trivial
      | ownerAdding flow userId orgId =>
        cases flow with
        | signup c => exact fun _ hfailed => by cases hanswered.symm.trans hfailed
        | verify _ | login _ => trivial
      | _ => trivial

/-- A server whose passwords are their own hashes. -/
def openServer (selfHosted : Bool) : IdentityEnv where
  cfg := { keyHash := id, selfHosted := selfHosted }
  toLowercase := id
  verifyPassword := fun password hash => password = hash

/-- Ann, with her password. -/
def annsCreds : Creds where
  email := "ann@x"
  password := "annspassword"

/-- What the environment decides for a request of Ann. -/
def annsChance (orgId : Int64) : IdentityChance where
  hash := some "annspassword"
  userId := 1
  orgId := orgId

/-- A signup on a server that hosts itself, and a login after it. -/
theorem one_workspace_signed_up :
    ∃ t, Run (Guarded (stepOf (identity (openServer true)).step) (KeepsWorkspace (openServer true) 1))
        ⟨{}, []⟩
        (.start (.signingUp annsCreds) :: List.replicate 7 (.advance 0 (annsChance 5)) ++
          [.abandon 0]) t ∧
      t.store.personalOrgs 1 ≤ 1 ∧
      EndsHoused (openServer true) (annsChance 6) 1 t.store (.authReading annsCreds) := by
  have hsome : (runOf (checked (identity (openServer true)).step (keepsWorkspace 1)) ⟨{}, []⟩
      (.start (.signingUp annsCreds) :: List.replicate 7 (.advance 0 (annsChance 5)) ++
        [.abandon 0])).map (fun t => (t.inFlight.length,
          t.store.userAuthByEmail "ann@x", t.store.control.orgs.has 6)) =
      some (0, some (1, "annspassword"), false) := by decide
  obtain ⟨t, ht, hend⟩ := Option.map_eq_some_iff.1 hsome
  simp only [Prod.mk.injEq, List.length_eq_zero_iff] at hend
  have hrun := Run.of_runOf_checked (keepsWorkspace_sound (openServer true) 1) ht
  obtain ⟨honce, hlogin⟩ := one_workspace rfl rfl (fun _ hu => Bool.noConfusion hu) hrun
  have hlogs : LogsIn (openServer true) t.store annsCreds 1 := by
    refine ⟨rfl, ⟨"annspassword", ?_, by decide⟩,
      fun hhosted => absurd hhosted (by decide)⟩
    have hemail : (openServer true).emailOf annsCreds = "ann@x" := by decide
    rw [hemail]
    exact hend.2.1
  exact ⟨t, hrun, honce, hlogin annsCreds (annsChance 6) hend.1 hlogs rfl hend.2.2⟩

/-- A hosted server whose user Ann has verified her email. -/
def annVerified : Identities where
  store :=
    { members := { control := { users := ⟨[(1, ⟨"ann@x"⟩)], by decide⟩ } }
      credentials := ⟨[(1, ⟨"annspassword", true⟩)], by decide⟩ }

/-- Ann logs in twice at a time.  Both logins find that she has no organization, and each
creates one. -/
theorem workspace_is_doubled :
    ¬ ∀ (E : IdentityEnv) (u : Int64) (t t' : Identities) (es : List IdentityEvent),
      t.inFlight = [] → t.store.personalOrgs u = 0 →
      (E.cfg.selfHosted = true → t.store.control.users.has u = true → t.store.Housed u) →
      Run (Guarded (stepOf (identity E).step) Uninvited) t es t' →
      t'.store.personalOrgs u ≤ 1 := by
  intro hall
  have hsome : (runOf (checked (identity (openServer false)).step (keepsWorkspace 2)) annVerified
      (List.flatten [List.replicate 2 (.start (.authReading annsCreds)),
        List.replicate 9 (.advance 0 (annsChance 5)), [.advance 0 (annsChance 6)]])).map
          (fun t => t.store.personalOrgs 1) = some 2 := by decide
  obtain ⟨t, ht, htwo⟩ := Option.map_eq_some_iff.1 hsome
  have hrun := Run.of_runOf_checked (keepsWorkspace_sound (openServer false) 2) ht
  have hle := hall (openServer false) 1 annVerified t _ rfl rfl (fun hself => by cases hself)
    (hrun.mono fun _ _ _ h => ⟨h.1, h.2.1⟩)
  omega

end ReproitCloud
