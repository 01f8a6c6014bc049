import ReproitCloud.Identity.Workspace

/-!
# A password reset beside logins

`forgot_password` mails a link, and `reset_password` consumes its token, replaces the hash of
the password and deletes the sessions of the user.  Next to it run the requests of
`Identity.Flows`, of which a login checks the password in one call and stores the session in
a later one.

No table says with which password a session was opened.  `ResetStore` remembers how often a
password was replaced, and of a session how often it had been when the password for it was
presented.  No code reads either.

`LocksOut u e` is what the `e`th replacement of the password of `u` is for: whoever has a live
session of `u` and presented a password for it has presented it after that replacement.

* `reset_locks_out`: a reset that has answered with success locks the old password out, as
  long as its revocation is carried out where there are such sessions, and no login that
  checked the old password stores its session after it.
* `login_outlives_reset` and `failed_revocation_is_not_seen`: neither can be left out.
-/

namespace ReproitCloud

open Lib

/-! ## Calls -/

namespace ControlStore

variable (c : ControlStore)

/-- `revoke_sessions_for_user`. -/
def revokeSessionsForUser (userId : Int64) : ControlStore :=
  { c with sessions := c.sessions.delete fun _ s => s.userId = userId }

/-- `delete_session`. -/
def deleteSession (hash : String) : ControlStore :=
  { c with sessions := c.sessions.delete fun k _ => k = hash }

/-- `prune_sessions`. -/
def pruneSessions (now : Micros) : ControlStore :=
  { c with sessions := c.sessions.delete fun _ s => s.expiresAt.any (· < now) }

end ControlStore

/-- `set_password`. -/
def IdentityStore.setPassword (s : IdentityStore) (userId : Int64) (passHash : String) :
    IdentityStore :=
  { s with
    credentials := s.credentials.update (fun k _ => k = userId) fun _ row =>
      { row with passHash := passHash } }

/-- `RESET_TTL_SECS`. -/
def resetTtl : Micros := microsPerHour / 2

/-- The accounts, with what is remembered of the passwords. -/
structure ResetStore where
  identity : IdentityStore := {}
  /-- No table: the users whose passwords were replaced, once for each time. -/
  replaced : List Int64 := []
  /-- No table: for the hash of a session that a password was presented for, how often the
  password had been replaced by then. -/
  presented : String → Option Nat := fun _ => none

namespace ResetStore

variable (s : ResetStore)

def replacements (userId : Int64) : Nat := s.replaced.count userId

def setControl (c : ControlStore) : ResetStore := { s with identity := s.identity.setControl c }

/-- The session that the requests with a token find. -/
def liveSession (hash : String) : Option SessionRow :=
  s.identity.control.liveSession s.identity.members.now hash

end ResetStore

/-- Where a request is. -/
inductive ResetOp where
  /-- A request of `Identity.Flows`.  It remembers how often the password that it has presented
  had been replaced. -/
  | entering (op : IdentityOp) (seen : Option Nat)
  /-- `find_user_id_by_email`, `create_email_token` and `audit` of `forgot_password`. -/
  | finding (email : String)
  | linkCreating (userId : Int64)
  | linkAuditing (userId : Int64)
  /-- `consume_email_token`, with the checks around it, and `set_password`. -/
  | consuming (token password : String)
  | setting (userId : Int64) (hash : String)
  /-- `revoke_sessions_for_user`, `mark_email_verified` and `audit` of the reset that replaced
  the password for the given time. -/
  | revoking (userId : Int64) (nth : Nat)
  | marking (userId : Int64) (nth : Nat)
  | auditing (userId : Int64) (nth : Nat)
  /-- It has answered with success. -/
  | reset (userId : Int64) (nth : Nat)
  | replied (reply : Reply)

/-- The body of `forgot_password` and of a reset. -/
def resetReply : Reply := okReply [("ok", .bool true)]

namespace ResetOp

variable (E : IdentityEnv) (s : ResetStore) (chance : IdentityChance)

/-- What a call does when it takes effect. -/
def effect : ResetOp → ResetStore
  | linkCreating userId =>
    { s with
      identity := (s.identity.createEmailToken (E.cfg.keyHash chance.token) userId "reset"
        resetTtl).getD s.identity }
  | linkAuditing userId =>
    s.setControl (s.identity.control.audit false (signinAudit userId "auth.forgot"))
  | consuming token password =>
    if byteLength password < 8 || (trim password.toList).isEmpty then s
    else { s with identity := (s.identity.consumeEmailToken (E.cfg.keyHash token) "reset").1 }
  | setting userId hash =>
    { s with
      identity := s.identity.setPassword userId hash
      replaced := s.replaced ++ [userId] }
  | revoking userId _ => s.setControl (s.identity.control.revokeSessionsForUser userId)
  | marking userId _ => { s with identity := s.identity.markEmailVerified userId }
  | auditing userId _ =>
    s.setControl (s.identity.control.audit false (signinAudit userId "auth.password_reset"))
  | _ => s

/-- Where a request goes from a call that was answered, or not. -/
def next (answered : Bool) : ResetOp → ResetOp
  | entering op seen => .entering op seen
  | finding email =>
    match if answered then
        s.identity.control.findUserIdByEmail (E.toLowercase (String.ofList (trim email.toList)))
      else none with
    | some userId => .linkCreating userId
    | none => .replied resetReply
  | linkCreating userId =>
    if answered && (s.identity.createEmailToken (E.cfg.keyHash chance.token) userId "reset"
        resetTtl).isSome then .linkAuditing userId
    else .replied resetReply
  | linkAuditing _ => .replied resetReply
  | consuming token password =>
    if byteLength password < 8 || (trim password.toList).isEmpty then
      .replied (err 400 "password must be at least 8 characters")
    else
      match if answered then (s.identity.consumeEmailToken (E.cfg.keyHash token) "reset").2
        else none with
      | none => .replied (err 400 "invalid or expired reset link")
      | some userId =>
        match chance.hash with
        | none => .replied (err 500 "could not hash password")
        | some hash => .setting userId hash
  | setting userId _ =>
    if answered then .revoking userId (s.replacements userId + 1)
    else .replied (err 500 "could not set password")
  | revoking userId nth => .marking userId nth
  | marking userId nth => .auditing userId nth
  | auditing userId nth => .reset userId nth
  | reset userId nth => .reset userId nth
  | replied reply => .replied reply

end ResetOp

/-! ## Presenting a password -/

/-- What a request of `Identity.Flows` remembers after a call.  A login that goes on has
presented the password, and a signup the one that it chose. -/
def seenAfter (s : ResetStore) (op op' : IdentityOp) (seen : Option Nat) : Option Nat :=
  match op, op' with
  | .signingUp _, .signedUp _ userId => some (s.replacements userId)
  | .authReading _, .verifiedReading _ userId => some (s.replacements userId)
  | .authReading _, .auditing _ userId _ => some (s.replacements userId)
  | _, _ => seen

/-- The hash of the session that a call stores, and its user. -/
def IdentityOp.opens (E : IdentityEnv) (s : IdentityStore) (chance : IdentityChance) :
    IdentityOp → Option (String × Int64)
  | sessionCreating _ userId _ =>
    if chance.result ≠ .failed ∧ (s.control.createSession s.members.now
        (E.cfg.keyHash chance.token) userId sessionTtl).isSome then
      some (E.cfg.keyHash chance.token, userId)
    else none
  | _ => none

/-- What is remembered of the sessions after a call. -/
def ResetStore.presentedAfter (E : IdentityEnv) (s : ResetStore) (chance : IdentityChance)
    (op : IdentityOp) (seen : Option Nat) : String → Option Nat :=
  match op.opens E s.identity chance with
  | some (hash, _) => Function.update s.presented hash seen
  | none => s.presented

/-! ## The processes -/

/-- The next call of a request. -/
def resetNext (E : IdentityEnv) (s : ResetStore) (chance : IdentityChance) :
    ResetOp → Option (ResetStore × Option ResetOp)
  | .entering op seen =>
    (identityNext E s.identity chance op).map fun r =>
      ({ s with identity := r.1, presented := s.presentedAfter E chance op seen },
        r.2.map fun op' => .entering op' (seenAfter s op op' seen))
  | .reset .. | .replied _ => none
  | op =>
    some (if chance.result = .failed then s else op.effect E s chance,
      some (op.next E s chance (chance.result = .answered)))

/-- The requests on their arrival. -/
def ResetOp.starts : ResetOp → Bool
  | entering op seen => op.starts && seen = none
  | finding _ | consuming .. => true
  | _ => false

/-- What happens beside the requests. -/
inductive ResetWrite where
  | tick (now : Micros)
  /-- `logout`, with the token of the cookie. -/
  | logout (token : String)
  /-- The sweep. -/
  | prune
deriving DecidableEq, Repr

def ResetWrite.write (E : IdentityEnv) (s : ResetStore) : ResetWrite → Option ResetStore
  | tick now => (tickIdentity s.identity now).map fun identity => { s with identity := identity }
  | logout token => some (s.setControl (s.identity.control.deleteSession (E.cfg.keyHash token)))
  | prune => some (s.setControl (s.identity.control.pruneSessions s.identity.members.now))

/-- The accounts of a server, with the resets. -/
def resets (E : IdentityEnv) : Program ResetStore ResetOp IdentityChance ResetWrite where
  starts _ op := op.starts
  next s _ := resetNext E s
  write s _ := ResetWrite.write E s

abbrev Resets := Pool ResetStore ResetOp

abbrev ResetEvent := PoolEvent ResetOp IdentityChance ResetWrite

/-! ## The sessions of the old password -/

/-- Whoever has a live session of the user and presented a password for it has presented it
after the `nth` replacement. -/
def LocksOut (u : Int64) (nth : Nat) (s : ResetStore) : Prop :=
  ∀ hash row seen, s.liveSession hash = some row → row.userId = u →
    s.presented hash = some seen → nth ≤ seen

/-- The user and the replacement of a reset that is past its revocation. -/
def ResetOp.revoked : ResetOp → Option (Int64 × Nat)
  | marking userId nth | auditing userId nth | reset userId nth => some (userId, nth)
  | _ => none

/-- A revocation that does nothing has found no session to delete. -/
def RevocationSeen (t : Resets) : ResetEvent → Resets → Prop
  | .advance i chance, _ =>
    ∀ u nth, t.inFlight[i]? = some (.revoking u nth) → chance.result = .failed →
      LocksOut u nth t.store
  | _, _ => True

/-- A session is not stored for a password that a reset past its revocation has replaced. -/
def StoredInTime (E : IdentityEnv) (t : Resets) : ResetEvent → Resets → Prop
  | .advance i chance, _ =>
    ∀ op seen hash u, t.inFlight[i]? = some (.entering op (some seen)) →
      op.opens E t.store.identity chance = some (hash, u) →
      ∀ o ∈ t.inFlight, ∀ nth, o.revoked = some (u, nth) → nth ≤ seen
  | _, _ => True

namespace ResetStore

/-- The live sessions of a store are those of another. -/
structure Narrows (s s' : ResetStore) : Prop where
  presented : s'.presented = s.presented
  live : ∀ hash row', s'.liveSession hash = some row' →
    ∃ row, s.liveSession hash = some row ∧ row.userId = row'.userId

theorem Narrows.refl (s : ResetStore) : s.Narrows s := ⟨rfl, fun _ row h => ⟨row, h, rfl⟩⟩

theorem Narrows.locksOut {s s' : ResetStore} {u : Int64} {nth : Nat} (h : s.Narrows s')
    (hlocks : LocksOut u nth s) : LocksOut u nth s' := by
  intro hash row' seen hrow' hu hseen
  obtain ⟨row, hrow, hsame⟩ := h.live hash row' hrow'
  rw [h.presented] at hseen
  exact hlocks hash row seen hrow (hsame.trans hu) hseen

theorem narrows_of_sessions {s s' : ResetStore} (hpresented : s'.presented = s.presented)
    (hsessions : s'.identity.control.sessions = s.identity.control.sessions)
    (hnow : s'.identity.members.now = s.identity.members.now) : s.Narrows s' := by
  refine ⟨hpresented, fun hash row h => ⟨row, ?_, rfl⟩⟩
  rw [liveSession, ControlStore.liveSession, hsessions, hnow] at h
  exact h

/-- Sessions that are deleted are not live. -/
theorem narrows_of_delete {s : ResetStore} {c : ControlStore} {p : String → SessionRow → Bool}
    (h : c.sessions = s.identity.control.sessions.delete p) : s.Narrows (s.setControl c) := by
  refine ⟨rfl, fun hash row hrow => ⟨row, ?_, rfl⟩⟩
  obtain ⟨hget, hlive⟩ := Option.filter_eq_some_iff.1 hrow
  have hget : c.sessions.get? hash = some row := hget
  rw [h] at hget
  exact Option.filter_eq_some_iff.2 ⟨(Table.get?_of_delete hget).1, hlive⟩

end ResetStore

/-! ## What a call does to the sessions -/

section Calls

variable {E : IdentityEnv} {s : ResetStore} {chance : IdentityChance}

/-- Two calls write to `sessions`. -/
theorem IdentityOp.sessions_effect (E : IdentityEnv) (s : IdentityStore) (chance : IdentityChance)
    (op : IdentityOp) (hstores : ∀ flow u v, op ≠ .sessionCreating flow u v)
    (hsets : ∀ flow u o session, op ≠ .orgSetting flow u o session) :
    (op.effect E s chance).control.sessions = s.control.sessions ∧
      (op.effect E s chance).members.now = s.members.now := by
  cases op with
  | sessionCreating flow u v => exact absurd rfl (hstores flow u v)
  | orgSetting flow u o session => exact absurd rfl (hsets flow u o session)
  | signingUp c =>
    rw [effect]
    split
    · rename_i hash hrefusal hhash
      rw [IdentityStore.createUser]
      split
      · cases s.control.users.insert? chance.userId ⟨E.emailOf c⟩ <;> exact ⟨rfl, rfl⟩
      · exact ⟨rfl, rfl⟩
    · exact ⟨rfl, rfl⟩
  | consuming q =>
    rw [effect, IdentityStore.consumeEmailToken]
    cases s.emailToken (E.cfg.keyHash q.token) "verify" <;> exact ⟨rfl, rfl⟩
  | tokenCreating userId reply =>
    rw [effect, IdentityStore.createEmailToken]
    split
    · cases s.emailTokens.insert? (E.cfg.keyHash chance.token) _ <;> exact ⟨rfl, rfl⟩
    · exact ⟨rfl, rfl⟩
  | orgCreating flow userId =>
    rw [effect, ControlStore.createOrg]
    cases s.control.orgs.insert? chance.orgId _ <;> exact ⟨rfl, rfl⟩
  | ownerAdding flow userId orgId =>
    refine ⟨?_, rfl⟩
    change ((s.control.addMember orgId userId "owner").getD s.control).sessions = _
    rw [ControlStore.addMember]
    split <;> rfl
  | auditing flow userId validInvite => cases flow <;> exact ⟨rfl, rfl⟩
  | _ => exact ⟨rfl, rfl⟩

/-- `set_session_org` keeps the users of the sessions. -/
theorem ResetStore.narrows_setSessionOrg (hash : String) (userId orgId : Int64) :
    s.Narrows (s.setControl
      (s.identity.control.setSessionOrg s.identity.members.now hash userId orgId).1) := by
  refine ⟨rfl, fun h row' hrow' => ?_⟩
  obtain ⟨hget, hlive⟩ := Option.filter_eq_some_iff.1 hrow'
  have hget : (s.identity.control.setSessionOrg s.identity.members.now hash userId orgId
    ).1.sessions.get? h = some row' := hget
  rw [ControlStore.setSessionOrg, Table.get?_update, Option.map_eq_some_iff] at hget
  obtain ⟨row, hrow, rfl⟩ := hget
  refine ⟨row, Option.filter_eq_some_iff.2 ⟨hrow, ?_⟩, ?_⟩
  · split at hlive <;> exact hlive
  · split <;> rfl

/-- `create_session` stores one session, of the user. -/
theorem ControlStore.get?_createSession {c c' : ControlStore} {now ttl : Micros} {hash h : String}
    {userId : Int64} {row : SessionRow} (hcreate : c.createSession now hash userId ttl = some c')
    (hget : c'.sessions.get? h = some row) :
    h = hash ∧ row.userId = userId ∨ h ≠ hash ∧ c.sessions.get? h = some row := by
  rw [createSession, Option.ite_none_right_eq_some, Option.map_eq_some_iff] at hcreate
  obtain ⟨-, sessions, hinsert, rfl⟩ := hcreate
  have hget : sessions.get? h = some row := hget
  rw [Table.get?_insert? hinsert] at hget
  by_cases hh : h = hash
  · rw [if_pos hh] at hget
    cases hget
    exact .inl ⟨hh, rfl⟩
  · rw [if_neg hh] at hget
    exact .inr ⟨hh, hget⟩

/-- The store after a call of `Identity.Flows`. -/
def ResetStore.afterEntering (E : IdentityEnv) (s : ResetStore) (chance : IdentityChance)
    (op : IdentityOp) (seen : Option Nat) : ResetStore :=
  { s with
    identity := if chance.result = .failed then s.identity else op.effect E s.identity chance
    presented := s.presentedAfter E chance op seen }

/-- A call that stores no session. -/
theorem ResetStore.narrows_entering {op : IdentityOp} {seen : Option Nat}
    (hopens : op.opens E s.identity chance = none) :
    s.Narrows (s.afterEntering E chance op seen) := by
  have hpresented : (s.afterEntering E chance op seen).presented = s.presented := by
    rw [afterEntering, presentedAfter, hopens]
  by_cases hfailed : chance.result = .failed
  · refine narrows_of_sessions hpresented ?_ ?_ <;> rw [afterEntering, if_pos hfailed]
  by_cases hsets : ∃ flow u o session, op = .orgSetting flow u o session
  · obtain ⟨flow, u, o, session, rfl⟩ := hsets
    have hsame : s.afterEntering E chance (.orgSetting flow u o session) seen =
        s.setControl (s.identity.control.setSessionOrg s.identity.members.now
          (E.cfg.keyHash session) u o).1 := by
      rw [afterEntering, if_neg hfailed]
      rfl
    rw [hsame]
    exact narrows_setSessionOrg (E.cfg.keyHash session) u o
  by_cases hstores : ∃ flow u v, op = .sessionCreating flow u v
  · obtain ⟨flow, u, v, rfl⟩ := hstores
    have hnone : s.identity.control.createSession s.identity.members.now
        (E.cfg.keyHash chance.token) u sessionTtl = none := by
      rw [IdentityOp.opens, ite_eq_right_iff] at hopens
      by_contra hsome
      cases hopens ⟨hfailed, Option.isSome_iff_ne_none.2 hsome⟩
    refine narrows_of_sessions hpresented ?_ ?_ <;>
      rw [afterEntering, if_neg hfailed, IdentityOp.effect, hnone] <;> rfl
  obtain ⟨hsessions, hnow⟩ := op.sessions_effect E s.identity chance
    (fun flow u v h => hstores ⟨flow, u, v, h⟩)
    (fun flow u o session h => hsets ⟨flow, u, o, session, h⟩)
  refine narrows_of_sessions hpresented ?_ ?_ <;> rw [afterEntering, if_neg hfailed]
  · exact hsessions
  · exact hnow

/-- A call that stores a session of a user locks out as well as the store before, if the password
presented for it is new enough. -/
theorem locksOut_entering {op : IdentityOp} {seen : Option Nat} {hash : String} {u u' : Int64}
    {nth : Nat} (hopens : op.opens E s.identity chance = some (hash, u))
    (hlocks : LocksOut u' nth s) (hnew : u = u' → ∀ v, seen = some v → nth ≤ v) :
    LocksOut u' nth (s.afterEntering E chance op seen) := by
  intro h row v hlive hu hv
  have hpresented : Function.update s.presented hash seen h = some v := by
    rw [ResetStore.afterEntering, ResetStore.presentedAfter, hopens] at hv
    exact hv
  cases op with
  | sessionCreating flow userId validInvite =>
    rw [IdentityOp.opens, Option.ite_none_right_eq_some] at hopens
    obtain ⟨⟨hresult, hsome⟩, heq⟩ := hopens
    cases heq
    obtain ⟨c', hcreate⟩ := Option.isSome_iff_exists.1 hsome
    obtain ⟨hget, hlive⟩ := Option.filter_eq_some_iff.1 hlive
    rw [ResetStore.afterEntering, if_neg hresult, IdentityOp.effect, hcreate] at hget hlive
    rcases ControlStore.get?_createSession hcreate hget with ⟨rfl, hrow⟩ | ⟨hh, hget⟩
    · rw [Function.update_self] at hpresented
      exact hnew (hrow.symm.trans hu) v hpresented
    · rw [Function.update_of_ne hh] at hpresented
      exact hlocks h row v (Option.filter_eq_some_iff.2 ⟨hget, hlive⟩) hu hpresented
  | _ => cases hopens

/-- The calls of a reset store no session. -/
theorem ResetStore.narrows_effect (op : ResetOp) : s.Narrows (op.effect E s chance) := by
  cases op with
  | linkCreating userId =>
    refine narrows_of_sessions rfl ?_ ?_ <;> rw [ResetOp.effect, IdentityStore.createEmailToken] <;>
      split
    · cases s.identity.emailTokens.insert? (E.cfg.keyHash chance.token) _ <;> rfl
    · rfl
    · cases s.identity.emailTokens.insert? (E.cfg.keyHash chance.token) _ <;> rfl
    · rfl
  | consuming token password =>
    rw [ResetOp.effect]
    split
    · exact .refl s
    · refine narrows_of_sessions rfl ?_ ?_ <;>
        rw [IdentityStore.consumeEmailToken] <;>
        cases s.identity.emailToken (E.cfg.keyHash token) "reset" <;> rfl
  | revoking userId nth => exact narrows_of_delete (p := fun _ r => r.userId = userId) rfl
  | _ => exact narrows_of_sessions rfl rfl rfl

/-- Nor does what happens beside the requests, and time ends sessions. -/
theorem ResetStore.narrows_write {s' : ResetStore} {w : ResetWrite} (h : w.write E s = some s') :
    s.Narrows s' := by
  cases w with
  | tick now =>
    simp only [ResetWrite.write, tickIdentity, Option.map_eq_some_iff,
      Option.ite_none_right_eq_some, Option.some.injEq] at h
    obtain ⟨_, ⟨hnow, rfl⟩, rfl⟩ := h
    refine ⟨rfl, fun hash row hrow => ⟨row, ?_, rfl⟩⟩
    obtain ⟨hget, hlive⟩ := Option.filter_eq_some_iff.1 hrow
    refine Option.filter_eq_some_iff.2 ⟨hget, ?_⟩
    simp only [live, Option.all_eq_true, decide_eq_true_eq] at hlive ⊢
    exact fun t ht => lt_of_le_of_lt hnow (hlive t ht)
  | logout token =>
    cases h
    exact narrows_of_delete (p := fun k _ => k = E.cfg.keyHash token) rfl
  | prune =>
    cases h
    exact narrows_of_delete (p := fun _ r => r.expiresAt.any (· < s.identity.members.now)) rfl

/-- A revocation leaves no session of the user. -/
theorem locksOut_revoking (E : IdentityEnv) (s : ResetStore) (chance : IdentityChance) (u : Int64)
    (nth : Nat) : LocksOut u nth ((ResetOp.revoking u nth).effect E s chance) := by
  intro hash row seen hlive hu
  obtain ⟨hget, -⟩ := Option.filter_eq_some_iff.1 hlive
  have hdeleted := (Table.get?_of_delete hget).2
  exact absurd hu (of_decide_eq_false hdeleted)

/-- A request gets past a revocation by revoking. -/
theorem ResetOp.revoked_next {op : ResetOp} {answered : Bool} {u : Int64} {nth : Nat}
    (h : (op.next E s chance answered).revoked = some (u, nth)) :
    op.revoked = some (u, nth) ∨ op = .revoking u nth := by
  cases op with
  | revoking userId n =>
    cases h
    exact .inr rfl
  | marking userId n | auditing userId n | reset userId n => exact .inl h
  | entering op seen | linkAuditing userId | replied reply => cases h
  | finding email | linkCreating userId | setting userId hash =>
    rw [next] at h
    split at h <;> cases h
  | consuming token password =>
    rw [next] at h
    split at h
    · cases h
    · split at h
      · cases h
      · split at h <;> cases h

end Calls

/-! ## Resets beside logins -/

section Outline

variable {E : IdentityEnv}

/-- What is so of a request: a reset past its revocation locks the old password out. -/
def ResetOp.LocksOut (s : ResetStore) (op : ResetOp) : Prop :=
  ∀ u nth, op.revoked = some (u, nth) → ReproitCloud.LocksOut u nth s

/-- A request with no reset of its own past a revocation. -/
theorem ResetOp.locksOut_of_none {s : ResetStore} {op : ResetOp} (h : op.revoked = none) :
    op.LocksOut s := by
  intro u nth hrevoked
  rw [h] at hrevoked
  cases hrevoked

/-- The next call of a request, taken apart. -/
theorem resetNext_eq_some {s s' : ResetStore} {chance : IdentityChance} {op : ResetOp}
    {after : Option ResetOp} (h : resetNext E s chance op = some (s', after)) :
    (∃ o seen o' seen', op = .entering o seen ∧ s' = s.afterEntering E chance o seen ∧
      after = some (.entering o' seen')) ∨
    (∀ o seen, op ≠ .entering o seen) ∧
      s' = (if chance.result = .failed then s else op.effect E s chance) ∧
      after = some (op.next E s chance (chance.result = .answered)) := by
  cases op with
  | entering o seen =>
    rw [resetNext, Option.map_eq_some_iff] at h
    obtain ⟨⟨identity, o'⟩, hnext, heq⟩ := h
    obtain ⟨rfl, rfl⟩ := identityNext_eq_some hnext
    cases heq
    exact .inl ⟨o, seen, _, _, rfl, rfl, rfl⟩
  | reset userId nth | replied reply => cases h
  | _ =>
    cases h
    exact .inr ⟨fun _ _ heq => (by cases heq), rfl, rfl⟩

/-- Both conditions. -/
def KeepsOut (E : IdentityEnv) (t : Resets) (e : ResetEvent) (t' : Resets) : Prop :=
  RevocationSeen t e t' ∧ StoredInTime E t e t'

theorem keepsOutline_resets :
    KeepsOutline (resets E) (KeepsOut E) (fun _ => True) (fun s op => op.LocksOut s)
      (fun _ _ => True) where
  start t _ op _ _ hstarts := by
    refine ⟨?_, fun _ _ => trivial⟩
    cases op with
    | entering o seen | finding email | consuming token password =>
      exact ResetOp.locksOut_of_none rfl
    | _ => cases hstarts
  commit t _ w s' houtline _ hwrite :=
    ⟨trivial, fun o ho u nth hrevoked =>
      (ResetStore.narrows_write hwrite).locksOut (houtline.each o ho u nth hrevoked)⟩
  advance t _ i chance op s' after houtline hok hop hnext := by
    obtain ⟨hseen, htime⟩ := hok
    have hothers : ∀ o ∈ t.inFlight.eraseIdx i, o.LocksOut t.store :=
      fun o ho => houtline.each o (List.mem_of_mem_eraseIdx ho)
    rcases resetNext_eq_some hnext with
      ⟨o, seen, o', seen', rfl, rfl, rfl⟩ | ⟨hnot, hs', rfl⟩
    · refine ⟨trivial, fun other hother u nth hrevoked => ?_, fun op' hop' =>
        ⟨?_, fun _ _ => trivial⟩⟩
      · cases hopens : o.opens E t.store.identity chance with
        | none =>
          exact (ResetStore.narrows_entering hopens).locksOut (hothers other hother u nth hrevoked)
        | some stored =>
          obtain ⟨hash, u'⟩ := stored
          refine locksOut_entering hopens (hothers other hother u nth hrevoked) ?_
          rintro rfl v rfl
          exact htime o v hash u' hop hopens other (List.mem_of_mem_eraseIdx hother) nth hrevoked
      · cases hop'
        exact ResetOp.locksOut_of_none rfl
    · have hnarrows : t.store.Narrows s' := by
        rw [hs']
        split
        · exact .refl t.store
        · exact ResetStore.narrows_effect op
      refine ⟨trivial, fun other hother u nth hrevoked =>
        hnarrows.locksOut (hothers other hother u nth hrevoked), fun op' hop' =>
          ⟨?_, fun _ _ => trivial⟩⟩
      cases hop'
      intro u nth hrevoked
      rcases ResetOp.revoked_next hrevoked with hpast | rfl
      · exact hnarrows.locksOut (houtline.each op (List.mem_of_getElem? hop) u nth hpast)
      · rw [hs']
        split
        · rename_i hfailed
          exact hseen u nth hop hfailed
        · exact locksOut_revoking E t.store chance u nth

end Outline

/-- A reset that has answered with success has locked the password before it out. -/
theorem reset_locks_out {E : IdentityEnv} {t t' : Resets} {es : List ResetEvent} {u : Int64}
    {nth : Nat} (hidle : t.inFlight = [])
    (hrun : Run (Guarded (stepOf (resets E).step) (KeepsOut E)) t es t')
    (hreset : ResetOp.reset u nth ∈ t'.inFlight) : LocksOut u nth t'.store :=
  ((outline_of_idle trivial hidle).run keepsOutline_resets hrun).each _ hreset u nth rfl

/-- The reset that has answered with success. -/
def ResetOp.succeeded : ResetOp → Option (Int64 × Nat)
  | reset userId nth => some (userId, nth)
  | _ => none

theorem ResetOp.mem_of_succeeded {ops : List ResetOp} {i : Nat} {u : Int64} {nth : Nat}
    (h : (ops[i]?).bind succeeded = some (u, nth)) : reset u nth ∈ ops := by
  obtain ⟨op, hop, hsucceeded⟩ := Option.bind_eq_some_iff.1 h
  cases op with
  | reset userId n =>
    cases hsucceeded
    exact List.mem_of_getElem? hop
  | _ => cases hsucceeded

/-- The first condition, where no call fails without an effect. -/
def revocationSeen : ResetEvent → Bool
  | .advance _ chance => chance.result ≠ .failed
  | _ => true

/-- The second condition. -/
def storedInTime (E : IdentityEnv) (t : Resets) : ResetEvent → Bool
  | .advance i chance =>
    match t.inFlight[i]? with
    | some (.entering op (some seen)) =>
      (op.opens E t.store.identity chance).all fun stored =>
        t.inFlight.all fun o => o.revoked.all fun r => r.1 ≠ stored.2 || r.2 ≤ seen
    | _ => true
  | _ => true

theorem revocationSeen_sound (t : Resets) (e : ResetEvent) (t' : Resets)
    (h : revocationSeen e = true) : RevocationSeen t e t' := by
  cases e with
  | advance i chance => exact fun _ _ _ hfailed => absurd hfailed (of_decide_eq_true h)
  | _ => trivial

theorem storedInTime_sound (E : IdentityEnv) (t : Resets) (e : ResetEvent) (t' : Resets)
    (h : storedInTime E t e = true) : StoredInTime E t e t' := by
  cases e with
  | advance i chance =>
    intro op seen hash u hop hopens o ho nth hrevoked
    simp only [storedInTime, hop, hopens, Option.all_some, List.all_eq_true] at h
    have hnew := h o ho
    simp only [hrevoked, Option.all_some, ne_eq, not_true_eq_false, decide_false, Bool.false_or,
      decide_eq_true_eq] at hnew
    exact hnew
  | _ => trivial

/-- What the environment decides for a call. -/
def resetChance (token : String) (result : CallResult) : IdentityChance where
  result := result
  hash := some "newpassword"
  token := token

/-- Ann's password, and her with no request under way. -/
def annResets : Resets where
  store := { identity := annVerified.store }

/-- Ann logs in. -/
def annsLogin : List ResetEvent :=
  .start (.entering (.authReading annsCreds) none) ::
    List.replicate 4 (.advance 0 (resetChance "session" .answered))

/-- Ann asks for a link and resets her password, beside one request of hers. -/
def annsReset (revocation : CallResult) : List ResetEvent :=
  .start (.finding "ann@x") :: List.replicate 3 (.advance 1 (resetChance "link" .answered)) ++
    [.start (.consuming "link" "newpassword"), .advance 2 (resetChance "" .answered),
      .advance 2 (resetChance "" .answered), .advance 2 (resetChance "" revocation),
      .advance 2 (resetChance "" .answered), .advance 2 (resetChance "" .answered)]

/-- Ann's login, her reset, and her login with the new password. -/
def annReturns : List ResetEvent :=
  annsLogin ++ annsReset .answered ++
    .start (.entering (.authReading { annsCreds with password := "newpassword" }) none) ::
      List.replicate 3 (.advance 3 (resetChance "session" .answered))

theorem reset_locks_out_ann :
    ∃ t, Run (Guarded (stepOf (resets (openServer true)).step) (KeepsOut (openServer true)))
        annResets annReturns t ∧
      (t.store.liveSession "session").isSome ∧ LocksOut 1 1 t.store := by
  have hsome : (runOf (checked (resets (openServer true)).step fun t e =>
        revocationSeen e && storedInTime (openServer true) t e) annResets annReturns).map (fun t =>
          ((t.inFlight[2]?).bind ResetOp.succeeded,
            (t.store.liveSession "session").isSome)) =
      some (some (1, 1), true) := by decide
  obtain ⟨t, ht, hend⟩ := Option.map_eq_some_iff.1 hsome
  simp only [Prod.mk.injEq] at hend
  have hrun : Run (Guarded (stepOf (resets (openServer true)).step) (KeepsOut (openServer true)))
      annResets annReturns t := by
    refine Run.of_runOf_checked (fun s e s' h => ?_) ht
    obtain ⟨hseen, htime⟩ := Bool.and_eq_true_iff.1 h
    exact ⟨revocationSeen_sound s e s' hseen, storedInTime_sound (openServer true) s e s' htime⟩
  exact ⟨t, hrun, hend.2, reset_locks_out rfl hrun (ResetOp.mem_of_succeeded hend.1)⟩

/-- The login that has checked the old password stores its session after the revocation. -/
theorem login_outlives_reset :
    ¬ ∀ (E : IdentityEnv) (t t' : Resets) (es : List ResetEvent) (u : Int64) (nth : Nat),
      t.inFlight = [] → Run (Guarded (stepOf (resets E).step) RevocationSeen) t es t' →
      ResetOp.reset u nth ∈ t'.inFlight → LocksOut u nth t'.store := by
  intro hall
  have hsome : (runOf (checked (resets (openServer true)).step fun _ => revocationSeen) annResets
      (annsLogin.take 2 ++ annsReset .answered ++
        [.advance 0 (resetChance "" .answered), .advance 2 (resetChance "session" .answered)])).map
          (fun t => ((t.inFlight[1]?).bind ResetOp.succeeded,
            (t.store.liveSession "session").map SessionRow.userId, t.store.presented "session")) =
      some (some (1, 1), some 1, some 0) := by decide
  obtain ⟨t, ht, hend⟩ := Option.map_eq_some_iff.1 hsome
  simp only [Prod.mk.injEq, Option.map_eq_some_iff] at hend
  obtain ⟨hsucceeded, ⟨row, hrow, huser⟩, hseen⟩ := hend
  have hrun := Run.of_runOf_checked (fun t e t' h => revocationSeen_sound t e t' h) ht
  have hlocks := hall (openServer true) annResets t _ 1 1 rfl hrun
    (ResetOp.mem_of_succeeded hsucceeded)
  exact absurd (hlocks "session" row 0 hrow huser hseen) (by decide)

/-- A revocation that fails is passed over, and the session of the old password stays. -/
theorem failed_revocation_is_not_seen :
    ¬ ∀ (E : IdentityEnv) (t t' : Resets) (es : List ResetEvent) (u : Int64) (nth : Nat),
      t.inFlight = [] → Run (Guarded (stepOf (resets E).step) (StoredInTime E)) t es t' →
      ResetOp.reset u nth ∈ t'.inFlight → LocksOut u nth t'.store := by
  intro hall
  have hsome : (runOf (checked (resets (openServer true)).step (storedInTime (openServer true)))
      annResets (annsLogin ++ annsReset .failed)).map
        (fun t => ((t.inFlight[2]?).bind ResetOp.succeeded,
          (t.store.liveSession "session").map SessionRow.userId, t.store.presented "session")) =
      some (some (1, 1), some 1, some 0) := by decide
  obtain ⟨t, ht, hend⟩ := Option.map_eq_some_iff.1 hsome
  simp only [Prod.mk.injEq, Option.map_eq_some_iff] at hend
  obtain ⟨hsucceeded, ⟨row, hrow, huser⟩, hseen⟩ := hend
  have hrun := Run.of_runOf_checked (storedInTime_sound (openServer true)) ht
  have hlocks := hall (openServer true) annResets t _ 1 1 rfl hrun
    (ResetOp.mem_of_succeeded hsucceeded)
  exact absurd (hlocks "session" row 0 hrow huser hseen) (by decide)

end ReproitCloud
