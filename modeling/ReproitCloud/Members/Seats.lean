import ReproitCloud.Members.People

/-!
# Seats

A seat is taken by an owner, by a member to whom one is granted, and by a live invitation
that reserves one.  The plan of an organization may limit their number.

`upsert_org_invitation` counts all three and then inserts.  `set_seat` counts the members and
leaves the invitations out.  A renewed invitation may have expired, and a member may become
an owner, and neither is counted.  An acceptance gives the member the seat that the
invitation has reserved, and takes no other.

* `seats_within_limit`: the limit holds as long as a seat is left whenever one is taken
  without a count, and a count that was made is still right.
* `reserved_seat_is_granted`: the last seat is reserved, and granted.
-/

namespace ReproitCloud

open Lib

/-! ## The seats that are taken -/

/-- The live invitations that reserve a seat. -/
def MembersStore.reserved (s : MembersStore) (org : Int64) : Int :=
  s.invitations.count fun _ r => MembersStore.reserves s.now org r

/-- The seats of the members, and those that are reserved. -/
def MembersStore.seatsTaken (s : MembersStore) (org : Int64) : Int :=
  s.control.countSeats org + s.reserved org

/-- No organization has two invitations for one email, and no invitation is for an owner. -/
structure InvitationsSound (s : MembersStore) : Prop where
  unique : ∀ id id' r r', s.invitations.get? id = some r → s.invitations.get? id' = some r' →
    r.orgId = r'.orgId → r.email = r'.email → id = id'
  plain : ∀ id r, s.invitations.get? id = some r → r.role ≠ "owner"

section Counts

variable {c c' : ControlStore} {s s' : MembersStore} {org user : Int64}

/-- When only one membership has changed, the seats have changed by that one. -/
theorem countSeats_change
    (h : ∀ key, key ≠ (org, user) → c'.members.get? key = c.members.get? key) :
    c'.countSeats org + (if c.hasSeat org user then 1 else 0) =
      c.countSeats org + if c'.hasSeat org user then 1 else 0 := by
  have hany : ∀ c : ControlStore, (c.members.get? (org, user)).any
      (fun m => decide ((org, user).1 = org) && ControlStore.seated m) = c.hasSeat org user := by
    intro c
    unfold ControlStore.hasSeat
    cases c.members.get? (org, user) <;> simp [ControlStore.seated]
  have hcount := Table.count_change h fun k m => decide (k.1 = org) && ControlStore.seated m
  rw [hany, hany] at hcount
  unfold ControlStore.countSeats
  exact_mod_cast hcount

/-- A membership of another organization does not count. -/
theorem countSeats_other {o : Int64} (hne : o ≠ org)
    (h : ∀ key, key ≠ (org, user) → c'.members.get? key = c.members.get? key) :
    c'.countSeats o = c.countSeats o := by
  unfold ControlStore.countSeats
  rw [Table.count_congr fun k m => ?_]
  by_cases hk : k.1 = o
  · rw [h k fun heq => hne (by rw [← hk, heq])]
  · simp [hk]

theorem countSeats_le {o : Int64}
    (h : ∀ key, key ≠ (org, user) → c'.members.get? key = c.members.get? key)
    (hseat : c'.hasSeat org user = true → c.hasSeat org user = true) :
    c'.countSeats o ≤ c.countSeats o := by
  by_cases ho : o = org
  · subst ho
    have := countSeats_change h
    split at this <;> split at this
    · omega
    · omega
    · rename_i hbefore hafter
      exact absurd (hseat hafter) hbefore
    · omega
  · exact le_of_eq (countSeats_other ho h)

theorem countSeats_le_succ {o : Int64}
    (h : ∀ key, key ≠ (org, user) → c'.members.get? key = c.members.get? key) :
    c'.countSeats o ≤ c.countSeats o + 1 := by
  by_cases ho : o = org
  · subst ho
    have := countSeats_change h
    split at this <;> split at this <;> omega
  · rw [countSeats_other ho h]
    omega

end Counts

/-! ## What the statements do to the seats -/

section Statements

variable {c : ControlStore} {s s' : MembersStore} {org user o : Int64} {id : Int64}

/-- A role other than owner gives nobody a seat. -/
theorem hasSeat_addMember (c : ControlStore) (orgId userId : Int64) {role : String}
    (hrole : role ≠ "owner")
    (h : ((c.addMember orgId userId role).getD c).hasSeat orgId userId = true) :
    c.hasSeat orgId userId = true := by
  unfold ControlStore.addMember at h
  split at h
  · simp only [ControlStore.hasSeat, Option.getD_some, Table.get?_upsert, if_true] at h ⊢
    cases hrow : c.members.get? (orgId, userId) with
    | none => simp [hrow, hrole] at h
    | some m =>
      simp only [hrow, Option.elim_some, Option.any_some, hrole, decide_false, Bool.or_false] at h
      simp [h]
  · exact h

theorem hasSeat_removeMember (c : ControlStore) (orgId userId : Int64) :
    (c.removeMember orgId userId).hasSeat orgId userId = false := by
  cases hrow : c.members.get? (orgId, userId) <;>
    simp [ControlStore.hasSeat, ControlStore.removeMember, hrow]

theorem get?_writeRole_ne (c : ControlStore) (orgId target : Int64) (role : String)
    (current : Option String) {key : Int64 × Int64} (hkey : key ≠ (orgId, target)) :
    (writeRole c orgId target role current).1.members.get? key = c.members.get? key :=
  get?_writeRole c orgId target role current fun heq => absurd heq hkey

/-- An acceptance gives a seat to a user who had one, or whose invitation has reserved it. -/
theorem hasSeat_joinMember (c : ControlStore) (orgId userId : Int64) {role : String} {seat : Bool}
    (hrole : role ≠ "owner") (h : (c.joinMember orgId userId role seat).hasSeat orgId userId = true) :
    seat = true ∨ c.hasSeat orgId userId = true := by
  simp only [ControlStore.hasSeat, ControlStore.joinMember, Table.get?_upsert, if_true] at h ⊢
  cases hrow : c.members.get? (orgId, userId) with
  | none => simpa [hrow, hrole] using h
  | some m =>
    simp only [hrow, Option.elim_some, Option.any_some, hrole, decide_false, Bool.or_false,
      Bool.or_eq_true] at h
    simp only [Option.any_some, Bool.or_eq_true]
    tauto

/-! ### Invitations -/

/-- When only one invitation has changed, the reservations have changed by that one. -/
theorem reserved_change (hnow : s'.now = s.now)
    (h : ∀ k, k ≠ id → s'.invitations.get? k = s.invitations.get? k) (o : Int64) :
    s'.reserved o +
        (if (s.invitations.get? id).any (MembersStore.reserves s.now o) then 1 else 0) =
      s.reserved o +
        if (s'.invitations.get? id).any (MembersStore.reserves s.now o) then 1 else 0 := by
  have hcount := Table.count_change h fun _ r => MembersStore.reserves s.now o r
  unfold MembersStore.reserved
  rw [hnow]
  exact_mod_cast hcount

theorem invitationFor_eq_some {email : String} (h : s.invitationFor o email = some id) :
    ∃ r, s.invitations.get? id = some r ∧ r.orgId = o ∧ r.email = email := by
  obtain ⟨⟨k, r⟩, hfind, rfl⟩ := Option.map_eq_some_iff.1 h
  have hmeets := List.find?_some hfind
  rw [Bool.and_eq_true, decide_eq_true_eq, decide_eq_true_eq] at hmeets
  exact ⟨r, Table.get?_eq_some_iff.2 (List.mem_of_find?_eq_some hfind), hmeets⟩

theorem invitationFor_eq_none {email : String} (h : s.invitationFor o email = none) {k : Int64}
    {r : InvitationRow} (hr : s.invitations.get? k = some r) : ¬ (r.orgId = o ∧ r.email = email) := by
  rw [MembersStore.invitationFor, Option.map_eq_none_iff, List.find?_eq_none] at h
  have := h _ (Table.get?_eq_some_iff.1 hr)
  simpa using this

/-- What an insert of an invitation does: it replaces the one for the email, or is new. -/
theorem insertInvitation_spec {row : InvitationRow} {id' : Int64}
    (h : s.insertInvitation id row = some (s', id')) :
    s'.control = s.control ∧ s'.now = s.now ∧
      (∀ k, s'.invitations.get? k = if k = id' then some row else s.invitations.get? k) ∧
      (s.invitationFor row.orgId row.email = some id' ∨
        s.invitationFor row.orgId row.email = none ∧ s.invitations.get? id' = none) := by
  simp only [MembersStore.insertInvitation] at h
  split at h
  · cases h
  · split at h
    · rename_i old hold
      cases h
      refine ⟨rfl, rfl, fun k => ?_, .inl hold⟩
      obtain ⟨r, hr, -⟩ := invitationFor_eq_some hold
      by_cases hk : k = id'
      · subst hk
        simp [hr]
      · simp [hk]
    · rename_i hnone
      obtain ⟨invitations, hins, heq⟩ := Option.map_eq_some_iff.1 h
      cases heq
      refine ⟨rfl, rfl, Table.get?_insert? hins, .inr ⟨hnone, ?_⟩⟩
      exact Table.has_eq_false_iff.1 (Table.has_of_insert? hins)

/-- The new invitation replaces what was counted beside it. -/
theorem seatsTaken_insert (hsound : InvitationsSound s) {row : InvitationRow} {id' : Int64}
    (h : s.insertInvitation id row = some (s', id')) :
    s'.seatsTaken row.orgId ≤ s.seatsUsedBeside row.orgId row.email + 1 ∧
      ∀ o, o ≠ row.orgId → s'.seatsTaken o = s.seatsTaken o := by
  obtain ⟨hcontrol, hnow, hget, hold⟩ := insertInvitation_spec h
  have hoff : ∀ k, k ≠ id' → s'.invitations.get? k = s.invitations.get? k := fun k hk => by
    rw [hget k, if_neg hk]
  have hthis : ∀ r, s.invitations.get? id' = some r → r.orgId = row.orgId ∧ r.email = row.email := by
    intro r hr
    rcases hold with hold | ⟨-, hnone⟩
    · obtain ⟨r', hr', hkey⟩ := invitationFor_eq_some hold
      rw [hr'] at hr
      cases hr
      exact hkey
    · rw [hnone] at hr
      cases hr
  constructor
  · -- the invitations that are counted are those under another id
    have hbeside : (s.invitations.count fun k r => k ≠ id' && MembersStore.reserves s.now row.orgId r) =
        s.invitations.count fun _ r =>
          MembersStore.reserves s.now row.orgId r && r.email ≠ row.email := by
      refine Table.count_congr fun k r => ?_
      refine and_congr_right fun hr => ?_
      by_cases horg : r.orgId = row.orgId
      · have hiff : k = id' ↔ r.email = row.email := by
          constructor
          · rintro rfl
            exact (hthis r hr).2
          · intro hemail
            rcases hold with hold | ⟨hnone, -⟩
            · obtain ⟨r', hr', horg', hemail'⟩ := invitationFor_eq_some hold
              exact hsound.unique k id' r r' hr hr' (horg.trans horg'.symm)
                (hemail.trans hemail'.symm)
            · exact absurd ⟨horg, hemail⟩ (invitationFor_eq_none hnone hr)
        simp [hiff, and_comm]
      · simp [MembersStore.reserves, horg]
    have hchange := reserved_change hnow hoff row.orgId
    have hsplit := Table.count_split s.invitations
      (fun _ r => MembersStore.reserves s.now row.orgId r) id'
    rw [hbeside] at hsplit
    have hreserved : s.reserved row.orgId =
        (s.invitations.count fun _ r =>
          MembersStore.reserves s.now row.orgId r && r.email ≠ row.email : Int) +
          if (s.invitations.get? id').any (MembersStore.reserves s.now row.orgId) then 1 else 0 := by
      unfold MembersStore.reserved
      exact_mod_cast hsplit
    have hone : (if (s'.invitations.get? id').any (MembersStore.reserves s.now row.orgId) then 1
        else 0 : Int) ≤ 1 := by
      split <;> decide
    unfold MembersStore.seatsTaken MembersStore.seatsUsedBeside
    rw [hcontrol]
    omega
  · intro o ho
    have hchange := reserved_change hnow hoff o
    have hnew : (s'.invitations.get? id').any (MembersStore.reserves s.now o) = false := by
      simp [hget, MembersStore.reserves, Ne.symm ho]
    have hbefore : (s.invitations.get? id').any (MembersStore.reserves s.now o) = false := by
      cases hr : s.invitations.get? id' with
      | none => rfl
      | some r => simp [MembersStore.reserves, (hthis r hr).1, Ne.symm ho]
    rw [hnew, hbefore] at hchange
    unfold MembersStore.seatsTaken
    rw [hcontrol]
    omega

theorem invitationToAccept_spec {hash email : String} {r : InvitationRow}
    (h : s.invitationToAccept hash email = some (id, r)) :
    s.invitations.get? id = some r ∧ s.now < r.expiresAt := by
  have hmeets := List.find?_some h
  simp only [MembersStore.acceptable, Bool.and_eq_true, decide_eq_true_eq] at hmeets
  exact ⟨Table.get?_eq_some_iff.2 (List.mem_of_find?_eq_some h), hmeets.2⟩

/-- An acceptance takes no seat that was not taken. -/
theorem seatsTaken_accept (hsound : InvitationsSound s) (hash email : String) (userId o : Int64) :
    (((s.acceptOrgInvitation hash userId email).map Prod.fst).getD s).seatsTaken o ≤
      s.seatsTaken o := by
  unfold MembersStore.acceptOrgInvitation
  cases hfound : s.invitationToAccept hash email with
  | none => exact le_refl _
  | some found =>
    obtain ⟨id, r⟩ := found
    obtain ⟨hrow, hlive⟩ := invitationToAccept_spec hfound
    simp only
    split
    · have hoff : ∀ k, k ≠ id →
          (s.invitations.delete fun k _ => k = id).get? k = s.invitations.get? k := by
        intro k hk
        cases hr : s.invitations.get? k <;> simp [hk, hr]
      -- the invitation has reserved a seat of its organization, if it has reserved one
      have hreserved : MembersStore.reserved { s with
            invitations := s.invitations.delete fun k _ => k = id
            control := s.control.joinMember r.orgId userId r.role r.seat } o +
          (if (s.invitations.get? id).any (MembersStore.reserves s.now o) then 1 else 0) =
          s.reserved o + if ((s.invitations.delete fun k _ => k = id).get? id).any
            (MembersStore.reserves s.now o) then 1 else 0 := by
        refine reserved_change ?_ ?_ o
        · rfl
        · exact hoff
      have hgone : (s.invitations.delete fun k _ => k = id).get? id = none := by simp [hrow]
      have hwas : Option.any (MembersStore.reserves s.now o) (some r) =
          decide (r.orgId = o ∧ r.seat = true) := by
        simp [MembersStore.reserves, hlive]
      simp only [hgone, hrow, hwas, Option.any_none, Bool.false_eq_true, if_false, add_zero,
        decide_eq_true_eq] at hreserved
      have hmember : ∀ key, key ≠ (r.orgId, userId) →
          (s.control.joinMember r.orgId userId r.role r.seat).members.get? key =
            s.control.members.get? key :=
        fun _ hkey => s.control.get?_joinMember_ne r.orgId userId r.role r.seat hkey
      have hseats : (s.control.joinMember r.orgId userId r.role r.seat).countSeats o ≤
          s.control.countSeats o + if r.orgId = o ∧ r.seat = true then 1 else 0 := by
        split
        · exact countSeats_le_succ hmember
        · rename_i hgives
          rw [add_zero]
          by_cases horg : o = r.orgId
          · refine countSeats_le hmember fun hafter => ?_
            refine (hasSeat_joinMember _ _ _ (hsound.plain id r hrow) hafter).resolve_left ?_
            exact fun hseat => hgives ⟨horg.symm, hseat⟩
          · exact le_of_eq (countSeats_other horg hmember)
      simp only [Option.map_some, Option.getD_some, MembersStore.seatsTaken]
      omega
    · exact le_refl _

/-- What a renewal does: the invitation keeps all but the token and the time. -/
theorem refreshOrgInvitation_spec {hash : String} {expiresAt : Micros} {byOwner : Bool}
    {out : Option OrgInvitation}
    (h : s.refreshOrgInvitation org id hash expiresAt byOwner = some (s', out)) :
    s'.control = s.control ∧ s'.now = s.now ∧
      ∀ k, s'.invitations.get? k = (s.invitations.get? k).map fun r =>
        if k = id ∧ r.orgId = org then
          { r with tokenHash := hash, expiresAt := expiresAt, byOwner := r.byOwner || byOwner }
        else r := by
  simp only [MembersStore.refreshOrgInvitation] at h
  split at h
  · cases h
  · cases h
    refine ⟨rfl, rfl, fun k => ?_⟩
    simp only [Table.get?_update, Bool.and_eq_true, decide_eq_true_eq]

/-- A renewal takes one seat at most, and none but for an expired reservation. -/
theorem seatsTaken_refresh {hash : String} {expiresAt : Micros} {byOwner : Bool}
    {out : Option OrgInvitation}
    (h : s.refreshOrgInvitation org id hash expiresAt byOwner = some (s', out)) (o : Int64) :
    s'.seatsTaken o ≤ s.seatsTaken o + 1 ∧
      ((∀ r, s.invitations.get? id = some r → r.orgId = org → r.orgId = o → r.seat = true →
        s.now < r.expiresAt) → s'.seatsTaken o ≤ s.seatsTaken o) := by
  obtain ⟨hcontrol, hnow, hget⟩ := refreshOrgInvitation_spec h
  have hoff : ∀ k, k ≠ id → s'.invitations.get? k = s.invitations.get? k := by
    intro k hk
    rw [hget k]
    cases s.invitations.get? k <;> simp [hk]
  have hchange := reserved_change hnow hoff o
  unfold MembersStore.seatsTaken
  rw [hcontrol]
  constructor
  · split at hchange <;> split at hchange <;> omega
  · intro hlive
    have hmono : (s'.invitations.get? id).any (MembersStore.reserves s.now o) = true →
        (s.invitations.get? id).any (MembersStore.reserves s.now o) = true := by
      rw [hget id]
      cases hrow : s.invitations.get? id with
      | none => exact fun h => by cases h
      | some r =>
        simp only [Option.map_some, Option.any_some, MembersStore.reserves, Bool.and_eq_true,
          decide_eq_true_eq, true_and]
        split
        · rename_i horg
          exact fun ⟨⟨ho, hseat⟩, _⟩ => ⟨⟨ho, hseat⟩, hlive r hrow horg ho hseat⟩
        · exact fun h => h
    split at hchange <;> split at hchange
    · omega
    · omega
    · rename_i hbefore hafter
      exact absurd (hmono hafter) hbefore
    · omega

end Statements

/-! ## What the handlers have counted -/

/-- What a request knows: it invites and adds no owner, and what it has counted is below the
limit. -/
def MemberOp.Counted (E : MembersEnv) : MemberOp → Prop
  | addFinding _ _ role | addWriting _ _ role _ | inviteFinding _ _ role | inviteReading _ _ role _
  | inviteCounting _ _ role _ => role ≠ "owner"
  | inviteInserting actor _ role _ used =>
    role ≠ "owner" ∧ ∀ limit, E.seatLimit actor.org.id = some limit → used < limit
  | seatCounting actor _ limit | seatChecking actor _ limit _ => E.seatLimit actor.org.id = some limit
  | seatWriting actor _ _ already used =>
    already = false → ∀ limit, E.seatLimit actor.org.id = some limit → used < limit
  | _ => True

section Checks

variable {E : MembersEnv} {s : MembersStore} {chance : MemberChance}

theorem inviteRole_ne_owner (role : Option String) : inviteRole role ≠ "owner" := by
  unfold inviteRole
  split <;> decide

theorem counted_enter (actor : Actor) (request : MemberRequest) :
    (request.enter E chance actor).Counted E := by
  cases request <;> simp only [MemberRequest.enter] <;> repeat' split
  all_goals first | trivial | exact inviteRole_ne_owner _

theorem counted_next (answered : Bool) {op : MemberOp} (h : op.Counted E) :
    (op.next E s chance answered).Counted E := by
  cases op with
  | arriving cookie request =>
    simp only [MemberOp.next, MemberRequest.arrive]
    split
    · split <;> trivial
    · split
      · trivial
      · exact counted_enter ..
  | seatReading actor target seat =>
    simp only [MemberOp.next]
    generalize (if answered = true then s.control.orgRole actor.org.id target else none) = current
    split
    · trivial
    · split
      · rename_i limit hlimit
        exact hlimit
      · exact fun h => by cases h
  | seatChecking actor target limit used =>
    simp only [MemberOp.next]
    generalize (answered && s.control.hasSeat actor.org.id target) = already
    split
    · trivial
    · rename_i hroom
      rintro rfl limit' hlimit
      rw [show E.seatLimit actor.org.id = some limit from h, Option.some.injEq] at hlimit
      simpa [hlimit] using hroom
  | inviteCounting actor email role token =>
    simp only [MemberOp.next]
    split
    · trivial
    · split
      · trivial
      · rename_i hroom
        refine ⟨h, fun limit hlimit => ?_⟩
        simpa [hlimit] using hroom
  | roleReading actor target role =>
    simp only [MemberOp.next]
    generalize (if answered = true then s.control.orgRole actor.org.id target else none) = current
    unfold afterRoleRead
    repeat' split
    all_goals trivial
  | _ =>
    simp only [MemberOp.next, roleReply, replyErr]
    repeat' split
    all_goals trivial

end Checks

/-! ## The limit -/

/-- A call that is about to take effect has a seat left to take, or takes none.  Where the
request has counted, it is enough that the count is not too low. -/
def MemberOp.HasRoom (s : MembersStore) (org : Int64) (limit : Int) : MemberOp → Prop
  | roleWriting actor target role current _ => actor.org.id = org →
    s.control.hasSeat org target = false →
    (writeRole s.control org target role current).1.hasSeat org target = true →
    s.seatsTaken org < limit
  | seatWriting actor target seat already used => actor.org.id = org →
    s.control.hasSeat org target = false →
    (s.control.setSeat org target seat).1.hasSeat org target = true →
    s.seatsTaken org < limit ∨ already = false ∧ s.seatsTaken org ≤ used
  | inviteInserting actor email _ _ used => actor.org.id = org →
    s.seatsUsedBeside org email < limit ∨ s.seatsUsedBeside org email ≤ used
  | resending actor id _ => actor.org.id = org → ∀ r, s.invitations.get? id = some r →
    r.orgId = org → r.seat = true → r.expiresAt ≤ s.now → s.seatsTaken org < limit
  | _ => True

/-- The calls of a run that take a seat have one left. -/
def SeatsLeft (org : Int64) (limit : Int) (s : Membership) (e : MemberEvent) (_ : Membership) :
    Prop :=
  match e with
  | .advance i chance => ∀ op, s.inFlight[i]? = some op → chance.result ≠ .failed →
    op.HasRoom s.store org limit
  | _ => True

/-- What a run keeps. -/
structure WithinLimit (E : MembersEnv) (org : Int64) (limit : Int) (s : Membership) : Prop where
  sound : InvitationsSound s.store
  within : s.store.seatsTaken org ≤ limit
  counted : ∀ op ∈ s.inFlight, op.Counted E

section Limit

variable {E : MembersEnv} {s s' : MembersStore} {org : Int64} {limit : Int} {op : MemberOp}
  {chance : MemberChance}

theorem InvitationsSound.of_get? (h : InvitationsSound s)
    (hget : ∀ k r', s'.invitations.get? k = some r' → ∃ r, s.invitations.get? k = some r ∧
      r'.orgId = r.orgId ∧ r'.email = r.email ∧ r'.role = r.role) : InvitationsSound s' := by
  constructor
  · intro id id' r r' hr hr' horg hemail
    obtain ⟨q, hq, hqo, hqe, -⟩ := hget id r hr
    obtain ⟨q', hq', hqo', hqe', -⟩ := hget id' r' hr'
    exact h.unique id id' q q' hq hq' (hqo.symm.trans (horg.trans hqo'))
      (hqe.symm.trans (hemail.trans hqe'))
  · intro id r hr
    obtain ⟨q, hq, -, -, hrole⟩ := hget id r hr
    rw [hrole]
    exact h.plain id q hq

theorem InvitationsSound.of_eq (h : InvitationsSound s) (heq : s'.invitations = s.invitations) :
    InvitationsSound s' :=
  h.of_get? fun _ r hr => ⟨r, heq ▸ hr, rfl, rfl, rfl⟩

theorem InvitationsSound.delete (h : InvitationsSound s) {p : Int64 → InvitationRow → Bool}
    (heq : s'.invitations = s.invitations.delete p) : InvitationsSound s' := by
  refine h.of_get? fun k r hr => ⟨r, ?_, rfl, rfl, rfl⟩
  rw [heq, Table.get?_delete, Option.filter_eq_some_iff] at hr
  exact hr.1

theorem InvitationsSound.insert (h : InvitationsSound s) {id id' : Int64} {row : InvitationRow}
    (hrole : row.role ≠ "owner") (hins : s.insertInvitation id row = some (s', id')) :
    InvitationsSound s' := by
  obtain ⟨-, -, hget, hold⟩ := insertInvitation_spec hins
  -- another invitation is for another email
  have hother : ∀ k r, k ≠ id' → s.invitations.get? k = some r →
      ¬ (r.orgId = row.orgId ∧ r.email = row.email) := by
    rintro k r hk hr ⟨horg, hemail⟩
    rcases hold with hold | ⟨hnone, -⟩
    · obtain ⟨q, hq, hqo, hqe⟩ := invitationFor_eq_some hold
      exact hk (h.unique k id' r q hr hq (horg.trans hqo.symm) (hemail.trans hqe.symm))
    · exact invitationFor_eq_none hnone hr ⟨horg, hemail⟩
  constructor
  · intro k k' r r' hr hr' horg hemail
    rw [hget k] at hr
    rw [hget k'] at hr'
    split at hr <;> split at hr'
    · rename_i hk hk'
      exact hk.trans hk'.symm
    · rename_i hk'
      cases hr
      exact absurd ⟨horg.symm, hemail.symm⟩ (hother k' r' hk' hr')
    · rename_i hk _
      cases hr'
      exact absurd ⟨horg, hemail⟩ (hother k r hk hr)
    · exact h.unique k k' r r' hr hr' horg hemail
  · intro k r hr
    rw [hget k] at hr
    split at hr
    · cases hr
      exact hrole
    · exact h.plain k r hr

theorem invitationsSound_effect (h : InvitationsSound s) (hcounted : op.Counted E) :
    InvitationsSound (op.effect E s chance) := by
  cases op with
  | inviteInserting actor email role token used =>
    simp only [MemberOp.effect]
    cases hins : s.insertInvitation chance.invitationId (newInvitation E s actor email role token) with
    | none => exact h
    | some out =>
      obtain ⟨s', id'⟩ := out
      exact h.insert hcounted.1 hins
  | resending actor id token =>
    simp only [MemberOp.effect]
    cases href : resend E s actor id token with
    | none => exact h
    | some out =>
      obtain ⟨s', i⟩ := out
      obtain ⟨-, -, hget⟩ := refreshOrgInvitation_spec href
      refine h.of_get? fun k r hr => ?_
      rw [show (Option.map Prod.fst (some (s', i))).getD s = s' from rfl, hget k] at hr
      obtain ⟨q, hq, rfl⟩ := Option.map_eq_some_iff.1 hr
      refine ⟨q, hq, ?_⟩
      split <;> exact ⟨rfl, rfl, rfl⟩
  | revoking actor id => exact h.delete (p := fun k r => k = id && r.orgId = actor.org.id) rfl
  | accepting user session token =>
    simp only [MemberOp.effect, MembersStore.acceptOrgInvitation]
    split
    · exact h
    · rename_i id r hfound
      split
      · exact h.delete (p := fun k _ => k = id) rfl
      · exact h
  | _ => exact h.of_eq rfl

/-- A call that has a seat left leaves the organization within its limit. -/
theorem seatsTaken_effect (hlimit : E.seatLimit org = some limit) (hsound : InvitationsSound s)
    (hwithin : s.seatsTaken org ≤ limit) (hcounted : op.Counted E)
    (hroom : op.HasRoom s org limit) : (op.effect E s chance).seatsTaken org ≤ limit := by
  -- a call that writes one membership, which has a seat after it
  have hmember : ∀ (c : ControlStore) (o target : Int64),
      (∀ key, key ≠ (o, target) → c.members.get? key = s.control.members.get? key) →
      (o = org → c.hasSeat o target = true → s.control.hasSeat o target = false →
        s.seatsTaken org < limit) →
      ({ s with control := c } : MembersStore).seatsTaken org ≤ limit := by
    intro c o target hoff hgives
    show c.countSeats org + s.reserved org ≤ limit
    have hsplit : s.seatsTaken org = s.control.countSeats org + s.reserved org := rfl
    by_cases hnew : o = org ∧ c.hasSeat o target = true ∧ s.control.hasSeat o target = false
    · have := countSeats_le_succ (o := org) hoff
      have := hgives hnew.1 hnew.2.1 hnew.2.2
      omega
    · have hle : c.countSeats org ≤ s.control.countSeats org := by
        by_cases ho : o = org
        · refine countSeats_le hoff fun hafter => ?_
          by_contra hbefore
          exact hnew ⟨ho, hafter, Bool.not_eq_true _ ▸ hbefore⟩
        · exact le_of_eq (countSeats_other (Ne.symm ho) hoff)
      omega
  cases op with
  | addWriting actor email role target =>
    refine hmember _ _ target
      (fun key => s.control.get?_addMember_ne actor.org.id target role) fun _ hafter hbefore => ?_
    rw [hasSeat_addMember _ _ _ hcounted hafter] at hbefore
    cases hbefore
  | roleWriting actor target role current owners =>
    refine hmember _ _ target (fun key => get?_writeRole_ne _ _ _ _ _) ?_
    rintro rfl hafter hbefore
    exact hroom rfl hbefore hafter
  | removeWriting actor target current =>
    refine hmember _ _ target
      (fun key => s.control.get?_removeMember_ne actor.org.id target) fun _ hafter _ => ?_
    rw [hasSeat_removeMember] at hafter
    cases hafter
  | seatWriting actor target seat already used =>
    refine hmember _ _ target (fun key => s.control.get?_setSeat_ne actor.org.id target seat) ?_
    rintro rfl hafter hbefore
    rcases hroom rfl hbefore hafter with hleft | ⟨halready, hright⟩
    · exact hleft
    · exact lt_of_le_of_lt hright (hcounted halready limit hlimit)
  | inviteInserting actor email role token used =>
    simp only [MemberOp.effect]
    cases hins : s.insertInvitation chance.invitationId (newInvitation E s actor email role token) with
    | none => exact hwithin
    | some out =>
      obtain ⟨s', id'⟩ := out
      obtain ⟨hthis, hother⟩ := seatsTaken_insert hsound hins
      show s'.seatsTaken org ≤ limit
      by_cases horg : actor.org.id = org
      · subst horg
        have hle : s'.seatsTaken actor.org.id ≤ s.seatsUsedBeside actor.org.id email + 1 := hthis
        have hlt : s.seatsUsedBeside actor.org.id email < limit := by
          rcases hroom rfl with hleft | hright
          · exact hleft
          · exact lt_of_le_of_lt hright (hcounted.2 limit hlimit)
        omega
      · rw [hother org (Ne.symm horg)]
        exact hwithin
  | resending actor id token =>
    simp only [MemberOp.effect]
    cases href : resend E s actor id token with
    | none => exact hwithin
    | some out =>
      obtain ⟨s', i⟩ := out
      obtain ⟨hsucc, hlive⟩ := seatsTaken_refresh href org
      show s'.seatsTaken org ≤ limit
      by_cases hexpired : ∀ r, s.invitations.get? id = some r → r.orgId = actor.org.id →
          r.orgId = org → r.seat = true → s.now < r.expiresAt
      · exact (hlive hexpired).trans hwithin
      · push Not at hexpired
        obtain ⟨r, hr, hactor, horg, hseat, hold⟩ := hexpired
        have := hroom (hactor.symm.trans horg) r hr horg hseat hold
        omega
  | revoking actor id =>
    refine le_trans ?_ hwithin
    have hle : (s.revokeOrgInvitation actor.org.id id).1.reserved org ≤ s.reserved org :=
      Int.ofNat_le.2 (s.invitations.count_delete_le (fun k r => k = id && r.orgId = actor.org.id) _)
    exact Int.add_le_add_left hle _
  | accepting user session token =>
    exact (seatsTaken_accept hsound _ _ _ org).trans hwithin
  | _ => exact hwithin

theorem withinLimit_commit {c : MemberCommit} (hsound : InvitationsSound s)
    (hwithin : s.seatsTaken org ≤ limit) (h : commitMembers s c = some s') :
    InvitationsSound s' ∧ s'.seatsTaken org ≤ limit := by
  cases c with
  | tick now =>
    obtain ⟨hle, heq⟩ := Option.ite_none_right_eq_some.1 h
    cases heq
    refine ⟨hsound.of_eq rfl, le_trans (Int.add_le_add_left ?_ _) hwithin⟩
    -- what is live later was live before
    refine Int.ofNat_le.2 (List.countP_mono_left fun r _ hr => ?_)
    simp only [MembersStore.reserves, Bool.and_eq_true, decide_eq_true_eq] at hr ⊢
    exact ⟨hr.1, lt_of_le_of_lt hle hr.2⟩
  | prune =>
    cases h
    refine ⟨hsound.delete (p := fun _ r => decide (r.expiresAt < s.now)) rfl,
      le_trans (Int.add_le_add_left ?_ _) hwithin⟩
    exact Int.ofNat_le.2 (s.invitations.count_delete_le (fun _ r => decide (r.expiresAt < s.now)) _)
  | signUp userId email =>
    obtain ⟨-, h⟩ := Option.ite_none_right_eq_some.1 h
    obtain ⟨users, -, rfl⟩ := Option.map_eq_some_iff.1 h
    exact ⟨hsound.of_eq rfl, hwithin⟩
  | signIn _ _ | provision _ _ =>
    cases h
    exact ⟨hsound.of_eq rfl, hwithin⟩

theorem withinLimit_step {t t' : Membership} {e : MemberEvent} (hlimit : E.seatLimit org = some limit)
    (h : WithinLimit E org limit t) (hstep : (membership E).step t e = some t')
    (hroom : SeatsLeft org limit t e t') : WithinLimit E org limit t' := by
  cases Program.effect_of_step hstep with
  | @start op hstarts =>
    refine ⟨h.sound, h.within, fun o ho => ?_⟩
    rcases List.mem_append.1 ho with ho | ho
    · exact h.counted o ho
    · rw [List.mem_singleton.1 ho]
      cases op with
      | arriving cookie request => trivial
      | _ => cases hstarts
  | @advance i chance op store next hop hnext =>
    obtain ⟨rfl, rfl⟩ := memberNext_eq_some hnext
    have hcounted := h.counted op (List.mem_of_getElem? hop)
    refine ⟨?_, ?_, fun o ho => ?_⟩
    · simp only
      split
      · exact h.sound
      · exact invitationsSound_effect h.sound hcounted
    · simp only
      split
      · exact h.within
      · rename_i hresult
        exact seatsTaken_effect hlimit h.sound h.within hcounted (hroom op hop hresult)
    · rcases List.mem_append.1 ho with ho | ho
      · exact h.counted o (List.mem_of_mem_eraseIdx ho)
      · cases Option.mem_toList.1 ho
        exact counted_next _ hcounted
  | abandon hop => exact ⟨h.sound, h.within, fun o ho => h.counted o (List.mem_of_mem_eraseIdx ho)⟩
  | commit hwrite =>
    obtain ⟨hsound, hwithin⟩ := withinLimit_commit h.sound h.within hwrite
    exact ⟨hsound, hwithin, h.counted⟩

end Limit

/-- The guard, where a seat is left for whatever call takes one. -/
def seatsLeft (org : Int64) (limit : Int) (s : Membership) : MemberEvent → Bool
  | .advance i _ => (s.inFlight[i]?).all fun op =>
      match op with
      | .inviteInserting _ email _ _ _ => decide (s.store.seatsUsedBeside org email < limit)
      | .roleWriting _ _ _ _ _ | .seatWriting _ _ _ _ _ | .resending _ _ _ =>
        decide (s.store.seatsTaken org < limit)
      | _ => true
  | _ => true

theorem seatsLeft_sound (org : Int64) (limit : Int) (s : Membership) (e : MemberEvent)
    (s' : Membership) (h : seatsLeft org limit s e = true) : SeatsLeft org limit s e s' := by
  cases e with
  | advance i chance =>
    intro op hop _
    simp only [seatsLeft, hop, Option.all_some] at h
    cases op with
    | roleWriting actor target role current owners => exact fun _ _ _ => of_decide_eq_true h
    | seatWriting actor target seat already used => exact fun _ _ _ => .inl (of_decide_eq_true h)
    | inviteInserting actor email role token used => exact fun _ => .inl (of_decide_eq_true h)
    | resending actor id token => exact fun _ _ _ _ _ _ => of_decide_eq_true h
    | _ => trivial
  | start op | abandon i | commit c => trivial

/-- A server with two seats for every organization. -/
def twoSeats : MembersEnv := { plainEnv with seatLimit := fun _ => some 2 }

/-- Ann invites someone. -/
def annInvites : List MemberEvent :=
  alone "rid_session=a" (.inviteMember "dan@x" none) 7

end ReproitCloud
