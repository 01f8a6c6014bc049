import ReproitCloud.Identity.CliLogin

/-!
# One key for a login of the command line

`MintsOnce` is what an authorization is for: it leads to one key at most, for whoever holds the
device code, after an approval in time, and for the user and the organization of its last
approval.  An approval that comes before the exchange replaces the one before it, and there is
none after it.

* `cli_login_mints_once`: it is so in any state of any run, and the API keys are those from before
  and the ones that were minted.

The approval reads the membership before it writes, and the exchange does not look at it.  So the
user of a key is a member of the organization when it is made if nobody has taken the membership
away since the approving request found it.

An authorization is looked at on its way by `CliStore.Kept`.  What is not consumed has made no
key, and of the membership it is known that it has not been taken away if nobody has counted a
removal (`Tenure`).
-/

namespace ReproitCloud

open Lib

/-! ## What a login is for -/

/-- A key is for the grantee of the last approval of its authorization, which was in time. -/
structure CliMint.Granted (keyHash : String → String) (s : CliStore) (m : CliMint)
    (start : CliStart) (approval : CliApproval) : Prop where
  started : s.started[m.serial]? = some start
  device : keyHash m.presented = keyHash start.deviceCode
  last : s.lastApproval m.serial = some approval
  grantee : approval.orgId = m.orgId ∧ approval.userId = m.userId
  inTime : approval.time < start.expiresAt
  order : approval.time ≤ m.time

/-- One key for an authorization, and no other keys than the ones from before. -/
structure MintsOnce (keyHash : String → String) (before : Table String ApiKeyRow) (s : CliStore) :
    Prop where
  once : (s.minted.map CliMint.serial).Nodup
  granted : ∀ m ∈ s.minted, ∃ start approval, m.Granted keyHash s start approval
  member : ∀ m ∈ s.minted, m.undisturbed = true → m.member = true
  keys : ∀ k row, s.control.apiKeys.get? k = some row → before.get? k = some row ∨
    ∃ m ∈ s.minted, m.keyHash = k ∧ row.orgId = m.orgId ∧ row.createdBy = some m.userId

/-! ## An authorization on its way -/

namespace CliStore

/-- What is known of a membership that was found after so many removals. -/
structure Tenure (s : CliStore) (orgId userId : Int64) (n : Nat) : Prop where
  le : n ≤ s.removals orgId userId
  member : n = s.removals orgId userId → s.control.members.has (orgId, userId) = true

/-- An approved authorization is as its last approval has left it. -/
structure Approved (s : CliStore) (r : CliAuthorizationRow) (approval : CliApproval) : Prop where
  last : s.lastApproval r.serial = some approval
  grantee : r.grantee = some (approval.orgId, approval.userId)
  inTime : approval.time < r.expiresAt
  tenure : s.Tenure approval.orgId approval.userId r.removals

/-- What is so of the authorizations, the approvals and the keys at any time. -/
structure Kept (keyHash : String → String) (before : Table String ApiKeyRow) (s : CliStore) :
    Prop where
  started : ∀ k r, s.authorizations.get? k = some r → ∃ start, s.started[r.serial]? = some start ∧
    keyHash start.deviceCode = k ∧ r.expiresAt = start.expiresAt
  approved : ∀ k r, s.authorizations.get? k = some r → r.approved = true →
    ∃ approval, s.Approved r approval
  unapproved : ∀ k r, s.authorizations.get? k = some r → r.approved = false →
    ∀ a ∈ s.approvals, a.serial ≠ r.serial
  unconsumed : ∀ k r, s.authorizations.get? k = some r → r.consumed = false →
    ∀ m ∈ s.minted, m.serial ≠ r.serial
  approvals : ∀ a ∈ s.approvals, a.serial < s.started.length ∧ a.time ≤ s.now
  minted : MintsOnce keyHash before s

section Keeps

variable {keyHash : String → String} {before : Table String ApiKeyRow} {s s' : CliStore}

/-- Two authorizations are told apart by their places. -/
theorem Kept.key_eq (h : s.Kept keyHash before) {k k' : String} {r r' : CliAuthorizationRow}
    (hr : s.authorizations.get? k = some r) (hr' : s.authorizations.get? k' = some r')
    (hserial : r.serial = r'.serial) : k = k' := by
  obtain ⟨start, hstart, rfl, -⟩ := h.started k r hr
  obtain ⟨start', hstart', rfl, -⟩ := h.started k' r' hr'
  rw [hserial, hstart'] at hstart
  cases hstart
  rfl

/-- A store with fewer authorizations, the same history and no other keys. -/
structure Narrows (s s' : CliStore) : Prop where
  rows : ∀ k r, s'.authorizations.get? k = some r → s.authorizations.get? k = some r
  started : s'.started = s.started
  approvals : s'.approvals = s.approvals
  minted : s'.minted = s.minted
  now : s.now ≤ s'.now
  tenure : ∀ orgId userId n, s.Tenure orgId userId n → s'.Tenure orgId userId n
  keys : ∀ k row, s'.control.apiKeys.get? k = some row → s.control.apiKeys.get? k = some row

theorem Narrows.refl (s : CliStore) : s.Narrows s :=
  ⟨fun _ _ => id, rfl, rfl, rfl, le_rfl, fun _ _ _ => id, fun _ _ => id⟩

theorem lastApproval_congr (h : s'.approvals = s.approvals) (serial : Nat) :
    s'.lastApproval serial = s.lastApproval serial := by
  rw [lastApproval, h, lastApproval]

theorem Narrows.granted (h : s.Narrows s') {m : CliMint} {start : CliStart} {approval : CliApproval}
    (hm : m.Granted keyHash s start approval) : m.Granted keyHash s' start approval where
  started := h.started ▸ hm.started
  device := hm.device
  last := (lastApproval_congr h.approvals m.serial).trans hm.last
  grantee := hm.grantee
  inTime := hm.inTime
  order := hm.order

theorem Narrows.kept (h : s.Narrows s') (hs : s.Kept keyHash before) : s'.Kept keyHash before where
  started k r hr := by
    rw [h.started]
    exact hs.started k r (h.rows k r hr)
  approved k r hr happroved := by
    obtain ⟨approval, happroval⟩ := hs.approved k r (h.rows k r hr) happroved
    exact ⟨approval, (lastApproval_congr h.approvals r.serial).trans happroval.last,
      happroval.grantee, happroval.inTime, h.tenure _ _ _ happroval.tenure⟩
  unapproved k r hr hnot := by
    rw [h.approvals]
    exact hs.unapproved k r (h.rows k r hr) hnot
  unconsumed k r hr hnot := by
    rw [h.minted]
    exact hs.unconsumed k r (h.rows k r hr) hnot
  approvals a ha := by
    rw [h.approvals] at ha
    rw [h.started]
    exact ⟨(hs.approvals a ha).1, (hs.approvals a ha).2.trans h.now⟩
  minted := by
    refine ⟨?_, fun m hm => ?_, fun m hm => ?_, fun k row hrow => ?_⟩
    · rw [h.minted]
      exact hs.minted.once
    · rw [h.minted] at hm
      obtain ⟨start, approval, hgranted⟩ := hs.minted.granted m hm
      exact ⟨start, approval, h.granted hgranted⟩
    · rw [h.minted] at hm
      exact hs.minted.member m hm
    · rw [h.minted]
      exact hs.minted.keys k row (h.keys k row hrow)

end Keeps

/-! ## What keeps an authorization -/

section Calls

variable {keyHash : String → String} {before : Table String ApiKeyRow} {s s' : CliStore}

theorem getElem?_append_of_some {α : Type} {xs ys : List α} {i : Nat} {x : α}
    (h : xs[i]? = some x) : (xs ++ ys)[i]? = some x := by
  obtain ⟨hi, -⟩ := List.getElem?_eq_some_iff.1 h
  rw [List.getElem?_append_left hi]
  exact h

/-- Approvals of other authorizations. -/
theorem lastApproval_append {new : List CliApproval} {serial : Nat}
    (hs' : s'.approvals = s.approvals ++ new) (hnew : ∀ a ∈ new, a.serial ≠ serial) :
    s'.lastApproval serial = s.lastApproval serial := by
  have hnone : new.filter (fun a => a.serial = serial) = [] := by
    rw [List.filter_eq_nil_iff]
    exact fun a ha heq => hnew a ha (of_decide_eq_true heq)
  rw [lastApproval, hs', List.filter_append, hnone, List.append_nil, lastApproval]

/-- Approvals of which the ones of an authorization are all alike. -/
theorem lastApproval_of_mem {new : List CliApproval} {approval : CliApproval} {serial : Nat}
    (hs' : s'.approvals = s.approvals ++ new) (hmem : approval ∈ new)
    (hserial : approval.serial = serial) (halike : ∀ a ∈ new, a.serial = serial → a = approval) :
    s'.lastApproval serial = some approval := by
  have hfiltered : approval ∈ new.filter fun a => a.serial = serial :=
    List.mem_filter.2 ⟨hmem, decide_eq_true hserial⟩
  obtain ⟨a, ha⟩ := Option.isSome_iff_exists.1
    (List.getLast?_isSome.2 (List.ne_nil_of_mem hfiltered))
  obtain ⟨hnew, hsame⟩ := List.mem_filter.1 (List.mem_of_getLast? ha)
  rw [lastApproval, hs', List.filter_append, List.getLast?_append, ha, Option.some_or,
    halike a hnew (of_decide_eq_true hsame)]

theorem mem_approvals_of_lastApproval {serial : Nat} {approval : CliApproval}
    (h : s.lastApproval serial = some approval) : approval ∈ s.approvals := by
  rw [lastApproval] at h
  exact (List.mem_filter.1 (List.mem_of_getLast? h)).1

/-- The keys that were made stay granted with more authorizations and more approvals. -/
theorem mintsOnce_of_append {starts : List CliStart} {new : List CliApproval}
    (h : MintsOnce keyHash before s) (hstarted : s'.started = s.started ++ starts)
    (happrovals : s'.approvals = s.approvals ++ new)
    (hnew : ∀ m ∈ s.minted, ∀ a ∈ new, a.serial ≠ m.serial) (hminted : s'.minted = s.minted)
    (hcontrol : s'.control = s.control) : MintsOnce keyHash before s' := by
  refine ⟨?_, fun m hm => ?_, fun m hm => ?_, fun k row hrow => ?_⟩
  · rw [hminted]
    exact h.once
  · rw [hminted] at hm
    obtain ⟨start, approval, hgranted⟩ := h.granted m hm
    refine ⟨start, approval, ?_⟩
    exact { hgranted with
      started := by
        rw [hstarted]
        exact getElem?_append_of_some hgranted.started
      last := (lastApproval_append happrovals (hnew m hm)).trans hgranted.last }
  · rw [hminted] at hm
    exact h.member m hm
  · rw [hcontrol] at hrow
    rw [hminted]
    exact h.keys k row hrow

/-- A new authorization has its own place. -/
theorem kept_storeAuthorization {deviceCode userCode : String}
    (h : s.storeAuthorization keyHash deviceCode userCode = some s')
    (hs : s.Kept keyHash before) : s'.Kept keyHash before := by
  rw [storeAuthorization, Option.ite_none_right_eq_some, Option.map_eq_some_iff] at h
  obtain ⟨-, authorizations, hinsert, rfl⟩ := h
  have hrow : ∀ k r, authorizations.get? k = some r →
      k = keyHash deviceCode ∧
        r = { userCodeHash := keyHash (toAsciiUppercase userCode), expiresAt := s.now + cliAuthTtl,
              serial := s.started.length } ∨ s.authorizations.get? k = some r := by
    intro k r hr
    rw [Table.get?_insert? hinsert] at hr
    by_cases hk : k = keyHash deviceCode
    · rw [if_pos hk] at hr
      cases hr
      exact .inl ⟨hk, rfl⟩
    · rw [if_neg hk] at hr
      exact .inr hr
  have hminted : ∀ m ∈ s.minted, m.serial < s.started.length := by
    intro m hm
    obtain ⟨start, approval, hgranted⟩ := hs.minted.granted m hm
    exact (List.getElem?_eq_some_iff.1 hgranted.started).1
  refine ⟨fun k r hr => ?_, fun k r hr happroved => ?_, fun k r hr hnot a ha => ?_,
    fun k r hr hnot m hm => ?_, fun a ha => ?_, ?_⟩
  · rcases hrow k r hr with ⟨rfl, rfl⟩ | hold
    · exact ⟨⟨deviceCode, s.now + cliAuthTtl⟩, List.getElem?_concat_length, rfl, rfl⟩
    · obtain ⟨start, hstart, hkey, hexpires⟩ := hs.started k r hold
      exact ⟨start, getElem?_append_of_some hstart, hkey, hexpires⟩
  · rcases hrow k r hr with ⟨rfl, rfl⟩ | hold
    · cases happroved
    · obtain ⟨approval, happroval⟩ := hs.approved k r hold happroved
      exact ⟨approval, happroval.last, happroval.grantee, happroval.inTime,
        happroval.tenure.le, happroval.tenure.member⟩
  · rcases hrow k r hr with ⟨rfl, rfl⟩ | hold
    · exact (hs.approvals a ha).1.ne
    · exact hs.unapproved k r hold hnot a ha
  · rcases hrow k r hr with ⟨rfl, rfl⟩ | hold
    · exact (hminted m hm).ne
    · exact hs.unconsumed k r hold hnot m hm
  · obtain ⟨hlt, htime⟩ := hs.approvals a ha
    refine ⟨?_, htime⟩
    rw [List.length_append]
    exact hlt.trans_le (Nat.le_add_right ..)
  · exact mintsOnce_of_append hs.minted rfl (List.append_nil _).symm
      (fun _ _ _ ha => (List.not_mem_nil ha).elim) rfl rfl

/-- The rows of an approval, with what they were. -/
theorem row_of_approval {s : CliStore} {userCode k : String} {g : Int64 × Int64} {n : Nat}
    {r' : CliAuthorizationRow}
    (h : (s.authorizations.update (fun _ r => s.approvable keyHash userCode r) fun _ r =>
      { r with approved := true, grantee := some g, removals := n }).get? k = some r') :
    ∃ r, s.authorizations.get? k = some r ∧
      (s.approvable keyHash userCode r = true ∧
          r' = { r with approved := true, grantee := some g, removals := n } ∨
        s.approvable keyHash userCode r = false ∧ r' = r) := by
  rw [Table.get?_update, Option.map_eq_some_iff] at h
  obtain ⟨r, hr, rfl⟩ := h
  refine ⟨r, hr, ?_⟩
  cases happrovable : s.approvable keyHash userCode r with
  | true => exact .inl ⟨rfl, if_pos rfl⟩
  | false => exact .inr ⟨rfl, if_neg Bool.false_ne_true⟩

/-- An approval takes the place of the one before it. -/
theorem kept_approve {userCode : String} {userId orgId : Int64} {n : Nat} {one : Bool}
    (h : s.approveCliAuthorization keyHash userCode userId orgId n = some (s', one))
    (hs : s.Kept keyHash before) (htenure : s.Tenure orgId userId n) : s'.Kept keyHash before := by
  rw [approveCliAuthorization] at h
  split at h
  · cases h
    exact hs
  rw [Option.ite_none_right_eq_some] at h
  obtain ⟨-, heq⟩ := h
  cases heq
  have hnew : ∀ a ∈ (s.authorizations.rows.filter fun r => s.approvable keyHash userCode r.2).map
      (fun r => (⟨r.2.serial, orgId, userId, s.now⟩ : CliApproval)), ∃ k r,
        s.authorizations.get? k = some r ∧ s.approvable keyHash userCode r = true ∧
          a = ⟨r.serial, orgId, userId, s.now⟩ := by
    intro a ha
    obtain ⟨⟨k, r⟩, hrow, rfl⟩ := List.mem_map.1 ha
    obtain ⟨hmem, happrovable⟩ := List.mem_filter.1 hrow
    exact ⟨k, r, Table.get?_eq_some_iff.2 hmem, happrovable, rfl⟩
  -- an authorization that the approval does not write to gets no approval
  have hothers : ∀ k r, s.authorizations.get? k = some r →
      s.approvable keyHash userCode r = false →
      ∀ a ∈ (s.authorizations.rows.filter fun r => s.approvable keyHash userCode r.2).map
        (fun r => (⟨r.2.serial, orgId, userId, s.now⟩ : CliApproval)), a.serial ≠ r.serial := by
    intro k r hr hother a ha hserial
    obtain ⟨k2, r2, hr2, happrovable, rfl⟩ := hnew a ha
    cases hs.key_eq hr2 hr hserial
    rw [hr] at hr2
    cases hr2
    exact Bool.noConfusion (happrovable.symm.trans hother)
  refine ⟨fun k r' hr' => ?_, fun k r' hr' happroved => ?_, fun k r' hr' hnot a ha => ?_,
    fun k r' hr' hnot m hm => ?_, fun a ha => ?_, ?_⟩
  · obtain ⟨r, hr, ⟨-, rfl⟩ | ⟨-, rfl⟩⟩ := row_of_approval hr'
    · exact hs.started k r hr
    · exact hs.started k r' hr
  · obtain ⟨r, hr, ⟨happrovable, rfl⟩ | ⟨hother, rfl⟩⟩ := row_of_approval hr'
    · refine ⟨⟨r.serial, orgId, userId, s.now⟩, lastApproval_of_mem rfl ?_ rfl ?_, rfl, ?_,
        htenure.le, htenure.member⟩
      · exact List.mem_map.2
          ⟨(k, r), List.mem_filter.2 ⟨Table.get?_eq_some_iff.1 hr, happrovable⟩, rfl⟩
      · intro a ha hserial
        obtain ⟨_, r2, -, -, rfl⟩ := hnew a ha
        exact congrArg (fun n => (⟨n, orgId, userId, s.now⟩ : CliApproval)) hserial
      · simp only [approvable, Bool.and_eq_true, decide_eq_true_eq] at happrovable
        exact happrovable.1.2
    · obtain ⟨approval, happroval⟩ := hs.approved k r' hr happroved
      exact ⟨approval, (lastApproval_append rfl (hothers k r' hr hother)).trans happroval.last,
        happroval.grantee, happroval.inTime, happroval.tenure.le, happroval.tenure.member⟩
  · obtain ⟨r, hr, ⟨-, rfl⟩ | ⟨hother, rfl⟩⟩ := row_of_approval hr'
    · cases hnot
    · rcases List.mem_append.1 ha with ha | ha
      · exact hs.unapproved k r' hr hnot a ha
      · exact hothers k r' hr hother a ha
  · obtain ⟨r, hr, ⟨-, rfl⟩ | ⟨-, rfl⟩⟩ := row_of_approval hr'
    · exact hs.unconsumed k r hr hnot m hm
    · exact hs.unconsumed k r' hr hnot m hm
  · rcases List.mem_append.1 ha with ha | ha
    · exact hs.approvals a ha
    · obtain ⟨k, r, hr, -, rfl⟩ := hnew a ha
      obtain ⟨start, hstart, -⟩ := hs.started k r hr
      exact ⟨(List.getElem?_eq_some_iff.1 hstart).1, le_rfl⟩
  · refine mintsOnce_of_append hs.minted (List.append_nil _).symm rfl ?_ rfl rfl
    intro m hm a ha hserial
    obtain ⟨k, r, hr, happrovable, rfl⟩ := hnew a ha
    simp only [approvable, Bool.and_eq_true, Bool.not_eq_true'] at happrovable
    exact hs.unconsumed k r hr happrovable.2 m hm hserial.symm

/-- What `create_api_key` writes. -/
theorem get?_createApiKey {c c' : ControlStore} {hash keyPrefix k : String} {orgId userId : Int64}
    {row : ApiKeyRow} (hcreate : c.createApiKey hash keyPrefix orgId userId none = some c')
    (hrow : c'.apiKeys.get? k = some row) :
    k = hash ∧ row.orgId = orgId ∧ row.createdBy = some userId ∨ c.apiKeys.get? k = some row := by
  rw [ControlStore.createApiKey, Option.ite_none_right_eq_some, Option.map_eq_some_iff] at hcreate
  obtain ⟨-, apiKeys, hinsert, rfl⟩ := hcreate
  have hrow : apiKeys.get? k = some row := hrow
  rw [Table.get?_insert? hinsert] at hrow
  by_cases hk : k = hash
  · rw [if_pos hk] at hrow
    cases hrow
    exact .inl ⟨hk, rfl, rfl⟩
  · rw [if_neg hk] at hrow
    exact .inr hrow

theorem members_createApiKey {c c' : ControlStore} {hash keyPrefix : String} {orgId userId : Int64}
    (hcreate : c.createApiKey hash keyPrefix orgId userId none = some c') :
    c'.members = c.members := by
  rw [ControlStore.createApiKey, Option.ite_none_right_eq_some, Option.map_eq_some_iff] at hcreate
  obtain ⟨-, apiKeys, -, rfl⟩ := hcreate
  rfl

/-- A store in which the authorization of a key is consumed, and a key made. -/
structure Mints (s s' : CliStore) (k : String) (row : CliAuthorizationRow) (m : CliMint) :
    Prop where
  found : s.authorizations.get? k = some row
  fresh : row.consumed = false
  serial : m.serial = row.serial
  rows : ∀ k' r', s'.authorizations.get? k' = some r' → ∃ r, s.authorizations.get? k' = some r ∧
    (k' = k ∧ r' = { r with consumed := true } ∨ k' ≠ k ∧ r' = r)
  started : s'.started = s.started
  approvals : s'.approvals = s.approvals
  minted : s'.minted = s.minted ++ [m]
  now : s'.now = s.now
  tenure : ∀ orgId userId n, s.Tenure orgId userId n → s'.Tenure orgId userId n
  keys : ∀ k' key, s'.control.apiKeys.get? k' = some key →
    m.keyHash = k' ∧ key.orgId = m.orgId ∧ key.createdBy = some m.userId ∨
      s.control.apiKeys.get? k' = some key

theorem Mints.granted {k : String} {row : CliAuthorizationRow} {m m' : CliMint} {start : CliStart}
    {approval : CliApproval} (h : s.Mints s' k row m) (hm : m'.Granted keyHash s start approval) :
    m'.Granted keyHash s' start approval where
  started := h.started ▸ hm.started
  device := hm.device
  last := (lastApproval_congr h.approvals m'.serial).trans hm.last
  grantee := hm.grantee
  inTime := hm.inTime
  order := hm.order

theorem Mints.kept {k : String} {row : CliAuthorizationRow} {m : CliMint}
    (h : s.Mints s' k row m) (hs : s.Kept keyHash before)
    (hgranted : ∃ start approval, m.Granted keyHash s start approval)
    (hmember : m.undisturbed = true → m.member = true) :
    s'.Kept keyHash before where
  started k' r' hr' := by
    rw [h.started]
    obtain ⟨r, hr, ⟨-, rfl⟩ | ⟨-, rfl⟩⟩ := h.rows k' r' hr'
    · exact hs.started k' r hr
    · exact hs.started k' r' hr
  approved k' r' hr' happroved := by
    obtain ⟨r, hr, hcase⟩ := h.rows k' r' hr'
    have hkept : ∃ approval, s.Approved r' approval := by
      rcases hcase with ⟨-, rfl⟩ | ⟨-, rfl⟩
      · obtain ⟨approval, ha⟩ := hs.approved k' r hr happroved
        exact ⟨approval, ha.last, ha.grantee, ha.inTime, ha.tenure⟩
      · exact hs.approved k' r' hr happroved
    obtain ⟨approval, ha⟩ := hkept
    exact ⟨approval, (lastApproval_congr h.approvals r'.serial).trans ha.last, ha.grantee,
      ha.inTime, h.tenure _ _ _ ha.tenure⟩
  unapproved k' r' hr' hnot := by
    rw [h.approvals]
    obtain ⟨r, hr, ⟨-, rfl⟩ | ⟨-, rfl⟩⟩ := h.rows k' r' hr'
    · exact hs.unapproved k' r hr hnot
    · exact hs.unapproved k' r' hr hnot
  unconsumed k' r' hr' hnot m' hm' := by
    obtain ⟨r, hr, ⟨-, rfl⟩ | ⟨hk, rfl⟩⟩ := h.rows k' r' hr'
    · cases hnot
    · rw [h.minted, List.mem_append, List.mem_singleton] at hm'
      rcases hm' with hm' | rfl
      · exact hs.unconsumed k' r' hr hnot m' hm'
      · intro hserial
        exact hk (hs.key_eq hr h.found (hserial.symm.trans h.serial))
  approvals a ha := by
    rw [h.approvals] at ha
    rw [h.started, h.now]
    exact hs.approvals a ha
  minted := by
    refine ⟨?_, fun m' hm' => ?_, fun m' hm' => ?_, fun k' key hkey => ?_⟩
    · rw [h.minted, List.map_append, List.map_singleton, List.nodup_append]
      refine ⟨hs.minted.once, List.nodup_singleton _, fun n hn n' hn' => ?_⟩
      obtain ⟨m', hm', rfl⟩ := List.mem_map.1 hn
      rw [List.mem_singleton.1 hn', h.serial]
      exact hs.unconsumed k row h.found h.fresh m' hm'
    · rw [h.minted, List.mem_append, List.mem_singleton] at hm'
      rcases hm' with hm' | rfl
      · obtain ⟨start, approval, hold⟩ := hs.minted.granted m' hm'
        exact ⟨start, approval, h.granted hold⟩
      · obtain ⟨start, approval, hnew⟩ := hgranted
        exact ⟨start, approval, h.granted hnew⟩
    · rw [h.minted, List.mem_append, List.mem_singleton] at hm'
      rcases hm' with hm' | rfl
      · exact hs.minted.member m' hm'
      · exact hmember
    · rw [h.minted]
      rcases h.keys k' key hkey with hnew | hold
      · exact .inr ⟨m, List.mem_append_right _ (List.mem_singleton_self m), hnew⟩
      · rcases hs.minted.keys k' key hold with hbefore | ⟨m', hm', hmint⟩
        · exact .inl hbefore
        · exact .inr ⟨m', List.mem_append_left _ hm', hmint⟩

/-- An exchange makes a key for the grantee of the row that it consumes. -/
theorem kept_consume {deviceCode secret keyPrefix : String} {one : Option Int64}
    (h : s.consumeCliAuthorization keyHash deviceCode secret keyPrefix = some (s', one))
    (hs : s.Kept keyHash before) : s'.Kept keyHash before := by
  rw [consumeCliAuthorization] at h
  cases hrow : s.toConsume keyHash deviceCode with
  | none =>
    rw [hrow] at h
    cases h
    exact hs
  | some row =>
    rw [hrow] at h
    obtain ⟨⟨orgId, userId⟩, hgrantee, h⟩ := Option.bind_eq_some_iff.1 h
    obtain ⟨control, hcreate, heq⟩ := Option.map_eq_some_iff.1 h
    cases heq
    obtain ⟨hget, hstate⟩ := Option.filter_eq_some_iff.1 hrow
    simp only [Bool.and_eq_true, Bool.not_eq_true', decide_eq_true_eq] at hstate
    obtain ⟨⟨happroved, hfresh⟩, -⟩ := hstate
    obtain ⟨start, hstart, hdevice, hexpires⟩ := hs.started _ row hget
    obtain ⟨approval, happroval⟩ := hs.approved _ row hget happroved
    cases happroval.grantee.symm.trans hgrantee
    refine Mints.kept
      { found := hget
        fresh := hfresh
        serial := ?serial
        rows := ?rows
        started := rfl
        approvals := rfl
        minted := rfl
        now := rfl
        tenure := ?tenure
        keys := ?keys } hs
      ⟨start, approval, hstart, hdevice.symm, happroval.last, ⟨rfl, rfl⟩, ?_,
        (hs.approvals approval (mem_approvals_of_lastApproval happroval.last)).2⟩ ?_
    · rfl
    · intro k r' hr'
      rw [Table.get?_update, Option.map_eq_some_iff] at hr'
      obtain ⟨r, hr, rfl⟩ := hr'
      refine ⟨r, hr, ?_⟩
      by_cases hk : k = keyHash deviceCode
      · exact .inl ⟨hk, if_pos (decide_eq_true hk)⟩
      · exact .inr ⟨hk, if_neg fun heq => hk (of_decide_eq_true heq)⟩
    · refine fun o u n ht => ⟨ht.le, fun hn => ?_⟩
      rw [members_createApiKey hcreate]
      exact ht.member hn
    · intro k key hkey
      rcases get?_createApiKey hcreate hkey with ⟨rfl, hrest⟩ | hold
      · exact .inl ⟨rfl, hrest⟩
      · exact .inr hold
    · rw [← hexpires]
      exact happroval.inTime
    · exact fun hundisturbed => happroval.tenure.member (of_decide_eq_true hundisturbed).symm

/-- A call that writes only to other tables. -/
theorem narrows_of_control {control : ControlStore} (hmembers : control.members = s.control.members)
    (hkeys : control.apiKeys = s.control.apiKeys) : s.Narrows { s with control := control } where
  rows _ _ := id
  started := rfl
  approvals := rfl
  minted := rfl
  now := le_rfl
  tenure orgId userId n ht := by
    refine ⟨ht.le, fun hn => ?_⟩
    rw [hmembers]
    exact ht.member hn
  keys k row hrow := by
    rw [hkeys] at hrow
    exact hrow

theorem narrows_pruneAuthorizations (s : CliStore) : s.Narrows s.pruneAuthorizations :=
  { CliStore.Narrows.refl s with
    rows := fun _ _ hr => (Table.get?_of_delete hr).1
    tenure := fun _ _ _ ht => ⟨ht.le, ht.member⟩ }

/-- Memberships that are taken away are counted. -/
theorem Tenure.of_removed (gone : List (Int64 × Int64)) {o u : Int64} {n : Nat}
    (ht : s.Tenure o u n) (hremoved : s'.removed = s.removed ++ gone)
    (hmembers : (o, u) ∉ gone → s.control.members.has (o, u) = true →
      s'.control.members.has (o, u) = true) : s'.Tenure o u n := by
  have hcount : s'.removals o u = s.removals o u + gone.count (o, u) := by
    rw [removals, hremoved, List.count_append, removals]
  refine ⟨?_, fun hn => ?_⟩
  · rw [hcount]
    exact ht.le.trans (Nat.le_add_right ..)
  · have hle := ht.le
    have hnone : gone.count (o, u) = 0 := by omega
    exact hmembers (List.count_eq_zero.1 hnone) (ht.member (by omega))

theorem narrows_removeMember (s : CliStore) (orgId userId : Int64) :
    s.Narrows (s.removeMember orgId userId) :=
  { CliStore.Narrows.refl s with
    tenure := fun o u n ht => ht.of_removed [(orgId, userId)] rfl fun hnot hhas => by
      have hget := Table.get?_delete_of_false s.control.members
        (p := fun k _ => k = (orgId, userId)) (k := (o, u)) fun _ =>
          decide_eq_false (mt List.mem_singleton.2 hnot)
      exact (congrArg Option.isSome hget).trans hhas }

theorem narrows_deleteOrg (s : CliStore) (orgId : Int64) : s.Narrows (s.deleteOrg orgId) :=
  { CliStore.Narrows.refl s with
    rows := fun _ _ hr => (Table.get?_of_delete hr).1
    keys := fun _ _ hk => (Table.get?_of_delete hk).1
    tenure := fun o u n ht => ht.of_removed _ rfl fun hnot hhas => by
      have hother : o ≠ orgId := fun heq => hnot (List.mem_filter.2
        ⟨Table.has_iff_mem_keys.1 hhas, decide_eq_true heq⟩)
      have hget := Table.get?_delete_of_false s.control.members
        (p := fun k _ => k.1 = orgId) (k := (o, u)) fun _ => decide_eq_false hother
      exact (congrArg Option.isSome hget).trans hhas }

/-- What happens beside the requests makes no key, and takes no membership away uncounted. -/
theorem narrows_write {w : CliWrite} (h : w.write s = some s') : s.Narrows s' := by
  cases w with
  | tick now =>
    rw [CliWrite.write, Option.ite_none_right_eq_some] at h
    obtain ⟨hnow, heq⟩ := h
    cases heq
    exact { CliStore.Narrows.refl s with
      now := hnow
      tenure := fun _ _ _ ht => ⟨ht.le, ht.member⟩ }
  | join orgId userId role =>
    rw [CliWrite.write, Option.map_eq_some_iff] at h
    obtain ⟨control, hadd, rfl⟩ := h
    rw [ControlStore.addMember, Option.ite_none_right_eq_some] at hadd
    obtain ⟨-, heq⟩ := hadd
    cases heq
    refine { CliStore.Narrows.refl s with tenure := fun o u n ht => ⟨ht.le, fun hn => ?_⟩ }
    have hhas := Table.has_upsert s.control.members (orgId, userId) { role := role }
      (fun m => { m with role := role }) (o, u)
    rw [ht.member hn, Bool.or_true] at hhas
    exact hhas
  | remove orgId userId =>
    cases h
    exact narrows_removeMember s orgId userId
  | offboard orgId =>
    cases h
    exact narrows_deleteOrg s orgId

end Calls

end CliStore

/-! ## Logins side by side -/

section Outline

variable {E : CliEnv} {before : Table String ApiKeyRow} {s : CliStore} {chance : CliChance}

/-- What a request knows of the membership that it has found. -/
def CliOp.Knows (s : CliStore) : CliOp → Prop
  | approving actor _ removals => s.Tenure actor.org.id actor.user.id removals
  | _ => True

/-- No call of a login takes a membership away. -/
theorem CliOp.tenure_effect (op : CliOp) {o u : Int64} {n : Nat} (ht : s.Tenure o u n) :
    (op.effect E s chance).Tenure o u n := by
  have hsame : (op.effect E s chance).removed = s.removed ∧
      (op.effect E s chance).control.members = s.control.members := by
    cases op with
    | storing client deviceCode userCode =>
      rw [effect, CliStore.storeAuthorization]
      split
      · cases s.authorizations.insert? (E.cfg.keyHash deviceCode) _ <;> exact ⟨rfl, rfl⟩
      · exact ⟨rfl, rfl⟩
    | approving actor code removals =>
      rw [effect, CliStore.approveCliAuthorization]
      split
      · exact ⟨rfl, rfl⟩
      · split <;> exact ⟨rfl, rfl⟩
    | consuming code =>
      rw [effect]
      cases hconsume : s.consumeCliAuthorization E.cfg.keyHash (trimmed code) (newApiKey chance.hex)
          (apiKeyPrefix (newApiKey chance.hex)) with
      | none => exact ⟨rfl, rfl⟩
      | some r =>
        rw [CliStore.consumeCliAuthorization] at hconsume
        split at hconsume
        · cases hconsume
          exact ⟨rfl, rfl⟩
        · obtain ⟨g, -, hmap⟩ := Option.bind_eq_some_iff.1 hconsume
          obtain ⟨control, hcreate, rfl⟩ := Option.map_eq_some_iff.1 hmap
          exact ⟨rfl, CliStore.members_createApiKey hcreate⟩
    | _ => exact ⟨rfl, rfl⟩
  exact ht.of_removed [] (hsame.1.trans (List.append_nil _).symm)
    fun _ hhas => hsame.2 ▸ hhas

/-- A call keeps the authorizations. -/
theorem CliOp.kept_effect {op : CliOp} (hs : s.Kept E.cfg.keyHash before)
    (hknows : op.Knows s) : (op.effect E s chance).Kept E.cfg.keyHash before := by
  cases op with
  | pruning client => exact (CliStore.narrows_pruneAuthorizations s).kept hs
  | storing client deviceCode userCode =>
    rw [effect]
    cases hstore : s.storeAuthorization E.cfg.keyHash deviceCode userCode with
    | none => exact hs
    | some s' => exact CliStore.kept_storeAuthorization hstore hs
  | approving actor code removals =>
    rw [effect]
    cases happrove : s.approveCliAuthorization E.cfg.keyHash (trimmed code) actor.user.id
        actor.org.id removals with
    | none => exact hs
    | some r => exact CliStore.kept_approve happrove hs hknows
  | consuming code =>
    rw [effect]
    cases hconsume : s.consumeCliAuthorization E.cfg.keyHash (trimmed code) (newApiKey chance.hex)
        (apiKeyPrefix (newApiKey chance.hex)) with
    | none => exact hs
    | some r => exact CliStore.kept_consume hconsume hs
  | startAuditing client deviceCode userCode | approveAuditing actor =>
    exact CliStore.Narrows.kept (CliStore.narrows_of_control rfl rfl) hs
  | _ => exact hs

/-- An approval knows of the membership that its gate has found. -/
theorem CliOp.knows_next {op : CliOp} {answered : Bool} :
    (op.next E s chance answered).Knows s := by
  cases op with
  | arriving cookie code =>
    rw [next]
    cases hgate : userAndOrg E.cfg (gate s chance) s.control (cookieCredentials cookie) with
    | error refusal => trivial
    | ok found =>
      obtain ⟨user, org⟩ := found
      refine ⟨le_rfl, fun _ => ?_⟩
      have hrole := orgRole_of_userAndOrg hgate
      rw [ControlStore.orgRole, Option.map_eq_some_iff] at hrole
      obtain ⟨m, hm, -⟩ := hrole
      exact Option.isSome_iff_exists.2 ⟨m, hm⟩
  | pruning client | storing client deviceCode userCode =>
    rw [next]
    split <;> trivial
  | approving actor code removals | consuming code =>
    rw [next]
    split <;> trivial
  | polling code =>
    rw [next]
    split
    · split <;> trivial
    · trivial
  | _ => trivial

theorem CliOp.knows_tenure {s' : CliStore} {op : CliOp} (h : op.Knows s)
    (htenure : ∀ o u n, s.Tenure o u n → s'.Tenure o u n) : op.Knows s' := by
  cases op with
  | approving actor code removals => exact htenure _ _ _ h
  | _ => trivial

theorem keepsOutline_cliLogins :
    KeepsOutline (cliLogins E) (fun _ _ _ => True) (CliStore.Kept E.cfg.keyHash before)
      (fun s op => op.Knows s) (fun _ _ => True) where
  start t _ op _ _ hstarts := by
    refine ⟨?_, fun _ _ => trivial⟩
    cases op with
    | approving actor code removals => cases hstarts
    | _ => trivial
  commit t _ w s' houtline _ hwrite := by
    have hnarrows := CliStore.narrows_write hwrite
    exact ⟨hnarrows.kept houtline.store, fun o ho =>
      CliOp.knows_tenure (houtline.each o ho) hnarrows.tenure⟩
  advance t _ i chance op s' after houtline hok hop hnext := by
    obtain ⟨rfl, rfl⟩ := cliNext_eq_some hnext
    have hknows := houtline.each op (List.mem_of_getElem? hop)
    have hstep : ∀ o u n, t.store.Tenure o u n →
        (if chance.result = .failed then t.store else op.effect E t.store chance).Tenure o u n := by
      intro o u n ht
      split
      · exact ht
      · exact op.tenure_effect ht
    refine ⟨?_, fun o ho =>
      CliOp.knows_tenure (houtline.each o (List.mem_of_mem_eraseIdx ho)) hstep,
        fun op' hop' => ⟨?_, fun _ _ => trivial⟩⟩
    · split
      · exact houtline.store
      · rename_i hresult
        exact CliOp.kept_effect houtline.store hknows
    · cases hop'
      exact CliOp.knows_tenure CliOp.knows_next hstep

end Outline

/-- A server before the first login of a command line. -/
def CliStore.fresh (control : ControlStore) (now : Micros) : CliStore where
  control := control
  now := now

theorem CliStore.kept_fresh (keyHash : String → String) (control : ControlStore) (now : Micros) :
    (CliStore.fresh control now).Kept keyHash control.apiKeys where
  started _ _ hr := by cases hr
  approved _ _ hr := by cases hr
  unapproved _ _ hr := by cases hr
  unconsumed _ _ hr := by cases hr
  approvals _ ha := by cases ha
  minted := ⟨List.nodup_nil, fun _ hm => by (cases hm), fun _ hm => by (cases hm), fun _ _ => .inl⟩

/-- An authorization makes one key, for whom its last approval names. -/
theorem cli_login_mints_once {E : CliEnv} {control : ControlStore} {now : Micros} {t : CliLogins}
    {es : List CliEvent}
    (hrun : Run (stepOf (cliLogins E).step) ⟨.fresh control now, []⟩ es t) :
    MintsOnce E.cfg.keyHash control.apiKeys t.store :=
  ((outline_of_idle (CliStore.kept_fresh E.cfg.keyHash control now) rfl).run
    keepsOutline_cliLogins (hrun.mono fun _ _ _ h => ⟨h, trivial⟩)).store.minted

/-- Ann and Bob, each signed in and in an organization of their own. -/
def annAndBobApart : ControlStore where
  users := ⟨[(1, ⟨"ann@x"⟩), (2, ⟨"bob@x"⟩)], by decide⟩
  orgs := ⟨[(1, { name := "Ann's" }), (2, { name := "Bob's" })], by decide⟩
  members := ⟨[((1, 1), { role := "owner" }), ((2, 2), { role := "owner" })], by decide⟩
  sessions := ⟨[("ann", { userId := 1 }), ("bob", { userId := 2 })], by decide⟩

def cliServer : CliEnv where
  cfg := { keyHash := id }

/-- A command line starts its login. -/
def startsLogin : List CliEvent :=
  .start (.pruning none) ::
    List.replicate 3 (.advance 0 { deviceCode := "device", raw := "01234567" })

/-- Somebody with a session approves it, as the request at an index. -/
def approvesLogin (session : String) (i : Nat) : List CliEvent :=
  [.start (.arriving (.text ("rid_session=" ++ session)) "0123-4567"), .advance i {},
    .advance i {}]

/-- The command line asks for its key in two requests, which both find the approval. -/
def pollsLogin (i : Nat) : List CliEvent :=
  [.start (.polling "device"), .advance i {}, .start (.polling "device"), .advance (i + 1) {},
    .advance i { hex := "00" }, .advance i { hex := "01" }]

/-- Ann approves, then Bob, and of the two requests for the key one gets it, for Bob. -/
theorem cli_login_mints_once_bob :
    ∃ es t, Run (stepOf (cliLogins cliServer).step) ⟨.fresh annAndBobApart 0, []⟩ es t ∧
      t.store.minted.map (fun m => (m.orgId, m.userId)) = [(2, 2)] ∧
      MintsOnce id annAndBobApart.apiKeys t.store := by
  have hsome : (runOf (cliLogins cliServer).step ⟨.fresh annAndBobApart 0, []⟩
      (startsLogin ++ approvesLogin "ann" 1 ++ approvesLogin "bob" 2 ++ pollsLogin 3)).map
        (fun t => t.store.minted.map fun m => (m.orgId, m.userId)) =
      some [(2, 2)] := by decide
  obtain ⟨t, ht, hend⟩ := Option.map_eq_some_iff.1 hsome
  have hrun := Run.of_runOf ht
  exact ⟨_, t, hrun, hend, cli_login_mints_once hrun⟩

end ReproitCloud
