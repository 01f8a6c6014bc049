import ReproitCloud.Lib.Turns
import ReproitCloud.Tenancy.Store

/-!
# The turns of the resolution sweep

`tenant_due_work` says when a tenant's next sweep is due.  A pass takes the first 128
tenants that are due, the longest due first, and sweeps each in its database.  After that
it puts the tenant's time an interval ahead.  A server that hosts itself first makes every
active tenant due.

A tenant whose database cannot be opened is skipped, and its time stays as it is.  So it
is among the first in the next pass too.  `Handles` says that a tenant of the batch gets a
new time.

* `sweep_progress_iff`: after a pass every tenant of its batch has a time in the future
  exactly when the pass handles each of them and ends before the new times are over.  As
  long as passes handle their batches, a tenant that is due waits for at most one pass in
  128 of those due before it.
* `unresolved_tenants_starve`: 128 tenants that do not resolve keep another one out of
  every pass.
-/

namespace ReproitCloud

open Lib

/-! ## Due work -/

/-- The tenants of a server, with the work that is due for them. -/
structure DueStore where
  tenancy : TenancyStore
  /-- `tenant_due_work`: `due_at` by organization and kind of work. -/
  dueWork : Table (Int64 × String) Micros := .empty

/-- The sweep's kind of work. -/
def resolutionWork : String := "resolution"

namespace DueStore

variable (s : DueStore)

/-- `schedule_tenant_work`.  It fails for an organization that is not there. -/
def scheduleTenantWork (orgId : Int64) (kind : String) (delaySecs : Int) (now : Micros) :
    Option DueStore :=
  if orgId ∈ s.tenancy.orgs then
    let due := now + max delaySecs 0 * microsPerSecond
    some { s with dueWork := s.dueWork.upsert (orgId, kind) due (min · due) }
  else none

/-- The rows of a kind of work that are due. -/
def dueRows (kind : String) (now : Micros) : List ((Int64 × String) × Micros) :=
  s.dueWork.rows.filter fun r => r.1.2 = kind && r.2 ≤ now

/-- The order of `tenants_due_for`. -/
def dueKey (r : (Int64 × String) × Micros) : Micros ×ₗ Int := toLex (r.2, r.1.1.toInt)

/-- `tenants_due_for`. -/
def tenantsDueFor (kind : String) (limit : Int) (now : Micros) : List Int64 :=
  (firstBy dueKey (max 1 (min limit 256)).toNat (s.dueRows kind now)).map fun r => r.1.1

/-- The time that `reschedule_tenant_work` sets. -/
def nextDue (delaySecs : Int) (now : Micros) : Micros := now + max delaySecs 1 * microsPerSecond

/-- `reschedule_tenant_work`. -/
def rescheduleTenantWork (orgId : Int64) (kind : String) (delaySecs : Int) (now : Micros) :
    DueStore :=
  { s with dueWork := s.dueWork.update (fun k _ => k = (orgId, kind)) fun _ _ =>
      nextDue delaySecs now }

/-- `delete_org`, with the rows that go with it. -/
def deleteOrg (orgId : Int64) : DueStore where
  tenancy := s.tenancy.deleteOrg orgId
  dueWork := s.dueWork.delete fun k _ => k.1 = orgId

/-- When the sweep of a tenant is due. -/
def dueAt (orgId : Int64) : Option Micros := s.dueWork.get? (orgId, resolutionWork)

end DueStore

/-! ## A pass -/

/-- What happens to the calls of a pass, and when they are made. -/
structure PassChance where
  listFails : Bool := false
  enqueueFails : Int64 → Bool := fun _ => false
  dueFails : Bool := false
  /-- Whether `resolve` opens the database of a tenant. -/
  resolves : Int64 → Bool
  /-- The changes that `sweep_tenant` counts, none where the database fails. -/
  sweepTenant : Int64 → Nat := fun _ => 0
  rescheduleFails : Int64 → Bool := fun _ => false
  startsAt : Micros
  enqueuedAt : Int64 → Micros
  readAt : Micros
  handledAt : Int64 → Micros
  endsAt : Micros
  starts_le : ∀ orgId, startsAt ≤ enqueuedAt orgId
  enqueued_le : ∀ orgId, enqueuedAt orgId ≤ readAt
  read_le : ∀ orgId, readAt ≤ handledAt orgId
  handled_le : ∀ orgId, handledAt orgId ≤ endsAt

/-- The delay of `sweep_once`, from `interval_secs`. -/
def sweepDelay (interval : Option UInt64) : Int := (interval.getD 300).toInt64.toInt

section Pass

variable (selfHosted : Bool) (interval : Option UInt64) (chance : PassChance)

/-- The tenants that a server which hosts itself makes due. -/
def enqueueAll : List (Int64 × TenantRow) → DueStore → DueStore
  | [], s => s
  | r :: rs, s =>
    if r.2.status ≠ .active || chance.enqueueFails r.1 then enqueueAll rs s
    else enqueueAll rs
      ((s.scheduleTenantWork r.1 resolutionWork 0 (chance.enqueuedAt r.1)).getD s)

/-- The store that a pass reads its batch from, if it gets so far. -/
def enqueued (s : DueStore) : Option DueStore :=
  if selfHosted then
    if chance.listFails then none else some (enqueueAll chance s.tenancy.allTenants s)
  else some s

/-- The turn of a tenant: the changes, and the store after it. -/
def sweepTurn (orgId : Int64) (s : DueStore) : Nat × DueStore :=
  -- a tenant that does not resolve is not rescheduled either
  if !chance.resolves orgId then (0, s)
  else (chance.sweepTenant orgId,
    if chance.rescheduleFails orgId then s
    else s.rescheduleTenantWork orgId resolutionWork (sweepDelay interval)
      (chance.handledAt orgId))

/-- The loop over a batch. -/
def sweepEach : List Int64 → DueStore → Nat × DueStore
  | [], s => (0, s)
  | orgId :: rest, s =>
    let turn := sweepTurn interval chance orgId s
    let swept := sweepEach rest turn.2
    (turn.1 + swept.1, swept.2)

/-- The tenants that a pass selects. -/
def selected (s : DueStore) : List Int64 :=
  match enqueued selfHosted chance s with
  | none => []
  | some s => if chance.dueFails then [] else s.tenantsDueFor resolutionWork 128 chance.readAt

/-- `sweep_once`. -/
def sweepOnce (s : DueStore) : Nat × DueStore :=
  match enqueued selfHosted chance s with
  | none => (0, s)
  | some t =>
    if chance.dueFails then (0, t)
    else sweepEach interval chance (t.tenantsDueFor resolutionWork 128 chance.readAt) t

/-- The pass reads a batch. -/
def PassChance.reads : Bool := !(selfHosted && chance.listFails) && !chance.dueFails

end Pass

/-! ## Runs of a server -/

/-- What happens to the due work. -/
inductive DueEvent where
  | pass (chance : PassChance)
  /-- Someone else schedules work. -/
  | schedule (orgId : Int64) (kind : String) (delaySecs : Int) (now : Micros)
  /-- The tenants change, or time passes. -/
  | tenants (tenancy : TenancyStore)
  | deleteOrg (orgId : Int64)

/-- One event, which comes after those before it. -/
def dueNext (selfHosted : Bool) (interval : Option UInt64) (s : DueStore) :
    DueEvent → Option DueStore
  | .pass chance =>
    if s.tenancy.now ≤ chance.startsAt then
      let swept := (sweepOnce selfHosted interval chance s).2
      some { swept with tenancy := { swept.tenancy with now := chance.endsAt } }
    else none
  | .schedule orgId kind delaySecs now =>
    if s.tenancy.now ≤ now then
      (s.scheduleTenantWork orgId kind delaySecs now).map fun t =>
        { t with tenancy := { t.tenancy with now := now } }
    else none
  | .tenants tenancy =>
    if s.tenancy.now ≤ tenancy.now then some { s with tenancy := tenancy } else none
  | .deleteOrg orgId => some (s.deleteOrg orgId)

/-! ## What a pass does to the times -/

/-- The pass gives a tenant of its batch a new time. -/
def PassChance.Reschedules (chance : PassChance) (orgId : Int64) : Prop :=
  chance.resolves orgId = true ∧ chance.rescheduleFails orgId = false

instance (chance : PassChance) (orgId : Int64) : Decidable (chance.Reschedules orgId) :=
  inferInstanceAs (Decidable (_ ∧ _))

/-- A tenant that is to be swept after an instant. -/
def DueStore.DueAfter (s : DueStore) (now : Micros) (orgId : Int64) : Prop :=
  ∃ due, s.dueAt orgId = some due ∧ now < due

section Times

variable {s : DueStore} {interval : Option UInt64} {chance : PassChance}

theorem lt_nextDue (delaySecs : Int) (now : Micros) : now < DueStore.nextDue delaySecs now := by
  have hone : 1 * microsPerSecond ≤ max delaySecs 1 * microsPerSecond :=
    Int.mul_le_mul_of_nonneg_right (le_max_right _ _) (by decide)
  have hpos : 0 < 1 * microsPerSecond := by decide
  exact Int.lt_add_of_pos_right now (lt_of_lt_of_le hpos hone)

theorem dueAt_reschedule (s : DueStore) (orgId k : Int64) (delaySecs : Int) (now : Micros) :
    (s.rescheduleTenantWork orgId resolutionWork delaySecs now).dueAt k =
      if k = orgId then (s.dueAt k).map fun _ => DueStore.nextDue delaySecs now
      else s.dueAt k := by
  simp only [DueStore.dueAt, DueStore.rescheduleTenantWork, Table.get?_update, Prod.mk.injEq,
    and_true, decide_eq_true_eq]
  split
  · rfl
  · exact Option.map_id'

theorem nodup_tenantsDueFor (s : DueStore) (kind : String) (limit : Int) (now : Micros) :
    (s.tenantsDueFor kind limit now).Nodup := by
  apply nodup_map_firstBy
  have hkeys : ((s.dueRows kind now).map Prod.fst).Nodup :=
    s.dueWork.keys_nodup.sublist (List.filter_sublist.map _)
  have hfst : (s.dueRows kind now).map (fun r => r.1.1) =
      ((s.dueRows kind now).map Prod.fst).map Prod.fst := by
    rw [List.map_map]
    rfl
  rw [hfst]
  refine hkeys.map_on fun a ha b hb hab => ?_
  have hkind : ∀ c ∈ (s.dueRows kind now).map Prod.fst, c.2 = kind := by
    intro c hc
    obtain ⟨r, hr, rfl⟩ := List.mem_map.1 hc
    simpa using (Bool.and_eq_true_iff.1 (List.mem_filter.1 hr).2).1
  exact Prod.ext hab ((hkind a ha).trans (hkind b hb).symm)

theorem mem_dueRows {r : (Int64 × String) × Micros} {kind : String} {now : Micros} :
    r ∈ s.dueRows kind now ↔ s.dueWork.get? r.1 = some r.2 ∧ r.1.2 = kind ∧ r.2 ≤ now := by
  rw [DueStore.dueRows, List.mem_filter, Bool.and_eq_true, decide_eq_true_eq, decide_eq_true_eq,
    Table.get?_eq_some_iff]

theorem due_of_selected {orgId : Int64} {limit : Int} {now : Micros}
    (h : orgId ∈ s.tenantsDueFor resolutionWork limit now) :
    ∃ due, s.dueAt orgId = some due ∧ due ≤ now := by
  obtain ⟨⟨⟨k, kind⟩, due⟩, hr, rfl⟩ := List.mem_map.1 h
  obtain ⟨hrow, rfl, hdue⟩ := mem_dueRows.1 (mem_of_mem_firstBy hr)
  exact ⟨due, hrow, hdue⟩

/-- A turn gives its tenant a new time, or nothing is written. -/
theorem snd_sweepTurn (s : DueStore) (orgId : Int64) :
    (sweepTurn interval chance orgId s).2 =
      if chance.Reschedules orgId then
        s.rescheduleTenantWork orgId resolutionWork (sweepDelay interval) (chance.handledAt orgId)
      else s := by
  unfold sweepTurn
  split
  · rename_i hresolve
    rw [if_neg fun h => by rw [h.1] at hresolve; cases hresolve]
  · rename_i hresolve
    have hresolves : chance.resolves orgId = true := by simpa using hresolve
    dsimp only
    split
    · rename_i hfails
      rw [if_neg fun h => by rw [h.2] at hfails; cases hfails]
    · rename_i hworks
      rw [if_pos ⟨hresolves, Bool.not_eq_true _ ▸ hworks⟩]

theorem dueAt_sweepTurn (s : DueStore) (orgId k : Int64) :
    (sweepTurn interval chance orgId s).2.dueAt k =
      if k = orgId ∧ chance.Reschedules k then
        (s.dueAt k).map fun _ => DueStore.nextDue (sweepDelay interval) (chance.handledAt k)
      else s.dueAt k := by
  rw [snd_sweepTurn]
  by_cases hk : k = orgId
  · subst hk
    split
    · rename_i hdone
      rw [dueAt_reschedule, if_pos rfl, if_pos ⟨rfl, hdone⟩]
    · rename_i hnot
      rw [if_neg fun h => hnot h.2]
  · have hother : ¬(k = orgId ∧ chance.Reschedules k) := fun h => hk h.1
    rw [if_neg hother]
    split
    · rw [dueAt_reschedule, if_neg hk]
    · rfl

/-- The loop gives a new time to the tenants of the batch that it reschedules. -/
theorem dueAt_sweepEach {batch : List Int64} (hnodup : batch.Nodup) (s : DueStore) (k : Int64) :
    (sweepEach interval chance batch s).2.dueAt k =
      if k ∈ batch ∧ chance.Reschedules k then
        (s.dueAt k).map fun _ => DueStore.nextDue (sweepDelay interval) (chance.handledAt k)
      else s.dueAt k := by
  induction batch generalizing s with
  | nil => simp [sweepEach]
  | cons orgId rest ih =>
    obtain ⟨hfresh, hrest⟩ := List.nodup_cons.1 hnodup
    show (sweepEach interval chance rest (sweepTurn interval chance orgId s).2).2.dueAt k = _
    rw [ih hrest, dueAt_sweepTurn]
    by_cases hk : k = orgId
    · subst hk
      simp [hfresh]
    · simp [hk]

/-- What a pass does: with the store it has read its batch from, the times of the tenants that
it reschedules are new. -/
theorem dueAt_sweepOnce {selfHosted : Bool} {orgId : Int64} (interval : Option UInt64)
    (h : orgId ∈ selected selfHosted chance s) :
    ∃ due, due ≤ chance.readAt ∧ (sweepOnce selfHosted interval chance s).2.dueAt orgId =
      some (if chance.Reschedules orgId then
        DueStore.nextDue (sweepDelay interval) (chance.handledAt orgId) else due) := by
  unfold selected at h
  unfold sweepOnce
  cases henqueued : enqueued selfHosted chance s with
  | none =>
    rw [henqueued] at h
    cases h
  | some t =>
    rw [henqueued] at h
    dsimp only at h ⊢
    split at h
    · cases h
    · rename_i hreads
      obtain ⟨due, hdue, hle⟩ := due_of_selected h
      refine ⟨due, hle, ?_⟩
      rw [if_neg hreads, dueAt_sweepEach (nodup_tenantsDueFor t _ _ _), hdue]
      split
      · rename_i hdone
        rw [if_pos hdone.2, Option.map_some]
      · rename_i hnot
        rw [if_neg fun hdone => hnot ⟨h, hdone⟩]

/-- A pass leaves a tenant of its batch with a time in the future exactly when it gives it a new
one that is not over yet. -/
theorem dueAfter_sweepOnce_iff {selfHosted : Bool} {orgId : Int64}
    (h : orgId ∈ selected selfHosted chance s) :
    (sweepOnce selfHosted interval chance s).2.DueAfter chance.endsAt orgId ↔
      chance.Reschedules orgId ∧
        chance.endsAt < DueStore.nextDue (sweepDelay interval) (chance.handledAt orgId) := by
  obtain ⟨due, hle, hdue⟩ := dueAt_sweepOnce interval h
  have hold : due ≤ chance.endsAt :=
    le_trans hle (le_trans (chance.read_le orgId) (chance.handled_le orgId))
  simp only [DueStore.DueAfter, hdue, Option.some.injEq, exists_eq_left']
  split
  · rename_i hdone
    exact ⟨fun hlt => ⟨hdone, hlt⟩, fun hboth => hboth.2⟩
  · rename_i hnot
    exact ⟨fun hlt => absurd hold (not_le.2 hlt), fun hboth => absurd hboth.1 hnot⟩

end Times

/-! ## Waiting -/

/-- The tenants that a pass takes before a tenant. -/
def DueStore.ahead (s : DueStore) (orgId : Int64) (due : Micros) : Nat :=
  s.dueWork.count fun k d =>
    k.2 = resolutionWork && DueStore.dueKey (k, d) < DueStore.dueKey ((orgId, resolutionWork), due)

section Waiting

variable {s t : DueStore} {interval : Option UInt64} {chance : PassChance} {orgId : Int64}
  {due : Micros}

theorem not_ahead_of_lt (orgId : Int64) (k : Int64 × String) {d : Micros} (h : due < d) :
    ¬DueStore.dueKey (k, d) < DueStore.dueKey ((orgId, resolutionWork), due) := by
  rw [DueStore.dueKey, DueStore.dueKey, Prod.Lex.toLex_lt_toLex]
  rintro (hlt | ⟨heq, -⟩)
  · exact lt_asymm h hlt
  · exact h.ne heq.symm

theorem lt_scheduled (delaySecs : Int) {now : Micros} (h : due < now) :
    due < now + max delaySecs 0 * microsPerSecond :=
  lt_of_lt_of_le h (Int.le_add_of_nonneg_right
    (Int.mul_nonneg (le_max_right _ _) (by decide)))

/-- The due work of one tenant has changed, and it is behind before and after. -/
theorem ahead_of_other {k : Int64 × String}
    (h : ∀ k', k' ≠ k → t.dueWork.get? k' = s.dueWork.get? k')
    (hrow : t.dueWork.get? k = s.dueWork.get? k ∨
      (∀ d ∈ s.dueWork.get? k, due < d) ∧ ∀ d ∈ t.dueWork.get? k, due < d) :
    t.ahead orgId due = s.ahead orgId due := by
  have hbehind : ∀ u : DueStore, (∀ d ∈ u.dueWork.get? k, due < d) →
      (u.dueWork.get? k).any (fun d => k.2 = resolutionWork &&
        DueStore.dueKey (k, d) < DueStore.dueKey ((orgId, resolutionWork), due)) = false := by
    intro u hu
    cases hd : u.dueWork.get? k with
    | none => rfl
    | some d =>
      have hnot := not_ahead_of_lt orgId k (hu d hd)
      rw [Option.any_some, decide_eq_false hnot, Bool.and_false]
  have hchange := Table.count_change h fun k d => k.2 = resolutionWork &&
    DueStore.dueKey (k, d) < DueStore.dueKey ((orgId, resolutionWork), due)
  unfold DueStore.ahead
  rcases hrow with hsame | ⟨hs, ht⟩
  · rw [hsame] at hchange
    omega
  · rw [hbehind s hs, hbehind t ht] at hchange
    simpa using hchange

/-- Work that is scheduled later than a tenant is due does not come before it. -/
theorem ahead_schedule (orgId : Int64) {k : Int64} {kind : String} {delaySecs : Int} {now : Micros}
    (hnow : due < now) (h : s.scheduleTenantWork k kind delaySecs now = some t) :
    t.ahead orgId due = s.ahead orgId due := by
  have hlater := lt_scheduled delaySecs hnow
  rw [DueStore.scheduleTenantWork, Option.ite_none_right_eq_some, Option.some.injEq] at h
  obtain ⟨-, rfl⟩ := h
  refine ahead_of_other (k := (k, kind)) (fun k' hk' => ?_) ?_
  · rw [Table.get?_upsert, if_neg hk']
  · rw [Table.get?_upsert, if_pos rfl]
    cases hrow : s.dueWork.get? (k, kind) with
    | none => simpa using hlater
    | some d =>
      rcases le_or_gt d (now + max delaySecs 0 * microsPerSecond) with hd | hd
      · left
        rw [Option.elim_some, min_eq_left hd]
      · right
        rw [Option.elim_some, min_eq_right hd.le]
        simp only [Option.mem_def, Option.some.injEq, forall_eq']
        exact ⟨hlater.trans hd, hlater⟩

/-- Scheduling leaves a tenant that is due as it is. -/
theorem dueAt_schedule {k : Int64} {kind : String} {delaySecs : Int} {now : Micros}
    (hnow : due < now) (h : s.scheduleTenantWork k kind delaySecs now = some t)
    (hdue : s.dueAt orgId = some due) : t.dueAt orgId = some due := by
  rw [DueStore.scheduleTenantWork, Option.ite_none_right_eq_some, Option.some.injEq] at h
  obtain ⟨-, rfl⟩ := h
  rw [DueStore.dueAt, Table.get?_upsert]
  split
  · rename_i hk
    rw [← hk, ← DueStore.dueAt, hdue, Option.elim_some,
      min_eq_left (lt_scheduled delaySecs hnow).le]
  · exact hdue

theorem waits_enqueueAll (hstarts : due < chance.startsAt) (rs : List (Int64 × TenantRow))
    (hdue : s.dueAt orgId = some due) :
    (enqueueAll chance rs s).dueAt orgId = some due ∧
      (enqueueAll chance rs s).ahead orgId due = s.ahead orgId due := by
  induction rs generalizing s with
  | nil => exact ⟨hdue, rfl⟩
  | cons r rs ih =>
    rw [enqueueAll]
    split
    · exact ih hdue
    · cases hscheduled : s.scheduleTenantWork r.1 resolutionWork 0 (chance.enqueuedAt r.1) with
      | none => exact ih hdue
      | some u =>
        have hnow := lt_of_lt_of_le hstarts (chance.starts_le r.1)
        obtain ⟨hkept, hahead⟩ := ih (dueAt_schedule hnow hscheduled hdue)
        exact ⟨hkept, hahead.trans (ahead_schedule orgId hnow hscheduled)⟩

/-- A tenant that is before another one gets a new time and is behind it. -/
theorem ahead_reschedule {k : Int64} {d : Micros} {now : Micros} (delaySecs : Int)
    (hk : s.dueAt k = some d)
    (hbefore : DueStore.dueKey ((k, resolutionWork), d) <
      DueStore.dueKey ((orgId, resolutionWork), due)) (hnow : due < now) :
    (s.rescheduleTenantWork k resolutionWork delaySecs now).ahead orgId due + 1 =
      s.ahead orgId due := by
  have hbehind := not_ahead_of_lt orgId (k, resolutionWork)
    (hnow.trans (lt_nextDue delaySecs now))
  have hothers : ∀ k', k' ≠ (k, resolutionWork) →
      (s.rescheduleTenantWork k resolutionWork delaySecs now).dueWork.get? k' =
        s.dueWork.get? k' := by
    intro k' hne
    rw [DueStore.rescheduleTenantWork, Table.get?_update, decide_eq_false hne]
    exact Option.map_id'
  have hrow : (s.rescheduleTenantWork k resolutionWork delaySecs now).dueWork.get?
      (k, resolutionWork) = some (DueStore.nextDue delaySecs now) := by
    have hnew := dueAt_reschedule s k k delaySecs now
    rw [if_pos rfl, hk] at hnew
    exact hnew
  have hchange := Table.count_change hothers fun k' d' => k'.2 = resolutionWork &&
    DueStore.dueKey (k', d') < DueStore.dueKey ((orgId, resolutionWork), due)
  rw [DueStore.dueAt] at hk
  rw [hrow, hk, Option.any_some, Option.any_some, decide_eq_true hbefore,
    decide_eq_false hbehind] at hchange
  simpa [DueStore.ahead] using hchange

/-- A loop that reschedules its batch, all of which is before a tenant, lets the tenant come
nearer by as many. -/
theorem ahead_sweepEach (interval : Option UInt64) {batch : List Int64} (hnodup : batch.Nodup)
    (hbefore : ∀ k ∈ batch, ∃ d, s.dueAt k = some d ∧
      DueStore.dueKey ((k, resolutionWork), d) < DueStore.dueKey ((orgId, resolutionWork), due))
    (hdone : ∀ k ∈ batch, chance.Reschedules k) (hread : due < chance.readAt) :
    (sweepEach interval chance batch s).2.ahead orgId due + batch.length = s.ahead orgId due := by
  induction batch generalizing s with
  | nil => rfl
  | cons k rest ih =>
    obtain ⟨hfresh, hrest⟩ := List.nodup_cons.1 hnodup
    obtain ⟨hk, hothers⟩ := List.forall_mem_cons.1 hbefore
    obtain ⟨hkdone, hrestdone⟩ := List.forall_mem_cons.1 hdone
    obtain ⟨d, hd, hlt⟩ := hk
    have hturn : (sweepTurn interval chance k s).2.ahead orgId due + 1 = s.ahead orgId due := by
      rw [snd_sweepTurn, if_pos hkdone]
      exact ahead_reschedule _ hd hlt (lt_of_lt_of_le hread (chance.read_le k))
    have hloop := ih (s := (sweepTurn interval chance k s).2) hrest (fun k' hk' => ?_) hrestdone
    · show (sweepEach interval chance rest (sweepTurn interval chance k s).2).2.ahead orgId due +
        (rest.length + 1) = _
      omega
    · have hne : k' ≠ k := fun he => hfresh (he ▸ hk')
      rw [dueAt_sweepTurn, if_neg fun h => hne h.1]
      exact hothers k' hk'

/-- A tenant that is due and not in the batch has a whole batch before it. -/
theorem batch_before (hdue : s.dueAt orgId = some due) {now : Micros} (hnow : due < now)
    (hnot : orgId ∉ s.tenantsDueFor resolutionWork 128 now) :
    (s.tenantsDueFor resolutionWork 128 now).length = 128 ∧
      ∀ k ∈ s.tenantsDueFor resolutionWork 128 now, ∃ d, s.dueAt k = some d ∧
        DueStore.dueKey ((k, resolutionWork), d) <
          DueStore.dueKey ((orgId, resolutionWork), due) := by
  have hmem : ((orgId, resolutionWork), due) ∈ s.dueRows resolutionWork now :=
    mem_dueRows.2 ⟨hdue, rfl, hnow.le⟩
  have hleft : ((orgId, resolutionWork), due) ∉
      firstBy DueStore.dueKey 128 (s.dueRows resolutionWork now) :=
    fun h => hnot (List.mem_map.2 ⟨_, h, rfl⟩)
  obtain ⟨hlength, hbefore⟩ := firstBy_full hmem hleft
  refine ⟨(List.length_map _).trans hlength, fun k hk => ?_⟩
  obtain ⟨⟨⟨k, kind⟩, d⟩, hr, rfl⟩ := List.mem_map.1 hk
  obtain ⟨hrow, rfl, -⟩ := mem_dueRows.1 (mem_of_mem_firstBy hr)
  refine ⟨d, hrow, lt_of_le_of_ne (hbefore _ hr) fun hsame => hnot ?_⟩
  -- equal keys are of one tenant
  have hpair := Prod.ext_iff.1 (toLex.injective hsame)
  have horg : k = orgId := Int64.toInt_inj.1 hpair.2
  exact horg ▸ hk

/-! ## Runs -/

/-- A pass that does not take a tenant which is due takes 128 before it. -/
theorem waits_sweepOnce (interval : Option UInt64) {selfHosted : Bool} (hstarts : due < chance.startsAt)
    (hdue : s.dueAt orgId = some due) (hnot : orgId ∉ selected selfHosted chance s)
    (hdone : ∀ k ∈ selected selfHosted chance s, chance.Reschedules k) :
    (sweepOnce selfHosted interval chance s).2.dueAt orgId = some due ∧
      (sweepOnce selfHosted interval chance s).2.ahead orgId due +
        (if chance.reads selfHosted then 128 else 0) ≤ s.ahead orgId due := by
  have hread : due < chance.readAt :=
    lt_of_lt_of_le hstarts ((chance.starts_le orgId).trans (chance.enqueued_le orgId))
  unfold selected at hnot hdone
  unfold sweepOnce
  cases henqueued : enqueued selfHosted chance s with
  | none =>
    have hreads : chance.reads selfHosted = false := by
      unfold enqueued at henqueued
      split at henqueued
      · rename_i hself
        split at henqueued
        · rename_i hlist
          rw [PassChance.reads, hself, hlist]
          rfl
        · cases henqueued
      · cases henqueued
    rw [hreads]
    exact ⟨hdue, le_refl _⟩
  | some t =>
    rw [henqueued] at hnot hdone
    have hkept : t.dueAt orgId = some due ∧ t.ahead orgId due = s.ahead orgId due := by
      unfold enqueued at henqueued
      split at henqueued
      · split at henqueued
        · cases henqueued
        · cases henqueued
          exact waits_enqueueAll hstarts _ hdue
      · cases henqueued
        exact ⟨hdue, rfl⟩
    obtain ⟨htdue, hahead⟩ := hkept
    dsimp only at hnot hdone ⊢
    split
    · rename_i hfails
      have hreads : chance.reads selfHosted = false := by
        rw [PassChance.reads, hfails]
        exact Bool.and_false _
      rw [hreads]
      exact ⟨htdue, hahead.le⟩
    · rename_i hworks
      rw [if_neg hworks] at hnot hdone
      obtain ⟨hlength, hbefore⟩ := batch_before htdue hread hnot
      have hnodup := nodup_tenantsDueFor t resolutionWork 128 chance.readAt
      have hloop := ahead_sweepEach interval hnodup hbefore hdone hread
      refine ⟨?_, ?_⟩
      · rw [dueAt_sweepEach hnodup, if_neg fun h => hnot h.1]
        exact htdue
      · split <;> omega

end Waiting

section Runs

variable (selfHosted : Bool)

/-- A pass reschedules every tenant of its batch. -/
def DueEvent.Handles (s : DueStore) : DueEvent → Prop
  | .pass chance => ∀ k ∈ selected selfHosted chance s, chance.Reschedules k
  | _ => True

/-- A pass does not take a tenant, and the tenant stays. -/
def DueEvent.Overlooks (orgId : Int64) (s : DueStore) : DueEvent → Prop
  | .pass chance => orgId ∉ selected selfHosted chance s
  | .deleteOrg k => k ≠ orgId
  | _ => True

/-- Whether an event is a pass that reads a batch. -/
def DueEvent.reads : DueEvent → Bool
  | .pass chance => chance.reads selfHosted
  | _ => false

variable {selfHosted} {interval : Option UInt64} {s t : DueStore} {orgId : Int64} {due : Micros}

theorem waits_step {e : DueEvent} (hdue : s.dueAt orgId = some due) (hnow : due < s.tenancy.now)
    (hstep : dueNext selfHosted interval s e = some t) (hhandles : e.Handles selfHosted s)
    (hmiss : e.Overlooks selfHosted orgId s) :
    (t.dueAt orgId = some due ∧ due < t.tenancy.now) ∧
      t.ahead orgId due + (if e.reads selfHosted then 128 else 0) ≤ s.ahead orgId due := by
  cases e with
  | pass chance =>
    rw [dueNext, Option.ite_none_right_eq_some, Option.some.injEq] at hstep
    obtain ⟨hstarts, rfl⟩ := hstep
    have hstart : due < chance.startsAt := lt_of_lt_of_le hnow hstarts
    obtain ⟨hkept, hahead⟩ := waits_sweepOnce interval hstart hdue hmiss hhandles
    have hend : chance.startsAt ≤ chance.endsAt :=
      (chance.starts_le orgId).trans ((chance.enqueued_le orgId).trans
        ((chance.read_le orgId).trans (chance.handled_le orgId)))
    exact ⟨⟨hkept, lt_of_lt_of_le hstart hend⟩, hahead⟩
  | schedule k kind delaySecs now =>
    rw [dueNext, Option.ite_none_right_eq_some, Option.map_eq_some_iff] at hstep
    obtain ⟨hlater, u, hscheduled, rfl⟩ := hstep
    have hnew : due < now := lt_of_lt_of_le hnow hlater
    have hkept := dueAt_schedule hnew hscheduled hdue
    have hahead := ahead_schedule orgId hnew hscheduled
    exact ⟨⟨hkept, hnew⟩, hahead.le⟩
  | tenants tenancy =>
    rw [dueNext, Option.ite_none_right_eq_some, Option.some.injEq] at hstep
    obtain ⟨hlater, rfl⟩ := hstep
    exact ⟨⟨hdue, lt_of_lt_of_le hnow hlater⟩, le_refl _⟩
  | deleteOrg k =>
    rw [dueNext, Option.some.injEq] at hstep
    subst hstep
    have hne : orgId ≠ k := Ne.symm hmiss
    have hkept : (s.deleteOrg k).dueAt orgId = some due :=
      (Table.get?_delete_of_false s.dueWork fun _ => decide_eq_false hne).trans hdue
    have hfewer : (s.deleteOrg k).ahead orgId due ≤ s.ahead orgId due :=
      List.Sublist.countP_le List.filter_sublist
    exact ⟨⟨hkept, hnow⟩, hfewer⟩

/-- As long as the passes of a run handle their batches, a tenant that is due is overlooked by
one pass in 128 tenants before it at most. -/
theorem waits_run {es : List DueEvent}
    (hrun : Run (Guarded (stepOf (dueNext selfHosted interval)) fun s e _ =>
      e.Handles selfHosted s ∧ e.Overlooks selfHosted orgId s) s es t)
    (hdue : s.dueAt orgId = some due) (hnow : due < s.tenancy.now) :
    128 * es.countP (DueEvent.reads selfHosted) ≤ s.ahead orgId due := by
  have hpaid := Run.pays (fun s => s.dueAt orgId = some due ∧ due < s.tenancy.now)
    (fun s => s.ahead orgId due) 128 (DueEvent.reads selfHosted)
    (fun s e t hs hstep => waits_step hs.1 hs.2 hstep.1 hstep.2.1 hstep.2.2) hrun ⟨hdue, hnow⟩
  omega

end Runs

/-- After a pass every tenant of its batch has a time in the future exactly when the pass
reschedules each of them and ends before the new times are over.  And a tenant that is due is
overlooked, in every run of passes that reschedule their batches, by at most one pass in 128
tenants before it. -/
theorem sweep_progress_iff (selfHosted : Bool) (interval : Option UInt64) (s : DueStore)
    (chance : PassChance) :
    ((∀ k ∈ selected selfHosted chance s,
        (sweepOnce selfHosted interval chance s).2.DueAfter chance.endsAt k) ↔
      ∀ k ∈ selected selfHosted chance s, chance.Reschedules k ∧
        chance.endsAt < DueStore.nextDue (sweepDelay interval) (chance.handledAt k)) ∧
    ∀ (t : DueStore) (es : List DueEvent) (orgId : Int64) (due : Micros),
      s.dueAt orgId = some due → due < s.tenancy.now →
      Run (Guarded (stepOf (dueNext selfHosted interval)) fun s e _ =>
        e.Handles selfHosted s ∧ e.Overlooks selfHosted orgId s) s es t →
      128 * es.countP (DueEvent.reads selfHosted) ≤ s.ahead orgId due := by
  constructor
  · constructor
    · exact fun h k hk => (dueAfter_sweepOnce_iff hk).1 (h k hk)
    · exact fun h k hk => (dueAfter_sweepOnce_iff hk).2 (h k hk)
  · intro t es orgId due hdue hnow hrun
    exact waits_run hrun hdue hnow

/-- The work of 129 tenants, each due a microsecond after the one before it. -/
def crowdedWork : List ((Int64 × String) × Micros) :=
  (List.range 129).map fun i => ((Int64.ofNat i, resolutionWork), (i : Int))

theorem toInt_ofNat_of_lt_129 {i : Nat} (h : i < 129) : (Int64.ofNat i).toInt = i :=
  Int64.toInt_ofNat_of_lt (by omega)

theorem keys_nodup_crowdedWork : (crowdedWork.map Prod.fst).Nodup := by
  rw [crowdedWork, List.map_map]
  refine List.nodup_range.map_on fun i hi j hj hij => ?_
  have horg : Int64.ofNat i = Int64.ofNat j := congrArg Prod.fst hij
  have hint := congrArg Int64.toInt horg
  rw [toInt_ofNat_of_lt_129 (List.mem_range.1 hi), toInt_ofNat_of_lt_129 (List.mem_range.1 hj)]
    at hint
  exact Int.ofNat_inj.1 hint

/-- A server at an instant with the work of these tenants. -/
def crowdedServer (now : Micros) : DueStore where
  tenancy := { now := now }
  dueWork := ⟨crowdedWork, keys_nodup_crowdedWork⟩

/-- A pass at an instant, in which these tenants resolve. -/
def passResolving (resolves : Int64 → Bool) (now : Micros) : PassChance where
  resolves := resolves
  startsAt := now
  enqueuedAt _ := now
  readAt := now
  handledAt _ := now
  endsAt := now
  starts_le _ := le_refl _
  enqueued_le _ := le_refl _
  read_le _ := le_refl _
  handled_le _ := le_refl _

theorem selected_crowdedServer (resolves : Int64 → Bool) (now : Micros) {read : Micros}
    (h : 129 ≤ read) : selected false (passResolving resolves read) (crowdedServer now) =
      (List.range 128).map Int64.ofNat := by
  have hdue : (crowdedServer now).dueRows resolutionWork read = crowdedWork := by
    refine List.filter_eq_self.2 fun r hr => ?_
    obtain ⟨i, hi, rfl⟩ := List.mem_map.1 hr
    have hlt := List.mem_range.1 hi
    have hle : (i : Int) ≤ read := le_trans (by omega) h
    simp [hle]
  have hsorted : crowdedWork.Pairwise fun a b => DueStore.dueKey a ≤ DueStore.dueKey b := by
    refine List.pairwise_map.2 (List.pairwise_lt_range.imp fun {i j} hij => ?_)
    rw [DueStore.dueKey, DueStore.dueKey, Prod.Lex.toLex_le_toLex]
    exact .inl (Int.ofNat_lt.2 hij)
  show (crowdedServer now).tenantsDueFor resolutionWork 128 read = _
  rw [DueStore.tenantsDueFor, hdue, firstBy, hsorted.insertionSort_eq, crowdedWork,
    ← List.map_take, List.map_map, List.take_range]
  rfl

theorem not_reschedules_of_ne {orgId k : Int64} {now : Micros} (h : k ≠ orgId) :
    ¬(passResolving (· == orgId) now).Reschedules k := by
  intro hdone
  exact h (eq_of_beq hdone.1)

theorem last_not_selected : Int64.ofNat 128 ∉ (List.range 128).map Int64.ofNat := by
  intro hmem
  obtain ⟨i, hi, heq⟩ := List.mem_map.1 hmem
  have hlt := List.mem_range.1 hi
  have hint := congrArg Int64.toInt heq
  rw [toInt_ofNat_of_lt_129 (by omega), toInt_ofNat_of_lt_129 (by omega)] at hint
  omega

/-- A pass that handles its batch takes the 128 tenants in front.  The one behind them has
waited for as many passes as it can. -/
theorem sweep_progress_iff_crowded :
    (∀ k ∈ selected false (passResolving (fun _ => true) 129) (crowdedServer 129),
      (sweepOnce false none (passResolving (fun _ => true) 129) (crowdedServer 129)).2.DueAfter
        129 k) ∧
    ∃ t, Run (Guarded (stepOf (dueNext false none)) fun s e _ =>
        e.Handles false s ∧ e.Overlooks false (Int64.ofNat 128) s) (crowdedServer 129)
        [.pass (passResolving (fun _ => true) 129)] t ∧
      128 * 1 ≤ (crowdedServer 129).ahead (Int64.ofNat 128) 128 := by
  obtain ⟨hpass, hwaits⟩ := sweep_progress_iff false none (crowdedServer 129)
    (passResolving (fun _ => true) 129)
  have hhandled : ∀ k, (passResolving (fun _ => true) 129).Reschedules k := fun _ => ⟨rfl, rfl⟩
  obtain ⟨t, ht⟩ : ∃ t, dueNext false none (crowdedServer 129)
      (.pass (passResolving (fun _ => true) 129)) = some t := by
    have hnow : (crowdedServer 129).tenancy.now ≤ (passResolving (fun _ => true) 129).startsAt :=
      le_refl (129 : Int)
    rw [dueNext, if_pos hnow]
    exact ⟨_, rfl⟩
  refine ⟨hpass.2 fun k _ => ⟨hhandled k, lt_nextDue _ _⟩, t, ?_⟩
  have hdue : (crowdedServer 129).dueAt (Int64.ofNat 128) = some 128 :=
    Table.get?_eq_some_iff.2 (List.mem_map.2 ⟨128, List.mem_range.2 (by decide), rfl⟩)
  have hnot : Int64.ofNat 128 ∉
      selected false (passResolving (fun _ => true) 129) (crowdedServer 129) := by
    rw [selected_crowdedServer _ _ (le_refl (129 : Int))]
    exact last_not_selected
  have hrun : Run (Guarded (stepOf (dueNext false none)) fun s e _ =>
      e.Handles false s ∧ e.Overlooks false (Int64.ofNat 128) s) (crowdedServer 129)
      [.pass (passResolving (fun _ => true) 129)] t :=
    .cons ⟨ht, fun k _ => hhandled k, hnot⟩ (.nil t)
  exact ⟨hrun, hwaits t _ (Int64.ofNat 128) 128 hdue (by decide) hrun⟩

/-- A pass over the server changes nothing but the instant. -/
theorem dueNext_crowdedServer {now read : Micros} (hnow : now ≤ read) (h : 129 ≤ read) :
    dueNext false none (crowdedServer now) (.pass (passResolving (· == Int64.ofNat 128) read)) =
      some (crowdedServer read) := by
  have hturns : ∀ (batch : List Int64) (s : DueStore), Int64.ofNat 128 ∉ batch →
      (sweepEach none (passResolving (· == Int64.ofNat 128) read) batch s).2 = s := by
    intro batch s hbatch
    induction batch with
    | nil => rfl
    | cons k rest ih =>
      rw [List.mem_cons, not_or] at hbatch
      show (sweepEach none _ rest (sweepTurn none _ k s).2).2 = s
      rw [snd_sweepTurn, if_neg (not_reschedules_of_ne (Ne.symm hbatch.1))]
      exact ih hbatch.2
  have hselected := selected_crowdedServer (· == Int64.ofNat 128) now h
  have hlast : Int64.ofNat 128 ∉
      (crowdedServer now).tenantsDueFor resolutionWork 128 read := by
    show Int64.ofNat 128 ∉ selected false (passResolving (· == Int64.ofNat 128) read)
      (crowdedServer now)
    rw [hselected]
    exact last_not_selected
  have hsame : (sweepOnce false none (passResolving (· == Int64.ofNat 128) read)
      (crowdedServer now)).2 = crowdedServer now := hturns _ _ hlast
  have hstarts : (crowdedServer now).tenancy.now ≤
      (passResolving (· == Int64.ofNat 128) read).startsAt := hnow
  rw [dueNext, if_pos hstarts]
  simp only [hsame]
  rfl

/-- However often a pass is made, 128 tenants that do not resolve stay in front and the tenant
behind them is not swept. -/
theorem unresolved_tenants_starve :
    (∀ n : Nat, ∃ es : List DueEvent, es.countP (DueEvent.reads false) = n ∧
      Run (Guarded (stepOf (dueNext false none)) fun s e _ =>
        e.Overlooks false (Int64.ofNat 128) s) (crowdedServer 129) es (crowdedServer (129 + n))) ∧
    ¬∀ (s : DueStore) (chance : PassChance), ∀ k ∈ selected false chance s,
      (sweepOnce false none chance s).2.DueAfter chance.endsAt k := by
  constructor
  · intro n
    induction n with
    | zero => exact ⟨[], rfl, .nil _⟩
    | succ n ih =>
      obtain ⟨es, hcount, hrun⟩ := ih
      have hread : (129 : Int) ≤ 129 + (n + 1 : Nat) := by omega
      have hlater : (129 : Int) + n ≤ 129 + (n + 1 : Nat) := by omega
      have hover : DueEvent.Overlooks false (Int64.ofNat 128) (crowdedServer (129 + n))
          (.pass (passResolving (· == Int64.ofNat 128) (129 + (n + 1 : Nat)))) := by
        show Int64.ofNat 128 ∉ selected false _ _
        rw [selected_crowdedServer _ _ hread]
        exact last_not_selected
      refine ⟨_, ?_, Run.snoc hrun ⟨dueNext_crowdedServer hlater hread, hover⟩⟩
      rw [List.countP_append, hcount]
      rfl
  · intro hall
    have hselected := selected_crowdedServer (· == Int64.ofNat 128) 129
      (le_refl (129 : Int))
    have hfirst : Int64.ofNat 0 ∈ selected false (passResolving (· == Int64.ofNat 128) 129)
        (crowdedServer 129) := by
      rw [hselected]
      exact List.mem_map.2 ⟨0, List.mem_range.2 (by omega), rfl⟩
    have hdone := (dueAfter_sweepOnce_iff hfirst).1 (hall _ _ _ hfirst)
    exact not_reschedules_of_ne (by decide) hdone.1

end ReproitCloud
