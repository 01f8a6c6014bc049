import ReproitCloud.Tenancy.Flows

/-!
# A suspended organization stays suspended

The status `suspended` is written by an operator, and another operator's `resume` takes it
back.  The last step of a provisioning call writes `active` whatever the status is.

* `suspension_is_sticky`: a suspended organization is not active again without a `resume`, as
  long as no provisioning call comes to its last step while it is suspended.
* `provisioning_ends_suspension`: a call that was under way at the suspension does.
-/

namespace ReproitCloud

open Lib

/-- The status of an organization. -/
def TenancyStore.statusOf (s : TenancyStore) (orgId : Int64) : Option TenantStatus :=
  (s.registry.get? orgId).map TenantRow.status

/-- Only an organization has a row, and its id was given by the sequence. -/
structure Founded (s : TenancyStore) : Prop where
  rows : ∀ orgId, s.registry.has orgId = true → orgId ∈ s.orgs
  orgs : ∀ orgId ∈ s.orgs, orgId ∈ s.created

/-- No step of the run is a `resume` of the organization. -/
def NotResumed (orgId : Int64) (s : Tenants) (e : TenancyEvent) (_ : Tenants) : Prop :=
  match e with
  | .advance i _ => ∀ status, s.inFlight[i]? = some (.statusWriting orgId status) →
      status = .suspended
  | _ => True

/-- A provisioning call comes to its last step only while the organization is not suspended. -/
def ActivatesUnsuspended (orgId : Int64) (s : Tenants) (e : TenancyEvent) (_ : Tenants) : Prop :=
  match e with
  | .advance i _ => ∀ flow, s.inFlight[i]? = some (.activating flow orgId) →
      s.store.statusOf orgId ≠ some .suspended
  | _ => True

section Steps

variable {E : TenancyEnv} {s s' : TenancyStore} {chance : TenancyChance} {op : TenancyOp}
  {orgId : Int64}

theorem statusOf_eq_none : s.statusOf orgId = none ↔ s.registry.has orgId = false := by
  rw [TenancyStore.statusOf, Option.map_eq_none_iff, Table.has_eq_false_iff]

/-- An update that leaves the status leaves it for every organization. -/
theorem statusOf_update {registry : Table Int64 TenantRow} {k : Int64} {f : TenantRow → TenantRow}
    (h : registry = s.updateTenant k f) (hf : ∀ row, (f row).status = row.status) :
    ({ s with registry := registry } : TenancyStore).statusOf orgId = s.statusOf orgId := by
  subst h
  simp only [TenancyStore.statusOf, TenancyStore.get?_updateTenant]
  split
  · rw [Option.map_map]
    exact congrArg (Option.map · _) (funext hf)
  · rfl

theorem statusOf_setTenantStatus (k : Int64) (status : TenantStatus) :
    ({ s with registry := s.setTenantStatus k status } : TenancyStore).statusOf orgId =
      if orgId = k then (s.statusOf orgId).map fun _ => status else s.statusOf orgId := by
  simp only [TenancyStore.statusOf, TenancyStore.setTenantStatus, TenancyStore.get?_updateTenant]
  split
  · rw [Option.map_map, Option.map_map]
    rfl
  · rfl

/-- A new row is not active. -/
theorem statusOf_beginProvisioning (s : TenancyStore) (orgId k : Int64) :
    ({ s with registry := (s.beginProvisioning k).getD s.registry } : TenancyStore).statusOf orgId =
      s.statusOf orgId ∨
    (orgId = k ∧ s.orgs.contains k = true ∧ s.statusOf orgId = none) ∧
      ({ s with registry := (s.beginProvisioning k).getD s.registry } : TenancyStore).statusOf
        orgId = some .provisioning := by
  cases hbegin : s.beginProvisioning k with
  | none => exact .inl rfl
  | some registry =>
    obtain ⟨horg, hget⟩ := TenancyStore.get?_beginProvisioning hbegin orgId
    simp only [TenancyStore.statusOf, Option.getD_some, hget]
    by_cases hk : orgId = k
    · cases hrow : s.registry.get? orgId with
      | none => exact .inr ⟨⟨hk, horg, rfl⟩, by simp [hk]⟩
      | some row => exact .inl (by simp [hk])
    · exact .inl (by simp [hk])

theorem founded_effect (h : Founded s) : Founded (op.effect E s chance) := by
  cases op with
  | intending flow k =>
    refine ⟨fun orgId hrow => ?_, h.orgs⟩
    cases hbegin : s.beginProvisioning k with
    | none =>
      simp only [TenancyOp.effect, hbegin, Option.getD_none] at hrow
      exact h.rows orgId hrow
    | some registry =>
      simp only [TenancyOp.effect, hbegin, Option.getD_some] at hrow
      obtain ⟨horg, hget⟩ := TenancyStore.get?_beginProvisioning hbegin orgId
      by_cases hk : orgId = k
      · rw [hk]
        exact List.contains_iff_mem.1 horg
      · rw [Table.has, hget, if_neg hk] at hrow
        exact h.rows orgId hrow
  | connStoring | blobRecording | activating | statusWriting =>
    exact ⟨fun orgId hrow => h.rows orgId ((TenancyStore.has_updateTenant s _ _ orgId) ▸ hrow), h.orgs⟩
  | orgDeleting k =>
    refine ⟨fun orgId hrow => ?_, fun orgId horg => h.orgs orgId (List.mem_of_mem_filter horg)⟩
    obtain ⟨row, hrow⟩ := Option.isSome_iff_exists.1 hrow
    obtain ⟨hrow, hk⟩ := Table.get?_of_delete hrow
    exact List.mem_filter.2 ⟨h.rows orgId (Option.isSome_iff_exists.2 ⟨row, hrow⟩),
      by simpa using hk⟩
  | _ => exact ⟨h.rows, h.orgs⟩

theorem founded_write {c : TenancyWrite} (h : Founded s) (hwrite : tenancyWrite E s c = some s') :
    Founded s' := by
  cases c with
  | tick now =>
    obtain ⟨-, heq⟩ := Option.ite_none_right_eq_some.1 hwrite
    cases heq
    exact ⟨h.rows, h.orgs⟩
  | createOrg k =>
    obtain ⟨-, heq⟩ := Option.ite_none_left_eq_some.1 hwrite
    cases heq
    refine ⟨fun orgId hrow => List.mem_append_left _ (h.rows orgId hrow), fun orgId horg => ?_⟩
    rcases List.mem_append.1 horg with horg | horg
    · exact List.mem_append_left _ (h.orgs orgId horg)
    · exact List.mem_append_right _ horg
  | rotate k conn =>
    cases hwrite
    exact ⟨fun orgId hrow => h.rows orgId ((TenancyStore.has_updateTenant s _ _ orgId) ▸ hrow), h.orgs⟩
  | _ =>
    cases hwrite
    exact ⟨h.rows, h.orgs⟩

theorem founded_step {t t' : Tenants} {e : TenancyEvent} (h : Founded t.store)
    (hstep : (tenancy E).step t e = some t') : Founded t'.store := by
  cases Program.effect_of_step hstep with
  | start | abandon => exact h
  | @advance i chance op store next hop hnext =>
    exact tenancyNext_keeps hnext Founded h fun _ => founded_effect h
  | @commit c store hwrite => exact founded_write h hwrite

/-- The organization is suspended, or is gone for good. -/
structure Held (orgId : Int64) (s : TenancyStore) : Prop where
  created : orgId ∈ s.created
  status : s.statusOf orgId = some .suspended ∨ s.statusOf orgId = none ∧ orgId ∉ s.orgs

theorem Held.of_status (h : Held orgId s) (hcreated : s'.created = s.created)
    (horgs : s'.orgs = s.orgs) (hstatus : s'.statusOf orgId = s.statusOf orgId) : Held orgId s' :=
  ⟨hcreated ▸ h.created, by rw [hstatus, horgs]; exact h.status⟩

/-- A step keeps a suspended organization, if it is not a `resume` and not a last step. -/
theorem held_effect (h : Held orgId s)
    (hresume : ∀ status, op = .statusWriting orgId status → status = .suspended)
    (hactivate : ∀ flow, op = .activating flow orgId → s.statusOf orgId ≠ some .suspended) :
    Held orgId (op.effect E s chance) := by
  cases op with
  | intending flow k =>
    rcases statusOf_beginProvisioning s orgId k with hsame | ⟨⟨rfl, horg, hnone⟩, -⟩
    · exact h.of_status rfl rfl hsame
    · rcases h.status with hsuspended | ⟨-, hgone⟩
      · rw [hnone] at hsuspended
        cases hsuspended
      · exact absurd (List.contains_iff_mem.1 horg) hgone
  | connStoring flow k conn => exact h.of_status rfl rfl (statusOf_update rfl fun _ => rfl)
  | blobRecording flow k => exact h.of_status rfl rfl (statusOf_update rfl fun _ => rfl)
  | activating flow k =>
    by_cases hk : orgId = k
    · subst hk
      refine ⟨h.created, .inr ?_⟩
      rcases h.status with hsuspended | ⟨hnone, hgone⟩
      · exact absurd hsuspended (hactivate flow rfl)
      · refine ⟨?_, hgone⟩
        simp only [TenancyOp.effect, statusOf_setTenantStatus, if_pos, hnone, Option.map_none]
    · refine h.of_status rfl rfl ?_
      simp only [TenancyOp.effect, statusOf_setTenantStatus, if_neg hk]
  | statusWriting k status =>
    by_cases hk : orgId = k
    · subst hk
      obtain rfl := hresume status rfl
      refine ⟨h.created, h.status.imp (fun hsuspended => ?_) fun hgone => ⟨?_, hgone.2⟩⟩
      · simp only [TenancyOp.effect, statusOf_setTenantStatus, if_pos, hsuspended, Option.map_some]
      · simp only [TenancyOp.effect, statusOf_setTenantStatus, if_pos, hgone.1, Option.map_none]
    · refine h.of_status rfl rfl ?_
      simp only [TenancyOp.effect, statusOf_setTenantStatus, if_neg hk]
  | orgDeleting k =>
    by_cases hk : orgId = k
    · subst hk
      refine ⟨h.created, .inr ⟨?_, fun horg => ?_⟩⟩
      · simp [TenancyOp.effect, TenancyStore.deleteOrg, TenancyStore.statusOf]
      · exact absurd rfl (of_decide_eq_true (List.mem_filter.1 horg).2)
    · have hsame : (s.deleteOrg k).statusOf orgId = s.statusOf orgId :=
        congrArg (Option.map TenantRow.status)
          (Table.get?_delete_of_false s.registry fun _ => decide_eq_false hk)
      refine ⟨h.created, h.status.imp hsame.trans fun hgone => ⟨hsame.trans hgone.1, fun horg => ?_⟩⟩
      exact hgone.2 (List.mem_of_mem_filter horg)
  | _ => exact h.of_status rfl rfl rfl

theorem Held.with_objects (h : Held orgId s) (objects : Objects) :
    Held orgId { s with objects := objects } := ⟨h.created, h.status⟩

theorem held_write {c : TenancyWrite} (h : Held orgId s) (hwrite : tenancyWrite E s c = some s') :
    Held orgId s' := by
  cases c with
  | tick now =>
    obtain ⟨-, heq⟩ := Option.ite_none_right_eq_some.1 hwrite
    cases heq
    exact h.of_status rfl rfl rfl
  | createOrg k =>
    -- The id of an organization that is gone is not given again.
    obtain ⟨hfresh, heq⟩ := Option.ite_none_left_eq_some.1 hwrite
    cases heq
    have hk : orgId ≠ k := fun hk => hfresh (List.contains_iff_mem.2 (hk ▸ h.created))
    refine ⟨List.mem_append_left _ h.created, h.status.imp_right fun hgone =>
      ⟨hgone.1, fun horg => ?_⟩⟩
    rcases List.mem_append.1 horg with horg | horg
    · exact hgone.2 horg
    · exact hk (List.mem_singleton.1 horg)
  | rotate k conn =>
    cases hwrite
    exact h.of_status rfl rfl (statusOf_update rfl fun _ => rfl)
  | putBlob =>
    cases hwrite
    exact h.with_objects _
  | _ =>
    cases hwrite
    exact h.of_status rfl rfl rfl

theorem held_step {t t' : Tenants} {e : TenancyEvent} (h : Held orgId t.store)
    (hstep : (tenancy E).step t e = some t') (hresume : NotResumed orgId t e t')
    (hactivate : ActivatesUnsuspended orgId t e t') : Held orgId t'.store := by
  cases Program.effect_of_step hstep with
  | start | abandon => exact h
  | @advance i chance op store next hop hnext =>
    refine tenancyNext_keeps hnext (Held orgId) h fun _ => held_effect h (fun status heq => ?_)
      fun flow heq => ?_
    · subst heq
      exact hresume status hop
    · subst heq
      exact hactivate flow hop
  | @commit c store hwrite => exact held_write h hwrite

end Steps

/-! ## Runs -/

/-- An organization that is suspended is not active again in a run without a `resume`, as
long as no provisioning call comes to its last step while it is suspended. -/
theorem suspension_is_sticky {E : TenancyEnv} {orgId : Int64} {s t u : Tenants}
    {es fs : List TenancyEvent} (hfounded : Founded s.store)
    (hrun : Run (stepOf (tenancy E).step) s es t) (hsuspended : t.store.statusOf orgId = some .suspended)
    (hlater : Run (Guarded (stepOf (tenancy E).step) fun t e t' =>
      NotResumed orgId t e t' ∧ ActivatesUnsuspended orgId t e t') t fs u) :
    u.store.statusOf orgId ≠ some .active := by
  have hfounded := hrun.invariant (fun t => Founded t.store) (fun _ _ _ h => founded_step h) hfounded
  have hrow : t.store.registry.has orgId = true := by
    rw [← Bool.not_eq_false, ← statusOf_eq_none, hsuspended]
    exact Option.some_ne_none _
  have hheld : Held orgId t.store :=
    ⟨hfounded.orgs orgId (hfounded.rows orgId hrow), .inl hsuspended⟩
  have := hlater.invariant_of_guarded (fun t => Held orgId t.store)
    (fun _ _ _ h hstep hok => held_step h hstep hok.1 hok.2) hheld
  rcases this.status with hstatus | ⟨hstatus, -⟩
  · rw [hstatus]
    decide
  · rw [hstatus]
    exact nofun

/-- The guards, as checks. -/
def notResumed (orgId : Int64) (s : Tenants) : TenancyEvent → Bool
  | .advance i _ => (s.inFlight[i]?).all fun op =>
    match op with
    | .statusWriting k status => k ≠ orgId || status = .suspended
    | _ => true
  | _ => true

def activatesUnsuspended (orgId : Int64) (s : Tenants) : TenancyEvent → Bool
  | .advance i _ => (s.inFlight[i]?).all fun op =>
    match op with
    | .activating _ k => k ≠ orgId || s.store.statusOf orgId ≠ some .suspended
    | _ => true
  | _ => true

theorem notResumed_sound (orgId : Int64) (s : Tenants) (e : TenancyEvent) (s' : Tenants)
    (h : notResumed orgId s e = true) : NotResumed orgId s e s' := by
  cases e with
  | advance i chance =>
    intro status hop
    simpa [notResumed, hop] using h
  | start op | abandon i | commit c => trivial

theorem activatesUnsuspended_sound (orgId : Int64) (s : Tenants) (e : TenancyEvent) (s' : Tenants)
    (h : activatesUnsuspended orgId s e = true) : ActivatesUnsuspended orgId s e s' := by
  cases e with
  | advance i chance =>
    intro flow hop
    simpa [activatesUnsuspended, hop] using h
  | start op | abandon i | commit c => trivial

/-- An organization is created, and its provisioning takes so many steps. -/
def provisionSeven (steps : Nat) : List TenancyEvent :=
  .commit (.createOrg 7) :: .start (.intending .request 7) :: List.replicate steps (.advance 0 {})

/-- An operator suspends it. -/
def suspendSeven : List TenancyEvent :=
  [.start (.statusReading 7 .suspended), .advance 1 {}, .advance 1 {}]

/-- A call of the resolver, a provisioning that stops before its last step, and a reconciler
that provisions another organization. -/
def callsWhileSuspended : List TenancyEvent := List.flatten [
  .start (.resolving ⟨7, 0⟩) :: List.replicate 2 (.advance 2 {}),
  .start (.intending .request 7) :: List.replicate 6 (.advance 3 {}),
  [.abandon 3, .commit (.createOrg 8), .start (.intending .request 8), .advance 3 {}, .abandon 3],
  .start .pendingListing :: List.replicate 9 (.advance 3 {})]

/-- The provisioning is over before the suspension, and the calls after it do not end it. -/
theorem suspension_is_sticky_provisioned :
    ∃ t u, Run (stepOf (tenancy localTenants).step) ⟨{}, []⟩ (provisionSeven 10 ++ suspendSeven) t ∧
      t.store.statusOf 7 = some .suspended ∧
      Run (stepOf (tenancy localTenants).step) t callsWhileSuspended u ∧
      u.inFlight[2]? = some (.refused ⟨7, 0⟩ (.notActive .suspended)) ∧
      u.store.statusOf 8 = some .active ∧ u.store.statusOf 7 ≠ some .active := by
  have hsome : ((runOf (tenancy localTenants).step ⟨{}, []⟩ (provisionSeven 10 ++ suspendSeven)).any
      fun t => t.store.statusOf 7 = some .suspended &&
        (runOf (checked (tenancy localTenants).step fun t e =>
          notResumed 7 t e && activatesUnsuspended 7 t e) t callsWhileSuspended).any fun u =>
            u.inFlight[2]? = some (.refused ⟨7, 0⟩ (.notActive .suspended)) &&
              u.store.statusOf 8 = some .active) = true := by decide
  obtain ⟨t, ht, hsome⟩ := (Option.any_eq_true _ _).1 hsome
  obtain ⟨hsuspended, hsome⟩ := Bool.and_eq_true_iff.1 hsome
  have hsuspended := of_decide_eq_true hsuspended
  obtain ⟨u, hu, hend⟩ := (Option.any_eq_true _ _).1 hsome
  obtain ⟨hrefused, hother⟩ := Bool.and_eq_true_iff.1 hend
  have hlater : Run (Guarded (stepOf (tenancy localTenants).step) fun t e t' =>
      NotResumed 7 t e t' ∧ ActivatesUnsuspended 7 t e t') t callsWhileSuspended u := by
    refine Run.of_runOf_checked (fun t e t' hcheck => ?_) hu
    obtain ⟨hresume, hactivate⟩ := Bool.and_eq_true_iff.1 hcheck
    exact ⟨notResumed_sound 7 t e t' hresume, activatesUnsuspended_sound 7 t e t' hactivate⟩
  have hfounded : Founded {} :=
    ⟨fun _ h => absurd h Bool.false_ne_true, fun _ h => absurd h List.not_mem_nil⟩
  exact ⟨t, u, Run.of_runOf ht, hsuspended, hlater.of_guarded, of_decide_eq_true hrefused,
    of_decide_eq_true hother, suspension_is_sticky hfounded (Run.of_runOf ht) hsuspended hlater⟩

/-- An organization is suspended before the last step of its provisioning, which makes it
active. -/
theorem provisioning_ends_suspension :
    ¬ ∀ (E : TenancyEnv) (orgId : Int64) (t u : Tenants) (es fs : List TenancyEvent),
      Run (stepOf (tenancy E).step) ⟨{}, []⟩ es t → t.store.statusOf orgId = some .suspended →
      Run (Guarded (stepOf (tenancy E).step) (NotResumed orgId)) t fs u →
      u.store.statusOf orgId ≠ some .active := by
  intro hall
  have hsome : ((runOf (tenancy localTenants).step ⟨{}, []⟩ (provisionSeven 7 ++ suspendSeven)).any
      fun t => t.store.statusOf 7 = some .suspended &&
        (runOf (checked (tenancy localTenants).step (notResumed 7)) t [.advance 0 {}]).any fun u =>
          u.store.statusOf 7 = some .active) = true := by decide
  obtain ⟨t, ht, hsome⟩ := (Option.any_eq_true _ _).1 hsome
  obtain ⟨hsuspended, hsome⟩ := Bool.and_eq_true_iff.1 hsome
  obtain ⟨u, hu, hactive⟩ := (Option.any_eq_true _ _).1 hsome
  exact hall localTenants 7 t u _ _ (Run.of_runOf ht) (of_decide_eq_true hsuspended)
    (Run.of_runOf_checked (notResumed_sound 7) hu) (of_decide_eq_true hactive)

end ReproitCloud
