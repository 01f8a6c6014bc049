import ReproitCloud.Tenancy.Flows

/-!
# What the resolver serves

A mapping stays in the cache for `mappingTtl` after it was stamped, so a connection that has
been replaced should be gone by then.  The stamp is taken when the registry has answered, and
the read may have been any time before.  The pools know nothing of all that.  A pool is found
by its organization, and whoever finds one gets its connection, whatever the mapping says.

* `resolver_serves_mapped`: a call is served a connection that the registry had no longer
  than `mappingTtl` before, as long as the cache finds no mapping that was read earlier, and
  no pool has another connection than the mapping.  With a delay between the reads and their
  stamps, the bound is later by as much.
* `stale_pool_is_served`: after a rotation, the old pool is served for as long as it is used.
-/

namespace ReproitCloud

open Lib

namespace TenancyStore

variable (s s' : TenancyStore)

/-- The resolver has read that the connection is the organization's, at a moment or later. -/
def ReadSince (orgId : Int64) (conn : String) (moment : Micros) : Prop :=
  ∃ r ∈ s.reads, r.orgId = orgId ∧ r.conn = conn ∧ moment ≤ r.moment

/-- The registry has the connection for an organization that is served. -/
def Recorded (P : Provider) (orgId : Int64) (conn : String) : Prop :=
  ∃ row, s.registry.get? orgId = some row ∧ row.status = .active ∧ connOf P orgId row = some conn

/-- Time passes, and no read is forgotten. -/
structure Later : Prop where
  now : s.now ≤ s'.now
  reads : ∀ r ∈ s.reads, r ∈ s'.reads

variable {s s'}

theorem Later.refl (s : TenancyStore) : s.Later s := ⟨le_refl _, fun _ => id⟩

theorem ReadSince.mono {orgId : Int64} {conn : String} {moment moment' : Micros}
    (h : s.ReadSince orgId conn moment) (hmoment : moment' ≤ moment) (hs : s.Later s') :
    s'.ReadSince orgId conn moment' := by
  obtain ⟨r, hr, horg, hconn, hle⟩ := h
  exact ⟨r, hs.reads r hr, horg, hconn, hmoment.trans hle⟩

end TenancyStore

/-! ## The guards -/

/-- A mapping that is found in the cache was read in the registry no longer than `bound` ago,
and a pool that is found has the connection of the mapping. -/
def TenancyOp.HitsWithin (bound : Micros) (s : TenancyStore) : TenancyOp → Prop
  | resolving call => ∀ mapping, s.cachedMapping call.orgId = some mapping →
    s.ReadSince call.orgId mapping.conn (s.now - bound)
  | poolGetting _ orgId mapping | pooling _ orgId mapping =>
    ∀ entry, s.pools.get? orgId = some entry → entry.conn = mapping.conn
  | _ => True

/-- The answer of the registry is stamped no longer than `delay` after the read, and a pool
that is found has the connection of the mapping. -/
def TenancyOp.StampedWithin (delay : Micros) (s : TenancyStore) : TenancyOp → Prop
  | stamping _ _ readAt => s.now ≤ readAt + delay
  | poolGetting _ orgId mapping | pooling _ orgId mapping =>
    ∀ entry, s.pools.get? orgId = some entry → entry.conn = mapping.conn
  | _ => True

/-- The call that goes on meets a guard. -/
def Advances (ok : TenancyStore → TenancyOp → Prop) (s : Tenants) (e : TenancyEvent)
    (_ : Tenants) : Prop :=
  match e with
  | .advance i _ => ∀ op, s.inFlight[i]? = some op → ok s.store op
  | _ => True

/-! ## The outlines -/

/-- Nothing was read in the future. -/
def ReadsPast (s : TenancyStore) : Prop := ∀ r ∈ s.reads, r.moment ≤ s.now

/-- What a call knows of the connection that it is going to serve. -/
def TenancyOp.Mapped (bound : Micros) (s : TenancyStore) : TenancyOp → Prop
  | resolving call | registryReading call => call.since ≤ s.now
  | stamping call mapping readAt =>
    call.since ≤ readAt ∧ s.ReadSince call.orgId mapping.conn readAt
  | caching call cached => s.ReadSince call.orgId cached.mapping.conn call.since
  | poolGetting call orgId mapping | connecting call orgId mapping | pooling call orgId mapping =>
    orgId = call.orgId ∧ s.ReadSince orgId mapping.conn (call.since - bound)
  | served call tenant =>
    tenant.orgId = call.orgId ∧ s.ReadSince call.orgId tenant.conn (call.since - bound)
  | _ => True

/-- Every mapping in the cache was read no longer than `delay` before its stamp. -/
def CacheRead (delay : Micros) (s : TenancyStore) : Prop :=
  ∀ orgId m, s.cache.get? orgId = some m → s.ReadSince orgId m.mapping.conn (m.insertedAt - delay)

/-- What a call knows of the mapping that it is going to cache. -/
def TenancyOp.Fetched (delay : Micros) (s : TenancyStore) : TenancyOp → Prop
  | stamping call mapping readAt => s.ReadSince call.orgId mapping.conn readAt
  | caching call cached =>
    s.ReadSince call.orgId cached.mapping.conn (cached.insertedAt - delay)
  | _ => True

section Knows

variable {s s' : TenancyStore} {op : TenancyOp} {bound delay : Micros}

theorem TenancyOp.Mapped.mono (h : op.Mapped bound s) (hs : s.Later s') : op.Mapped bound s' := by
  cases op with
  | resolving call | registryReading call => exact le_trans h hs.now
  | stamping call mapping readAt => exact ⟨h.1, h.2.mono (le_refl _) hs⟩
  | caching call cached => exact TenancyStore.ReadSince.mono h (le_refl _) hs
  | poolGetting | connecting | pooling | served => exact ⟨h.1, h.2.mono (le_refl _) hs⟩
  | _ => trivial

theorem TenancyOp.Fetched.mono (h : op.Fetched delay s) (hs : s.Later s') :
    op.Fetched delay s' := by
  cases op with
  | stamping | caching => exact TenancyStore.ReadSince.mono h (le_refl _) hs
  | _ => trivial

variable (bound delay) in
/-- Only a call of the resolver knows anything. -/
theorem TenancyOp.mapped_of_resolve? (h : op.resolve? = none) :
    op.Mapped bound s ∧ op.Fetched delay s := by
  constructor <;> cases op <;> trivial

end Knows

/-! ## Steps -/

section Steps

variable {E : TenancyEnv} {s s' : TenancyStore} {chance : TenancyChance} {op : TenancyOp}
  {bound delay : Micros}

theorem later_effect (E : TenancyEnv) (s : TenancyStore) (chance : TenancyChance) (op : TenancyOp) :
    s.Later (op.effect E s chance) := by
  cases op with
  | registryReading call => exact ⟨le_refl _, fun r hr => List.mem_append_left _ hr⟩
  | _ => exact ⟨le_refl _, fun _ => id⟩

/-- Whether it takes effect or not. -/
theorem later_taken (E : TenancyEnv) (s : TenancyStore) (chance : TenancyChance) (op : TenancyOp) :
    s.Later (if op.takes chance then op.effect E s chance else s) := by
  split
  · exact later_effect E s chance op
  · exact .refl s

theorem later_write {c : TenancyWrite} (h : tenancyWrite E s c = some s') : s.Later s' := by
  cases c with
  | tick now =>
    obtain ⟨hnow, heq⟩ := Option.ite_none_right_eq_some.1 h
    cases heq
    exact ⟨hnow, fun _ => id⟩
  | createOrg orgId =>
    obtain ⟨-, heq⟩ := Option.ite_none_left_eq_some.1 h
    cases heq
    exact ⟨le_refl _, fun _ => id⟩
  | _ =>
    cases h
    exact ⟨le_refl _, fun _ => id⟩

theorem registryRead_eq_some {P : Provider} {call : Resolve} {r : RegistryRead}
    (h : registryRead P s call = some r) :
    s.Recorded P r.orgId r.conn ∧ r.orgId = call.orgId ∧ r.moment = s.now := by
  rw [registryRead] at h
  rcases afterRegistry_cases P call s.now (s.registry.get? call.orgId) with
    ⟨error, hafter⟩ | ⟨row, mapping, hrow, hactive, hmapping, hafter⟩
  · rw [hafter] at h
    cases h
  · rw [hafter] at h
    cases h
    obtain ⟨conn, hconn, rfl⟩ := Option.map_eq_some_iff.1 hmapping
    exact ⟨⟨row, hrow, hactive, hconn⟩, rfl, rfl⟩

/-- The read of the registry comes back refused, or with what was read. -/
theorem registryReading_next (E : TenancyEnv) (s : TenancyStore) (chance : TenancyChance)
    (call : Resolve) :
    (∃ error, (TenancyOp.registryReading call).next E s chance
        ((TenancyOp.registryReading call).hears chance) = .refused call error) ∨
      ∃ mapping, (TenancyOp.registryReading call).next E s chance
          ((TenancyOp.registryReading call).hears chance) = .stamping call mapping s.now ∧
        (if (TenancyOp.registryReading call).takes chance then
          (TenancyOp.registryReading call).effect E s chance else s).ReadSince
            call.orgId mapping.conn s.now := by
  simp only [TenancyOp.next]
  cases hhears : (TenancyOp.registryReading call).hears chance with
  | false => exact .inl ⟨.internal, rfl⟩
  | true =>
    rw [if_pos (TenancyOp.takes_of_hears hhears), if_pos rfl]
    rcases afterRegistry_cases E.provider call s.now (s.registry.get? call.orgId) with
      ⟨error, hafter⟩ | ⟨row, mapping, -, -, -, hafter⟩
    · exact .inl ⟨error, hafter⟩
    · have hread : registryRead E.provider s call = some ⟨call.orgId, mapping.conn, s.now⟩ := by
        rw [registryRead, hafter]
      exact .inr ⟨mapping, hafter, ⟨call.orgId, mapping.conn, s.now⟩,
        List.mem_append_right _ (Option.mem_toList.2 hread), rfl, rfl, le_refl _⟩

/-- Every read of a later store was there, or is of its past. -/
theorem ReadsPast.later (h : ReadsPast s) (hs : s.Later s')
    (hreads : ∀ r ∈ s'.reads, r ∈ s.reads ∨ r.moment ≤ s'.now) : ReadsPast s' := by
  intro r hr
  rcases hreads r hr with hr | hr
  · exact (h r hr).trans hs.now
  · exact hr

theorem readsPast_effect (h : ReadsPast s) : ReadsPast (op.effect E s chance) := by
  cases op with
  | registryReading call =>
    refine h.later (later_effect E s chance _) fun r hr => ?_
    rcases List.mem_append.1 hr with hr | hr
    · exact .inl hr
    · exact .inr (le_of_eq (registryRead_eq_some (Option.mem_toList.1 hr)).2.2)
  | _ => exact h.later (later_effect E s chance _) fun _ => .inl

/-- What others write is neither a read nor a mapping of the cache. -/
theorem reads_write {c : TenancyWrite} (hwrite : tenancyWrite E s c = some s') :
    s'.reads = s.reads ∧ ∀ k m, s'.cache.get? k = some m → s.cache.get? k = some m := by
  cases c with
  | tick now =>
    obtain ⟨-, heq⟩ := Option.ite_none_right_eq_some.1 hwrite
    cases heq
    exact ⟨rfl, fun _ _ => id⟩
  | createOrg orgId =>
    obtain ⟨-, heq⟩ := Option.ite_none_left_eq_some.1 hwrite
    cases heq
    exact ⟨rfl, fun _ _ => id⟩
  | forgetMapping orgId =>
    cases hwrite
    exact ⟨rfl, fun k m hm => (Table.get?_of_delete hm).1⟩
  | _ =>
    cases hwrite
    exact ⟨rfl, fun _ _ => id⟩

theorem readsPast_write {c : TenancyWrite} (h : ReadsPast s)
    (hwrite : tenancyWrite E s c = some s') : ReadsPast s' :=
  h.later (later_write hwrite) fun _ hr => .inl ((reads_write hwrite).1 ▸ hr)

theorem CacheRead.later (h : CacheRead delay s) (hs : s.Later s')
    (hcache : ∀ k m, s'.cache.get? k = some m → s.cache.get? k = some m) :
    CacheRead delay s' :=
  fun k m hm => (h k m (hcache k m hm)).mono (le_refl _) hs

theorem cacheRead_effect (h : CacheRead delay s) (hop : op.Fetched delay s) :
    CacheRead delay (op.effect E s chance) := by
  cases op with
  | caching call cached =>
    intro k m hm
    rcases TenancyStore.get?_of_cacheMapping hm with ⟨rfl, rfl⟩ | hm
    · exact hop
    · exact h k m hm
  | mappingForgetting flow orgId =>
    exact h.later (later_effect E s chance _) fun k m hm => (Table.get?_of_delete hm).1
  | _ => exact h.later (later_effect E s chance _) fun _ _ => id

/-- What a step leads to knows its connection, when a hit is within the bound. -/
theorem mapped_next (hmulti : E.provider.singleTenant = none) (hbound : 0 ≤ bound)
    (hop : op.Mapped bound s) (hhits : op.HitsWithin bound s) :
    (op.next E s chance (op.hears chance)).Mapped bound
      (if op.takes chance then op.effect E s chance else s) := by
  have hlater := later_taken E s chance op
  cases op with
  | resolving call =>
    refine TenancyOp.Mapped.mono ?_ hlater
    simp only [TenancyOp.next, hmulti]
    split
    · rename_i mapping hmapping
      exact ⟨rfl, (hhits mapping hmapping).mono (Int.sub_le_sub_right hop bound) (.refl s)⟩
    · exact hop
  | registryReading call =>
    rcases registryReading_next E s chance call with ⟨error, hnext⟩ | ⟨mapping, hnext, hread⟩
    · rw [hnext]
      trivial
    · rw [hnext]
      exact ⟨hop, hread⟩
  | stamping call mapping readAt =>
    have hcaching : (TenancyOp.caching call ⟨mapping, s.now⟩).Mapped bound s :=
      hop.2.mono hop.1 (.refl s)
    exact hcaching.mono hlater
  | caching call cached =>
    have hgetting : (TenancyOp.poolGetting call call.orgId cached.mapping).Mapped bound s :=
      ⟨rfl, TenancyStore.ReadSince.mono hop (Int.sub_le_self _ hbound) (.refl s)⟩
    exact hgetting.mono hlater
  | poolGetting call orgId mapping =>
    refine TenancyOp.Mapped.mono ?_ hlater
    simp only [TenancyOp.next]
    split
    · rename_i entry hentry
      obtain ⟨rfl, hread⟩ := hop
      refine ⟨rfl, ?_⟩
      show s.ReadSince call.orgId entry.conn _
      rw [hhits entry hentry]
      exact hread
    · exact hop
  | connecting call orgId mapping =>
    refine TenancyOp.Mapped.mono ?_ hlater
    simp only [TenancyOp.next]
    split
    · exact hop
    · trivial
  | pooling call orgId mapping =>
    refine TenancyOp.Mapped.mono ?_ hlater
    obtain ⟨rfl, hread⟩ := hop
    refine ⟨rfl, ?_⟩
    cases hentry : s.pools.get? call.orgId with
    | none => exact hread
    | some entry =>
      show s.ReadSince call.orgId entry.conn _
      rw [hhits entry hentry]
      exact hread
  | served call tenant => exact TenancyOp.Mapped.mono hop hlater
  | refused call error => trivial
  | _ =>
    refine (TenancyOp.mapped_of_resolve? bound 0 ?_).1
    rw [resolve?_next]
    rfl

/-- What a step leads to knows when its mapping was read, when the stamp is not too late. -/
theorem fetched_next (hop : op.Fetched delay s) (hstamps : op.StampedWithin delay s) :
    (op.next E s chance (op.hears chance)).Fetched delay
      (if op.takes chance then op.effect E s chance else s) := by
  have hlater := later_taken E s chance op
  cases op with
  | registryReading call =>
    rcases registryReading_next E s chance call with ⟨error, hnext⟩ | ⟨mapping, hnext, hread⟩
    · rw [hnext]
      trivial
    · rw [hnext]
      exact hread
  | stamping call mapping readAt =>
    have hcaching : (TenancyOp.caching call ⟨mapping, s.now⟩).Fetched delay s :=
      TenancyStore.ReadSince.mono hop (Int.sub_right_le_of_le_add hstamps) (.refl s)
    exact hcaching.mono hlater
  | resolving | caching | poolGetting | connecting | pooling | served | refused =>
    simp only [TenancyOp.next]
    repeat' split
    all_goals trivial
  | _ =>
    refine (TenancyOp.mapped_of_resolve? 0 delay ?_).2
    rw [resolve?_next]
    rfl

variable (bound delay) in
theorem mapped_starts (h : op.starts E s = true) : op.Mapped bound s ∧ op.Fetched delay s := by
  cases op with
  | resolving call => exact ⟨le_of_eq (of_decide_eq_true h), trivial⟩
  | registryReading | stamping | caching | poolGetting | connecting | pooling | served =>
    exact Bool.noConfusion h
  | _ => exact ⟨trivial, trivial⟩

end Steps

/-! ## Runs -/

section Runs

variable {E : TenancyEnv} {bound delay : Micros} {s t : Tenants} {es : List TenancyEvent}

theorem keepsOutline_mapped (hmulti : E.provider.singleTenant = none) (hbound : 0 ≤ bound) :
    KeepsOutline (tenancy E) (Advances (TenancyOp.HitsWithin bound)) ReadsPast
      (fun s op => op.Mapped bound s) fun _ _ => True where
  start s s' op _ _ hstarts :=
    ⟨(mapped_starts bound 0 hstarts).1, fun _ _ => trivial⟩
  advance s s' i chance op store next h hhits hop hnext := by
    obtain ⟨-, rfl, rfl⟩ := tenancyNext_eq_some hnext
    refine ⟨?_, fun o ho => ?_, fun op' heq => ⟨?_, fun _ _ => trivial⟩⟩
    · split
      · exact readsPast_effect h.store
      · exact h.store
    · exact (h.each o (List.mem_of_mem_eraseIdx ho)).mono (later_taken E s.store chance op)
    · cases heq
      exact mapped_next hmulti hbound (h.each op (List.mem_of_getElem? hop)) (hhits op hop)
  commit s s' c store h _ hwrite :=
    ⟨readsPast_write h.store hwrite, fun o ho => (h.each o ho).mono (later_write hwrite)⟩

theorem keepsOutline_fetched :
    KeepsOutline (tenancy E) (Advances (TenancyOp.StampedWithin delay)) (CacheRead delay)
      (fun s op => op.Fetched delay s) fun _ _ => True where
  start s s' op _ _ hstarts :=
    ⟨(mapped_starts 0 delay hstarts).2, fun _ _ => trivial⟩
  advance s s' i chance op store next h hstamps hop hnext := by
    have hfetched := h.each op (List.mem_of_getElem? hop)
    obtain ⟨-, rfl, rfl⟩ := tenancyNext_eq_some hnext
    refine ⟨?_, fun o ho => ?_, fun op' heq => ⟨?_, fun _ _ => trivial⟩⟩
    · split
      · exact cacheRead_effect h.store hfetched
      · exact h.store
    · exact (h.each o (List.mem_of_mem_eraseIdx ho)).mono (later_taken E s.store chance op)
    · cases heq
      exact fetched_next hfetched (hstamps op hop)
  commit s s' c store h _ hwrite :=
    ⟨h.store.later (later_write hwrite) (reads_write hwrite).2,
      fun o ho => (h.each o ho).mono (later_write hwrite)⟩

/-- A fresh mapping was read within its time in the cache and the delay of its stamp. -/
theorem TenancyOp.hitsWithin_of_stampedWithin {s : TenancyStore} {op : TenancyOp}
    (h : CacheRead delay s) (hstamps : op.StampedWithin delay s) :
    op.HitsWithin (mappingTtl + delay) s := by
  cases op with
  | resolving call =>
    intro mapping hmapping
    obtain ⟨m, hm, rfl, hfresh⟩ := TenancyStore.cachedMapping_eq_some hmapping
    refine (h call.orgId m hm).mono ?_ (.refl s)
    rw [← Int.sub_sub]
    exact Int.sub_le_sub_right (Int.sub_right_le_of_le_add hfresh.le) delay
  | poolGetting | pooling => exact hstamps
  | _ => trivial

/-- With stamps that are not too late, a run is one with hits within the bound, whatever else
its steps meet. -/
theorem hits_of_stamps {Q : Tenants → TenancyEvent → Tenants → Prop}
    (hrun : Run (Guarded (stepOf (tenancy E).step) fun s e s' =>
      Advances (TenancyOp.StampedWithin delay) s e s' ∧ Q s e s') s es t)
    (h : Outline (CacheRead delay) (fun s op => op.Fetched delay s) (fun _ _ => True) s) :
    Run (Guarded (stepOf (tenancy E).step) fun s e s' =>
      Advances (TenancyOp.HitsWithin (mappingTtl + delay)) s e s' ∧ Q s e s') s es t := by
  refine hrun.guarded_of_invariant
    (Outline (CacheRead delay) (fun s op => op.Fetched delay s) fun _ _ => True) ?_ ?_ h
  · exact fun s e t hs hstep hok => hs.step keepsOutline_fetched hstep hok.1
  · refine fun s e t hs hstep hok => ⟨?_, hok.2⟩
    cases e with
    | advance i chance =>
      exact fun op hop => TenancyOp.hitsWithin_of_stampedWithin hs.store (hok.1 op hop)
    | start | abandon | commit => trivial

/-- A read that is new is one of what the registry has. -/
theorem reads_step {s s' : Tenants} {e : TenancyEvent} (h : (tenancy E).step s e = some s') :
    ∀ r ∈ s'.store.reads, r ∈ s.store.reads ∨ s.store.Recorded E.provider r.orgId r.conn := by
  intro r hr
  cases Program.effect_of_step h with
  | start | abandon => exact .inl hr
  | @advance i chance op store next hop hnext =>
    obtain ⟨-, rfl, -⟩ := tenancyNext_eq_some hnext
    dsimp only at hr
    split at hr
    · cases op with
      | registryReading call =>
        rcases List.mem_append.1 hr with hr | hr
        · exact .inl hr
        · exact .inr (registryRead_eq_some (Option.mem_toList.1 hr)).1
      | _ => exact .inl hr
    · exact .inl hr
  | @commit c store hwrite =>
    dsimp only at hr
    rw [(reads_write hwrite).1] at hr
    exact .inl hr

/-- A server that has just started: its caches are empty. -/
structure Booted (s : Tenants) : Prop where
  idle : s.inFlight = []
  cache : s.store.cache = .empty
  pools : s.store.pools = .empty
  reads : s.store.reads = []

theorem Booted.mapped (h : Booted s) :
    Outline ReadsPast (fun s op => op.Mapped bound s) (fun _ _ => True) s := by
  refine outline_of_idle (fun r hr => ?_) h.idle
  rw [h.reads] at hr
  cases hr

theorem Booted.fetched (h : Booted s) :
    Outline (CacheRead delay) (fun s op => op.Fetched delay s) (fun _ _ => True) s := by
  refine outline_of_idle (fun orgId m hm => ?_) h.idle
  rw [h.cache] at hm
  cases hm

/-- What a call is served was read in the registry no longer than `bound` before the call. -/
def ServedWithin (bound : Micros) (t : Tenants) : Prop :=
  ∀ call tenant, .served call tenant ∈ t.inFlight → tenant.orgId = call.orgId ∧
    ∃ r ∈ t.store.reads, r.orgId = call.orgId ∧ r.conn = tenant.conn ∧
      call.since ≤ r.moment + bound

/-- In the runs that meet a guard, what a call is served was read no longer than `bound`
before.  Once the registry has another connection for an organization, or does not serve it,
no call that comes later than that is served the old one. -/
def ServesMapped (E : TenancyEnv) (ok : Tenants → TenancyEvent → Tenants → Prop)
    (bound : Micros) : Prop :=
  ∀ s t es, Booted s → Run (Guarded (stepOf (tenancy E).step) ok) s es t →
    ServedWithin bound t ∧
    ∀ orgId old u fs,
      Run (Guarded (stepOf (tenancy E).step) fun t e t' =>
        ok t e t' ∧ ¬ t.store.Recorded E.provider orgId old) t fs u →
      ∀ call tenant, .served call tenant ∈ u.inFlight → call.orgId = orgId →
        t.store.now + bound < call.since → tenant.conn ≠ old

theorem servedWithin_of_mapped
    (h : Outline ReadsPast (fun s op => op.Mapped bound s) (fun _ _ => True) t) :
    ServedWithin bound t := by
  intro call tenant hserved
  obtain ⟨horg, r, hr, hread, hconn, hmoment⟩ := h.each _ hserved
  exact ⟨horg, r, hr, hread, hconn, Int.le_add_of_sub_right_le hmoment⟩

theorem servesMapped_hits (hmulti : E.provider.singleTenant = none) (hbound : 0 ≤ bound) :
    ServesMapped E (Advances (TenancyOp.HitsWithin bound)) bound := by
  intro s t es hstart hrun
  have hmapped := Outline.run (keepsOutline_mapped hmulti hbound) hrun hstart.mapped
  refine ⟨servedWithin_of_mapped hmapped, ?_⟩
  intro orgId old u fs hlater call tenant hserved horg hsince hold
  have hmapped' := Outline.run (keepsOutline_mapped hmulti hbound)
    (hlater.mono fun _ _ _ h => ⟨h.1, h.2.1⟩) hmapped
  -- whatever is read from `t` on is not the old connection
  have hreads : ∀ r ∈ u.store.reads, r.orgId = orgId → r.conn = old →
      r.moment ≤ t.store.now := by
    refine hlater.invariant_of_guarded (fun u => ∀ r ∈ u.store.reads, r.orgId = orgId →
      r.conn = old → r.moment ≤ t.store.now) ?_ fun r hr _ _ => hmapped.store r hr
    intro v e v' hinv hstep hok r hr hrorg hrconn
    rcases reads_step hstep r hr with hr | hr
    · exact hinv r hr hrorg hrconn
    · rw [hrorg, hrconn] at hr
      exact absurd hr hok.2
  obtain ⟨-, r, hr, hread, hconn, hmoment⟩ := servedWithin_of_mapped hmapped' _ _ hserved
  have hpast := hreads r hr (hread.trans horg) (hconn.trans hold)
  have hle : call.since ≤ t.store.now + bound := hmoment.trans (Int.add_le_add_right hpast _)
  exact absurd hsince (not_lt.2 hle)

theorem servesMapped_stamps (hmulti : E.provider.singleTenant = none) (hdelay : 0 ≤ delay) :
    ServesMapped E (Advances (TenancyOp.StampedWithin delay)) (mappingTtl + delay) := by
  have hbound : 0 ≤ mappingTtl + delay := Int.add_nonneg (by decide) hdelay
  intro s t es hstart hrun
  have hhits := hits_of_stamps (Q := fun _ _ _ => True)
    (hrun.mono fun _ _ _ h => ⟨h.1, h.2, trivial⟩) hstart.fetched
  obtain ⟨hserved, hrotated⟩ := servesMapped_hits hmulti hbound s t es hstart
    (hhits.mono fun _ _ _ h => ⟨h.1, h.2.1⟩)
  have hfetched := Outline.run keepsOutline_fetched hrun hstart.fetched
  exact ⟨hserved, fun orgId old u fs hlater =>
    hrotated orgId old u fs (hits_of_stamps hlater hfetched)⟩

/-- On a server of many tenants, a call is served a connection that the resolver has read in
the registry no longer than `mappingTtl` before the call, in every run in which the cache
finds no mapping that was read earlier and no pool has another connection than the mapping.
When all that is known of the mappings is that they are stamped no longer than `delay` after
they were read, it may have been so much longer. -/
theorem resolver_serves_mapped (hmulti : E.provider.singleTenant = none) :
    ServesMapped E (Advances (TenancyOp.HitsWithin mappingTtl)) mappingTtl ∧
      ∀ delay, 0 ≤ delay →
        ServesMapped E (Advances (TenancyOp.StampedWithin delay)) (mappingTtl + delay) :=
  ⟨servesMapped_hits hmulti (by decide), fun _ hdelay => servesMapped_stamps hmulti hdelay⟩

end Runs

/-! ## A rotation -/

/-- The guards, as checks. -/
def TenancyOp.hitsWithin (bound : Micros) (s : TenancyStore) : TenancyOp → Bool
  | resolving call => (s.cachedMapping call.orgId).all fun mapping => s.reads.any fun r =>
    r.orgId = call.orgId && r.conn = mapping.conn && s.now - bound ≤ r.moment
  | poolGetting _ orgId mapping | pooling _ orgId mapping =>
    (s.pools.get? orgId).all fun entry => entry.conn = mapping.conn
  | _ => true

def TenancyOp.stampedWithin (delay : Micros) (s : TenancyStore) : TenancyOp → Bool
  | stamping _ _ readAt => s.now ≤ readAt + delay
  | poolGetting _ orgId mapping | pooling _ orgId mapping =>
    (s.pools.get? orgId).all fun entry => entry.conn = mapping.conn
  | _ => true

def advances (check : TenancyStore → TenancyOp → Bool) (s : Tenants) : TenancyEvent → Bool
  | .advance i _ => (s.inFlight[i]?).all (check s.store)
  | _ => true

theorem TenancyOp.hitsWithin_sound {bound : Micros} {s : TenancyStore} {op : TenancyOp}
    (h : op.hitsWithin bound s = true) : op.HitsWithin bound s := by
  cases op with
  | resolving call =>
    intro mapping hmapping
    simp only [hitsWithin, hmapping, Option.all_some, List.any_eq_true, Bool.and_eq_true,
      decide_eq_true_eq] at h
    obtain ⟨r, hr, ⟨horg, hconn⟩, hmoment⟩ := h
    exact ⟨r, hr, horg, hconn, hmoment⟩
  | poolGetting call orgId mapping | pooling call orgId mapping =>
    intro entry hentry
    simp only [hitsWithin, hentry, Option.all_some] at h
    exact of_decide_eq_true h
  | _ => trivial

theorem TenancyOp.stampedWithin_sound {delay : Micros} {s : TenancyStore} {op : TenancyOp}
    (h : op.stampedWithin delay s = true) : op.StampedWithin delay s := by
  cases op with
  | stamping call mapping readAt => exact (of_decide_eq_true h : s.now ≤ readAt + delay)
  | poolGetting call orgId mapping | pooling call orgId mapping =>
    intro entry hentry
    simp only [stampedWithin, hentry, Option.all_some] at h
    exact of_decide_eq_true h
  | _ => trivial

theorem advances_sound {check : TenancyStore → TenancyOp → Bool}
    {ok : TenancyStore → TenancyOp → Prop} (hcheck : ∀ s op, check s op = true → ok s op)
    (s : Tenants) (e : TenancyEvent) (s' : Tenants) (h : advances check s e = true) :
    Advances ok s e s' := by
  cases e with
  | advance i chance =>
    intro op hop
    simp only [advances, hop, Option.all_some] at h
    exact hcheck s.store op h
  | start op | abandon i | commit c => trivial

/-- A connection that the registry does not have, as a check. -/
def replaced (P : Provider) (orgId : Int64) (old : String) (s : TenancyStore) : Bool :=
  (s.registry.get? orgId).all fun row => connOf P orgId row ≠ some old

theorem replaced_sound {P : Provider} {orgId : Int64} {old : String} {s : TenancyStore}
    (h : replaced P orgId old s = true) : ¬ s.Recorded P orgId old := by
  rintro ⟨row, hrow, -, hconn⟩
  simp only [replaced, hrow, Option.all_some] at h
  exact of_decide_eq_true h hconn

/-- An organization that is served, with a connection of its own. -/
def servedTenant : Tenants where
  store :=
    { orgs := [7]
      created := [7]
      registry := ⟨[(7, ⟨.active, some "postgres://a", "prefix", "t/7"⟩)], by decide⟩ }

/-- A call for the organization, and another connection after it. -/
def rotateSeven : List TenancyEvent :=
  .start (.resolving ⟨7, 0⟩) :: List.replicate 7 (.advance 0 {}) ++
    [.commit (.rotate 7 "postgres://b")]

/-- A call that comes more than `mappingTtl` later, and takes so many steps. -/
def resolveLater (i steps : Nat) : List TenancyEvent :=
  .commit (.tick (200 * microsPerSecond)) :: .start (.resolving ⟨7, 200 * microsPerSecond⟩) ::
    List.replicate steps (.advance i {})

/-- The registry takes a second to answer, a second call finds the mapping in the cache, and
the pool is dropped with the rotation. -/
def rotateSlowly : List TenancyEvent := List.flatten [
  .start (.resolving ⟨7, 0⟩) :: List.replicate 2 (.advance 0 {}),
  .commit (.tick microsPerSecond) :: List.replicate 5 (.advance 0 {}),
  .commit (.tick (60 * microsPerSecond)) :: .start (.resolving ⟨7, 60 * microsPerSecond⟩) ::
    List.replicate 2 (.advance 1 {}),
  [.commit (.rotate 7 "postgres://b"), .commit (.forgetPool 7)]]

/-- The call after the rotation gets the new connection. -/
theorem resolver_serves_mapped_rotated :
    ∃ t u, Run (Guarded (stepOf (tenancy localTenants).step)
        (Advances (TenancyOp.HitsWithin mappingTtl))) servedTenant rotateSlowly t ∧
      Run (stepOf (tenancy localTenants).step) t (resolveLater 2 7) u ∧
      u.inFlight[2]? = some (.served ⟨7, 200 * microsPerSecond⟩ ⟨7, "postgres://b", "t/7"⟩) ∧
      ServedWithin mappingTtl t ∧ ServedWithin (mappingTtl + microsPerSecond) t ∧
      ∀ call tenant, .served call tenant ∈ u.inFlight → call.orgId = 7 →
        t.store.now + mappingTtl < call.since → tenant.conn ≠ "postgres://a" := by
  have hsome : ((runOf (checked (tenancy localTenants).step fun t e =>
      advances (TenancyOp.hitsWithin mappingTtl) t e &&
        advances (TenancyOp.stampedWithin microsPerSecond) t e) servedTenant rotateSlowly).any
      fun t => (runOf (checked (tenancy localTenants).step fun t e =>
          advances (TenancyOp.hitsWithin mappingTtl) t e &&
            replaced localTenants.provider 7 "postgres://a" t.store) t (resolveLater 2 7)).any
          fun u => u.inFlight[2]? =
            some (.served ⟨7, 200 * microsPerSecond⟩ ⟨7, "postgres://b", "t/7"⟩)) = true := by
    decide
  obtain ⟨t, ht, hsome⟩ := (Option.any_eq_true _ _).1 hsome
  obtain ⟨u, hu, hserved⟩ := (Option.any_eq_true _ _).1 hsome
  have hboth : Run (Guarded (stepOf (tenancy localTenants).step) fun s e s' =>
      Advances (TenancyOp.HitsWithin mappingTtl) s e s' ∧
        Advances (TenancyOp.StampedWithin microsPerSecond) s e s') servedTenant rotateSlowly t := by
    refine Run.of_runOf_checked (fun t e t' hcheck => ?_) ht
    obtain ⟨hhits, hstamps⟩ := Bool.and_eq_true_iff.1 hcheck
    exact ⟨advances_sound (fun _ _ => TenancyOp.hitsWithin_sound) t e t' hhits,
      advances_sound (fun _ _ => TenancyOp.stampedWithin_sound) t e t' hstamps⟩
  have hlater : Run (Guarded (stepOf (tenancy localTenants).step) fun t e t' =>
      Advances (TenancyOp.HitsWithin mappingTtl) t e t' ∧
        ¬ t.store.Recorded localTenants.provider 7 "postgres://a") t (resolveLater 2 7) u := by
    refine Run.of_runOf_checked (fun t e t' hcheck => ?_) hu
    obtain ⟨hhits, hreplaced⟩ := Bool.and_eq_true_iff.1 hcheck
    exact ⟨advances_sound (fun _ _ => TenancyOp.hitsWithin_sound) t e t' hhits,
      replaced_sound hreplaced⟩
  have hrun : Run (Guarded (stepOf (tenancy localTenants).step)
      (Advances (TenancyOp.HitsWithin mappingTtl))) servedTenant rotateSlowly t :=
    hboth.mono fun _ _ _ h => ⟨h.1, h.2.1⟩
  have hboot : Booted servedTenant := ⟨rfl, rfl, rfl, rfl⟩
  obtain ⟨hhits, hstamps⟩ := resolver_serves_mapped (E := localTenants) rfl
  obtain ⟨hwithin, hrotated⟩ := hhits servedTenant t _ hboot hrun
  exact ⟨t, u, hrun, hlater.of_guarded, of_decide_eq_true hserved, hwithin,
    (hstamps microsPerSecond (by decide) servedTenant t _ hboot
      (hboth.mono fun _ _ _ h => ⟨h.1, h.2.2⟩)).1,
    hrotated 7 "postgres://a" u _ hlater⟩

/-- The pool of the old connection is still there, and the call after the rotation is served
it. -/
theorem stale_pool_is_served :
    ¬ ∀ (E : TenancyEnv) (s t : Tenants) (es : List TenancyEvent),
      E.provider.singleTenant = none → Booted s → Run (stepOf (tenancy E).step) s es t →
      ∀ call tenant, .served call tenant ∈ t.inFlight →
        ∃ r ∈ t.store.reads, r.orgId = call.orgId ∧ r.conn = tenant.conn ∧
          call.since ≤ r.moment + mappingTtl := by
  intro hall
  have hsome : (runOf (tenancy localTenants).step servedTenant
      (rotateSeven ++ resolveLater 1 5)).map (fun t => (t.inFlight[1]?, t.store.reads)) =
      some (some (.served ⟨7, 200 * microsPerSecond⟩ ⟨7, "postgres://a", "t/7"⟩),
        [⟨7, "postgres://a", 0⟩, ⟨7, "postgres://b", 200 * microsPerSecond⟩]) := by decide
  obtain ⟨t, ht, hend⟩ := Option.map_eq_some_iff.1 hsome
  rw [Prod.mk.injEq] at hend
  obtain ⟨r, hr, -, hconn, hsince⟩ := hall localTenants servedTenant t _ rfl ⟨rfl, rfl, rfl, rfl⟩
    (Run.of_runOf ht) _ _ (List.mem_of_getElem? hend.1)
  rw [hend.2] at hr
  rcases List.mem_cons.1 hr with rfl | hr
  · exact absurd hsince (by decide)
  · rw [List.mem_singleton.1 hr] at hconn
    exact absurd hconn (by decide)

end ReproitCloud
