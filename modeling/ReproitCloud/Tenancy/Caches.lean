import ReproitCloud.Lib.Eviction
import ReproitCloud.Lib.Recency
import ReproitCloud.Tenancy.Resolver

/-!
# The bounds of the caches

The cache of mappings makes room before it inserts, the pools evict after they have
inserted.  Both choose an entry of the least stamp (`dropLeast`), and of several such
entries the order of a hash map decides.

A `Watched` server also keeps the order in which the pools were handed out, which the
server itself only has as time stamps.  `caches_bounded_and_fresh` is about its runs.
Both caches stay within their bounds, and a mapping is served that was fresh at the
lookup or that the call has read itself.  A get that inserts a pool keeps it and evicts
the least recently used one, if one pool was last used before all others and before now.
When stamps are equal it need not be so: `fresh_pool_is_evicted`.
-/

namespace ReproitCloud

open Lib

/-! ## The caches as bounded tables -/

theorem dropOldest_eq_dropLeast {ν : Type} (stamp : ν → Micros) (t : Table Int64 ν)
    (pick : Int64) : dropOldest stamp t pick = dropLeast stamp t pick := by
  have hkey : oldest stamp t pick = leastKey stamp t pick := rfl
  rw [dropOldest, dropLeast, hkey]
  cases leastKey stamp t pick <;> rfl

/-- An insertion keeps the cache of mappings within its bound. -/
theorem length_cacheMapping {s : TenancyStore} (h : s.cache.rows.length ≤ mappingCacheMax)
    (orgId : Int64) (m : CachedMapping) (pick : Int64) :
    (s.cacheMapping orgId m pick).rows.length ≤ mappingCacheMax := by
  have hroom : s.roomFor orgId pick = roomIn mappingCacheMax (fun m => !s.isFresh m)
      CachedMapping.insertedAt s.cache orgId pick := by
    simp only [TenancyStore.roomFor, roomIn, dropOldest_eq_dropLeast]
  rw [TenancyStore.cacheMapping, hroom]
  exact length_upsert_roomIn (by decide) h m _

/-! ## The pools -/

theorem evictLocked_of_le {cap : Nat} {pools : Table Int64 PoolEntry} (pick : Int64) (n : Nat)
    (h : pools.rows.length ≤ cap) : evictLocked cap pick n pools = pools := by
  cases n with
  | zero => rfl
  | succ n => rw [evictLocked, if_neg (not_lt.mpr h)]

namespace TenancyStore

variable {s : TenancyStore} {cap : Nat} {orgId pick : Int64} {conn : String}

/-- The pools with a new one. -/
def withPool (s : TenancyStore) (orgId : Int64) (conn : String) : Table Int64 PoolEntry :=
  s.pools.upsert orgId ⟨conn, s.now⟩ fun _ => ⟨conn, s.now⟩

theorem get?_withPool (s : TenancyStore) (orgId : Int64) (conn : String) (k : Int64) :
    (s.withPool orgId conn).get? k = if k = orgId then some ⟨conn, s.now⟩ else s.pools.get? k := by
  rw [withPool, Table.get?_upsert]
  by_cases hk : k = orgId
  · rw [if_pos hk, if_pos hk]
    cases s.pools.get? orgId <;> rfl
  · rw [if_neg hk, if_neg hk]

theorem length_withPool (hnew : s.pools.has orgId = false) :
    (s.withPool orgId conn).rows.length = s.pools.rows.length + 1 := by
  rw [withPool, Table.upsert, dif_pos hnew]
  simp [Table.append]

/-- Below the cap nothing is evicted. -/
theorem insertPool_of_lt (hnew : s.pools.has orgId = false) (hroom : s.pools.rows.length < cap) :
    s.insertPool cap orgId conn pick = s.withPool orgId conn := by
  refine evictLocked_of_le pick _ ?_
  rw [← withPool, length_withPool hnew]
  exact hroom

/-- At the cap one pool is evicted. -/
theorem insertPool_of_full (hnew : s.pools.has orgId = false) (hfull : s.pools.rows.length = cap) :
    s.insertPool cap orgId conn pick =
      dropLeast PoolEntry.lastUsed (s.withPool orgId conn) pick := by
  have hlen : (s.withPool orgId conn).rows.length = cap + 1 := by
    rw [length_withPool hnew, hfull]
  have hne : (s.withPool orgId conn).rows ≠ [] :=
    List.ne_nil_of_length_pos (by rw [hlen]; exact cap.succ_pos)
  have hdropped : (dropLeast PoolEntry.lastUsed (s.withPool orgId conn) pick).rows.length = cap :=
    Nat.succ.inj ((length_dropLeast hne).trans hlen)
  change evictLocked cap pick (s.withPool orgId conn).rows.length (s.withPool orgId conn) = _
  rw [hlen, evictLocked, if_pos (by rw [hlen]; exact Nat.lt_succ_self cap),
    dropOldest_eq_dropLeast, evictLocked_of_le pick cap hdropped.le]

theorem length_insertPool (hnew : s.pools.has orgId = false) (h : s.pools.rows.length ≤ cap) :
    (s.insertPool cap orgId conn pick).rows.length ≤ cap := by
  rcases h.lt_or_eq with hroom | hfull
  · rw [insertPool_of_lt hnew hroom, length_withPool hnew]
    exact hroom
  · have hlen : (s.withPool orgId conn).rows.length = cap + 1 := by
      rw [length_withPool hnew, hfull]
    have hne : (s.withPool orgId conn).rows ≠ [] :=
      List.ne_nil_of_length_pos (by rw [hlen]; exact cap.succ_pos)
    rw [insertPool_of_full hnew hfull]
    exact (Nat.succ.inj ((length_dropLeast hne).trans hlen)).le

theorem get?_of_insertPool {k : Int64} {e : PoolEntry}
    (h : (s.insertPool cap orgId conn pick).get? k = some e) :
    (s.withPool orgId conn).get? k = some e :=
  get?_of_evictLocked h

theorem length_bumpPool (s : TenancyStore) (orgId : Int64) :
    (s.bumpPool orgId).rows.length = s.pools.rows.length := by
  simp [bumpPool, Table.update]

theorem get?_bumpPool (s : TenancyStore) (orgId k : Int64) :
    (s.bumpPool orgId).get? k = if k = orgId then
      (s.pools.get? k).map fun e => { e with lastUsed := s.now } else s.pools.get? k := by
  rw [bumpPool, Table.get?_update]
  by_cases hk : k = orgId <;> simp [hk]

end TenancyStore

/-! ## Watched servers -/

/-- A server with the order in which its pools were handed out. -/
structure Watched where
  tenants : Tenants
  uses : List Int64 := []

/-- The organization whose pool `TenantPools::get` returns with a step. -/
def TenancyOp.poolReturned (s : TenancyStore) : TenancyOp → Option Int64
  | poolGetting _ orgId _ => if s.pools.has orgId then some orgId else none
  | pooling _ orgId _ => some orgId
  | _ => none

/-- The pool that an event hands out. -/
def poolUsed (s : Tenants) : TenancyEvent → Option Int64
  | .advance i _ => (s.inFlight[i]?).bind fun op => op.poolReturned s.store
  | _ => none

/-- The order of the uses after an event. -/
def usesAfter (s : Tenants) (uses : List Int64) (e : TenancyEvent) : List Int64 :=
  (poolUsed s e).elim uses (touch uses)

/-- A step of a watched server. -/
def watchedStep (E : TenancyEnv) (w : Watched) (e : TenancyEvent) : Option Watched :=
  ((tenancy E).step w.tenants e).map fun t => ⟨t, usesAfter w.tenants w.uses e⟩

theorem watchedStep_eq_some {E : TenancyEnv} {w w' : Watched} {e : TenancyEvent}
    (h : watchedStep E w e = some w') :
    (tenancy E).step w.tenants e = some w'.tenants ∧ w'.uses = usesAfter w.tenants w.uses e := by
  obtain ⟨t, ht, rfl⟩ := Option.map_eq_some_iff.mp h
  exact ⟨ht, rfl⟩

/-- A run of a watched server is one of the server. -/
theorem run_of_watched {E : TenancyEnv} {w w' : Watched} {es : List TenancyEvent}
    (h : Run (stepOf (watchedStep E)) w es w') :
    Run (stepOf (tenancy E).step) w.tenants es w'.tenants := by
  have hsimulated : ∃ t, Run (stepOf (tenancy E).step) w.tenants es t ∧ w'.tenants = t :=
    h.simulate (fun w t => w.tenants = t)
      (fun w e w' t ht hstep => ⟨w'.tenants, ht ▸ (watchedStep_eq_some hstep).1, rfl⟩) rfl
  obtain ⟨t, hrun, ht⟩ := hsimulated
  rwa [ht]

section Order

variable {E : TenancyEnv} {s : TenancyStore} {uses : List Int64}

/-- The stamps of the pools of a server follow the order of the uses. -/
abbrev PoolsRecent (s : TenancyStore) (uses : List Int64) : Prop :=
  Recency s.pools PoolEntry.lastUsed uses s.now

theorem poolsRecent_bump (h : PoolsRecent s uses) (orgId : Int64) :
    Recency (s.bumpPool orgId) PoolEntry.lastUsed (touch uses orgId) s.now := by
  refine h.touched (fun e he => ?_) fun k e hk he => ?_
  · rw [TenancyStore.get?_bumpPool, if_pos rfl] at he
    obtain ⟨e', -, rfl⟩ := Option.map_eq_some_iff.mp he
    rfl
  · rwa [TenancyStore.get?_bumpPool, if_neg hk] at he

theorem poolsRecent_withPool (h : PoolsRecent s uses) (orgId : Int64) (conn : String) :
    Recency (s.withPool orgId conn) PoolEntry.lastUsed (touch uses orgId) s.now := by
  refine h.touched (fun e he => ?_) fun k e hk he => ?_
  · rw [TenancyStore.get?_withPool, if_pos rfl] at he
    cases he
    rfl
  · rwa [TenancyStore.get?_withPool, if_neg hk] at he

/-- The order is kept by what a step does. -/
theorem poolsRecent_effect (h : PoolsRecent s uses) (chance : TenancyChance) (op : TenancyOp) :
    PoolsRecent (op.effect E s chance) ((op.poolReturned s).elim uses (touch uses)) := by
  cases op with
  | poolGetting call orgId mapping =>
    simp only [TenancyOp.poolReturned]
    split
    · exact poolsRecent_bump h orgId
    · rename_i hnone
      refine h.mono (fun k e he => ?_) (le_refl _)
      change (s.bumpPool orgId).get? k = some e at he
      rw [TenancyStore.get?_bumpPool] at he
      split at he
      · rename_i hk
        obtain ⟨e', he', -⟩ := Option.map_eq_some_iff.mp he
        exact absurd (Option.isSome_of_eq_some (hk ▸ he')) hnone
      · exact he
  | pooling call orgId mapping =>
    change Recency (if s.pools.has orgId then _ else _) _ (touch uses orgId) s.now
    split
    · exact poolsRecent_bump h orgId
    · exact (poolsRecent_withPool h orgId mapping.conn).mono
        (fun k e he => TenancyStore.get?_of_insertPool he) (le_refl _)
  | poolForgetting flow orgId =>
    exact h.mono (fun k e he => (Table.get?_of_delete he).1) (le_refl _)
  | _ => exact h

theorem poolsRecent_write {c : TenancyWrite} {s' : TenancyStore} (h : PoolsRecent s uses)
    (hwrite : tenancyWrite E s c = some s') : PoolsRecent s' uses := by
  cases c with
  | tick now =>
    obtain ⟨hnow, heq⟩ := Option.ite_none_right_eq_some.mp hwrite
    cases heq
    exact h.mono (fun _ _ => id) hnow
  | createOrg orgId =>
    obtain ⟨-, heq⟩ := Option.ite_none_left_eq_some.mp hwrite
    cases heq
    exact h
  | forgetPool | sweepIdle =>
    cases hwrite
    exact h.mono (fun k e he => (Table.get?_of_delete he).1) (le_refl _)
  | _ =>
    cases hwrite
    exact h

/-- A get is in the memory of the process, so it always takes effect. -/
theorem poolReturned_of_not_takes {op : TenancyOp} {chance : TenancyChance}
    (h : op.takes chance = false) : op.poolReturned s = none := by
  cases op with
  | poolGetting | pooling => cases h
  | _ => rfl

/-- The order is kept by a step of a watched server. -/
theorem poolsRecent_step {w w' : Watched} {e : TenancyEvent}
    (h : PoolsRecent w.tenants.store w.uses) (hstep : watchedStep E w e = some w') :
    PoolsRecent w'.tenants.store w'.uses := by
  obtain ⟨hevent, huses⟩ := watchedStep_eq_some hstep
  rw [huses]
  generalize w'.tenants = t at hevent
  cases Program.effect_of_step hevent with
  | start | abandon => exact h
  | @advance i chance op store next hop hnext =>
    obtain ⟨-, rfl, -⟩ := tenancyNext_eq_some hnext
    have hused : usesAfter w.tenants w.uses (.advance i chance) =
        (op.poolReturned w.tenants.store).elim w.uses (touch w.uses) := by
      rw [usesAfter, poolUsed, hop, Option.bind_some]
    rw [hused]
    dsimp only
    split
    · exact poolsRecent_effect h chance op
    · rename_i htakes
      rw [poolReturned_of_not_takes (Bool.not_eq_true _ ▸ htakes)]
      exact h
  | commit hwrite => exact poolsRecent_write h hwrite

end Order

/-! ## The invariant -/

/-- Both caches are within their bounds. -/
structure CachesBounded (E : TenancyEnv) (s : TenancyStore) : Prop where
  cache : s.cache.rows.length ≤ mappingCacheMax
  pools : s.pools.rows.length ≤ E.poolCap

/-- A mapping that a call has read is stamped after the call came, and not ahead of the
clock. -/
def TenancyOp.Stamped (s : TenancyStore) : TenancyOp → Prop
  | resolving call | registryReading call | stamping call _ _ => call.since ≤ s.now
  | caching call cached => call.since ≤ cached.insertedAt ∧ cached.insertedAt ≤ s.now
  | _ => True

section Bounds

variable {E : TenancyEnv} {s s' : TenancyStore} {chance : TenancyChance} {op : TenancyOp}

theorem cachesBounded_effect (h : CachesBounded E s) :
    CachesBounded E (op.effect E s chance) := by
  cases op with
  | caching call cached => exact ⟨length_cacheMapping h.cache _ _ _, h.pools⟩
  | poolGetting call orgId mapping =>
    exact ⟨h.cache, (TenancyStore.length_bumpPool s orgId).trans_le h.pools⟩
  | pooling call orgId mapping =>
    refine ⟨h.cache, ?_⟩
    change (if s.pools.has orgId then _ else _ : Table Int64 PoolEntry).rows.length ≤ E.poolCap
    split
    · exact (TenancyStore.length_bumpPool s orgId).trans_le h.pools
    · rename_i hnew
      exact TenancyStore.length_insertPool (Bool.not_eq_true _ ▸ hnew) h.pools
  | mappingForgetting flow orgId => exact ⟨(List.length_filter_le _ _).trans h.cache, h.pools⟩
  | poolForgetting flow orgId => exact ⟨h.cache, (List.length_filter_le _ _).trans h.pools⟩
  | _ => exact ⟨h.cache, h.pools⟩

theorem cachesBounded_write {c : TenancyWrite} (h : CachesBounded E s)
    (hwrite : tenancyWrite E s c = some s') : CachesBounded E s' := by
  cases c with
  | tick now =>
    obtain ⟨-, heq⟩ := Option.ite_none_right_eq_some.mp hwrite
    cases heq
    exact ⟨h.cache, h.pools⟩
  | createOrg orgId =>
    obtain ⟨-, heq⟩ := Option.ite_none_left_eq_some.mp hwrite
    cases heq
    exact ⟨h.cache, h.pools⟩
  | forgetMapping orgId =>
    cases hwrite
    exact ⟨(List.length_filter_le _ _).trans h.cache, h.pools⟩
  | forgetPool | sweepIdle =>
    cases hwrite
    exact ⟨h.cache, (List.length_filter_le _ _).trans h.pools⟩
  | _ =>
    cases hwrite
    exact ⟨h.cache, h.pools⟩

theorem TenancyOp.Stamped.mono (h : op.Stamped s) (hnow : s.now ≤ s'.now) : op.Stamped s' := by
  cases op with
  | resolving | registryReading | stamping => exact le_trans h hnow
  | caching => exact ⟨h.1, h.2.trans hnow⟩
  | _ => trivial

theorem TenancyOp.stamped_of_resolve? (h : op.resolve? = none) : op.Stamped s := by
  cases op <;> trivial

theorem stamped_starts (h : op.starts E s = true) : op.Stamped s := by
  cases op with
  | resolving call => exact le_of_eq (of_decide_eq_true h)
  | registryReading | stamping | caching => cases h
  | _ => trivial

theorem stamped_next (hop : op.Stamped s) : (op.next E s chance (op.hears chance)).Stamped s := by
  cases op with
  | resolving call =>
    simp only [TenancyOp.next]
    repeat' split
    all_goals trivial
  | registryReading call =>
    simp only [TenancyOp.next]
    split
    · rcases afterRegistry_cases E.provider call s.now (s.registry.get? call.orgId) with
        ⟨error, hafter⟩ | ⟨row, mapping, -, -, -, hafter⟩
      · rw [hafter]
        trivial
      · rw [hafter]
        exact hop
    · trivial
  | stamping call mapping readAt => exact ⟨hop, le_refl _⟩
  | caching | pooling | served | refused => trivial
  | poolGetting call orgId mapping =>
    simp only [TenancyOp.next]
    split <;> trivial
  | connecting call orgId mapping =>
    simp only [TenancyOp.next]
    split <;> trivial
  | _ =>
    apply TenancyOp.stamped_of_resolve?
    rw [resolve?_next]
    rfl

/-- The bounds and the stamps are kept by every event. -/
theorem keepsOutline_caches : KeepsOutline (tenancy E) (fun _ _ _ => True) (CachesBounded E)
    (fun s op => op.Stamped s) fun _ _ => True where
  start s s' op _ _ hstarts := ⟨stamped_starts hstarts, fun _ _ => trivial⟩
  advance s s' i chance op store next h _ hop hnext := by
    obtain ⟨-, rfl, rfl⟩ := tenancyNext_eq_some hnext
    have hnow : s.store.now ≤
        (if op.takes chance then op.effect E s.store chance else s.store).now := by
      split
      · exact (later_effect E s.store chance op).now
      · exact le_refl _
    refine ⟨?_, fun o ho => ?_, fun op' heq => ⟨?_, fun _ _ => trivial⟩⟩
    · split
      · exact cachesBounded_effect h.store
      · exact h.store
    · exact (h.each o (List.mem_of_mem_eraseIdx ho)).mono hnow
    · cases heq
      exact (stamped_next (h.each op (List.mem_of_getElem? hop))).mono hnow
  commit s s' c store h _ hwrite :=
    ⟨cachesBounded_write h.store hwrite, fun o ho =>
      (h.each o ho).mono (later_write hwrite).now⟩

end Bounds

/-! ## Freshness -/

/-- The mapping with which a call goes on was fresh when it was found in the cache, or is
one that the call has read and stamped itself. -/
def ReturnedInTime (s : TenancyStore) (op : TenancyOp) (call : Resolve) (mapping : TenantMapping) :
    Prop :=
  (op = .resolving call ∧ ∃ m, s.cache.get? call.orgId = some m ∧ m.mapping = mapping ∧
    s.now - m.insertedAt < mappingTtl) ∨
  ∃ m, op = .caching call m ∧ m.mapping = mapping ∧ call.since ≤ m.insertedAt ∧
    m.insertedAt ≤ s.now

theorem returnedInTime {E : TenancyEnv} {s : TenancyStore} {chance : TenancyChance}
    {answered : Bool} {op : TenancyOp} {call : Resolve} {orgId : Int64} {mapping : TenantMapping}
    (hmulti : E.provider.singleTenant = none) (hop : op.Stamped s)
    (hnext : op.next E s chance answered = .poolGetting call orgId mapping) :
    ReturnedInTime s op call mapping := by
  have hcall : op.resolve? = some call := by
    rw [← resolve?_next E s chance answered, hnext]
    rfl
  cases op with
  | resolving call' =>
    simp only [TenancyOp.next, hmulti] at hnext
    split at hnext
    · rename_i mapping' hmapping
      cases hnext
      obtain ⟨m, hm, rfl, hfresh⟩ := TenancyStore.cachedMapping_eq_some hmapping
      exact Or.inl ⟨rfl, m, hm, rfl, Int.sub_left_lt_of_lt_add hfresh⟩
    · cases hnext
  | caching call' cached =>
    cases hnext
    exact Or.inr ⟨cached, rfl, rfl, hop⟩
  | registryReading call' =>
    simp only [TenancyOp.next] at hnext
    split at hnext
    · rcases afterRegistry_cases E.provider call' s.now (s.registry.get? call'.orgId) with
        ⟨error, hafter⟩ | ⟨row, mapping, -, -, -, hafter⟩
      · rw [hafter] at hnext
        cases hnext
      · rw [hafter] at hnext
        cases hnext
    · cases hnext
  | poolGetting call' orgId' mapping' =>
    simp only [TenancyOp.next] at hnext
    split at hnext <;> cases hnext
  | connecting call' orgId' mapping' =>
    simp only [TenancyOp.next] at hnext
    split at hnext <;> cases hnext
  | stamping | pooling | served | refused => cases hnext
  | _ => cases hcall

/-! ## Recency -/

/-- A get that returns the pool of an organization keeps it, and every pool that stays was
used after one that was evicted. -/
structure GetKeepsRecent (w w' : Watched) (orgId : Int64) : Prop where
  returned_stays : w'.tenants.store.pools.has orgId = true
  evicted_oldest : ∀ k, w.tenants.store.pools.has k = true →
    w'.tenants.store.pools.has k = false → ∀ k', w'.tenants.store.pools.has k' = true →
      UsedAfter w'.uses k' k

/-- Nothing has to be evicted, or one pool was last used before all others and before now. -/
def RoomOrOldest (E : TenancyEnv) (s : TenancyStore) (orgId : Int64) : Prop :=
  s.pools.has orgId = true ∨ s.pools.rows.length < E.poolCap ∨
    ∃ r ∈ s.pools.rows, r.2.lastUsed < s.now ∧
      ∀ r' ∈ s.pools.rows, r' ≠ r → r.2.lastUsed < r'.2.lastUsed

section Gets

variable {E : TenancyEnv} {w : Watched} {i : Nat} {op : TenancyOp} {orgId : Int64}

/-- A get can always step, and its pool is the one used last. -/
theorem watchedStep_get (hop : w.tenants.inFlight[i]? = some op)
    (hpool : op.poolReturned w.tenants.store = some orgId) (chance : TenancyChance) :
    ∃ inFlight, watchedStep E w (.advance i chance) =
      some ⟨⟨op.effect E w.tenants.store chance, inFlight⟩, touch w.uses orgId⟩ := by
  have hused : usesAfter w.tenants w.uses (.advance i chance) = touch w.uses orgId := by
    rw [usesAfter, poolUsed, hop, Option.bind_some, hpool]
    rfl
  have hnext : tenancyNext E w.tenants.store chance op =
      some (op.effect E w.tenants.store chance,
        some (op.next E w.tenants.store chance (op.hears chance))) := by
    cases op with
    | poolGetting | pooling => rfl
    | _ => cases hpool
  refine ⟨w.tenants.inFlight.eraseIdx i ++
    [op.next E w.tenants.store chance (op.hears chance)], ?_⟩
  rw [watchedStep, hused, Program.step, hop, Option.bind_some]
  change ((tenancyNext E w.tenants.store chance op).map _).map _ = _
  rw [hnext]
  rfl

theorem has_bumpPool (s : TenancyStore) (orgId k : Int64) :
    (s.bumpPool orgId).has k = s.pools.has k := by
  rw [Table.has, Table.has, TenancyStore.get?_bumpPool]
  split
  · rw [Option.isSome_map]
  · rfl

theorem has_withPool (s : TenancyStore) (orgId : Int64) (conn : String) (k : Int64) :
    (s.withPool orgId conn).has k = (decide (k = orgId) || s.pools.has k) :=
  Table.has_upsert _ _ _ _ _

/-- A pool that was there, or one that fits, is returned without an eviction. -/
theorem getKeepsRecent_of_grows {w' : Watched}
    (hgrows : ∀ k, w'.tenants.store.pools.has k =
      (decide (k = orgId) || w.tenants.store.pools.has k)) : GetKeepsRecent w w' orgId where
  returned_stays := by simp [hgrows]
  evicted_oldest k hk hgone := by
    rw [hgrows, hk, Bool.or_true] at hgone
    cases hgone

/-- With one pool used before all others, it is the one that is dropped. -/
theorem oldest_withPool {s : TenancyStore} (conn : String) (pick : Int64)
    (hnew : s.pools.has orgId = false) {r : Int64 × PoolEntry} (hr : r ∈ s.pools.rows) (hnow : r.2.lastUsed < s.now)
    (hleast : ∀ r' ∈ s.pools.rows, r' ≠ r → r.2.lastUsed < r'.2.lastUsed) :
    leastKey PoolEntry.lastUsed (s.withPool orgId conn) pick = some r.1 ∧
      (s.withPool orgId conn).get? r.1 = some r.2 ∧
      ∀ k e, k ≠ r.1 → (s.withPool orgId conn).get? k = some e → r.2.lastUsed < e.lastUsed := by
  have hget : s.pools.get? r.1 = some r.2 := Table.get?_eq_some_iff.mpr hr
  have hne : r.1 ≠ orgId := by
    intro heq
    rw [Table.has, ← heq, hget] at hnew
    cases hnew
  have hown : (s.withPool orgId conn).get? r.1 = some r.2 := by
    rw [TenancyStore.get?_withPool, if_neg hne]
    exact hget
  have hothers : ∀ k e, k ≠ r.1 → (s.withPool orgId conn).get? k = some e →
      r.2.lastUsed < e.lastUsed := by
    intro k e hk he
    rw [TenancyStore.get?_withPool] at he
    split at he
    · cases he
      exact hnow
    · exact hleast (k, e) (Table.get?_eq_some_iff.mp he) fun heq => hk (congrArg Prod.fst heq)
  refine ⟨?_, hown, hothers⟩
  obtain ⟨k, hk⟩ := exists_leastKey (t := s.withPool orgId conn) PoolEntry.lastUsed pick
    (List.ne_nil_of_mem (Table.get?_eq_some_iff.mp hown))
  obtain ⟨e, he, hmin⟩ := leastKey_eq_some hk
  rw [hk, Option.some.injEq]
  by_contra hother
  have hless := hothers k e hother (Table.get?_eq_some_iff.mpr he)
  exact absurd (hmin r (Table.get?_eq_some_iff.mp hown)) (not_le.mpr hless)

/-- What a get makes of the pools. -/
theorem pools_effect {s : TenancyStore} (hpool : op.poolReturned s = some orgId)
    (chance : TenancyChance) :
    (s.pools.has orgId = true ∧ (op.effect E s chance).pools = s.bumpPool orgId) ∨
      s.pools.has orgId = false ∧ ∃ call mapping, op = .pooling call orgId mapping ∧
        (op.effect E s chance).pools = s.insertPool E.poolCap orgId mapping.conn chance.pick := by
  cases op with
  | poolGetting call orgId' mapping =>
    obtain ⟨hhas, heq⟩ := Option.ite_none_right_eq_some.mp hpool
    cases heq
    exact Or.inl ⟨hhas, rfl⟩
  | pooling call orgId' mapping =>
    cases hpool
    cases hhas : s.pools.has orgId with
    | true => exact Or.inl ⟨rfl, if_pos hhas⟩
    | false => exact Or.inr ⟨rfl, call, mapping, rfl, if_neg (by simp [hhas])⟩
  | _ => cases hpool

/-- The least recently used pool is evicted, where only one has the least stamp. -/
theorem getKeepsRecent_of_oldest {w' : Watched} {conn : String} {pick : Int64}
    (hrecent : PoolsRecent w.tenants.store w.uses)
    (hnew : w.tenants.store.pools.has orgId = false)
    (hfull : w.tenants.store.pools.rows.length = E.poolCap)
    (hpools : w'.tenants.store.pools = w.tenants.store.insertPool E.poolCap orgId conn pick)
    (huses : w'.uses = touch w.uses orgId) {r : Int64 × PoolEntry}
    (hr : r ∈ w.tenants.store.pools.rows) (hnow : r.2.lastUsed < w.tenants.store.now)
    (hleast : ∀ r' ∈ w.tenants.store.pools.rows, r' ≠ r → r.2.lastUsed < r'.2.lastUsed) :
    GetKeepsRecent w w' orgId := by
  obtain ⟨hoptions, hown, hothers⟩ := oldest_withPool conn pick hnew hr hnow hleast
  have hevicted : w'.tenants.store.pools =
      (w.tenants.store.withPool orgId conn).delete fun k _ => k = r.1 := by
    rw [hpools, TenancyStore.insertPool_of_full hnew hfull, dropLeast_eq hoptions]
  have hhas : ∀ k, w'.tenants.store.pools.has k =
      (!decide (k = r.1) && (decide (k = orgId) || w.tenants.store.pools.has k)) := by
    intro k
    rw [hevicted, has_delete_key, has_withPool]
  have hne : orgId ≠ r.1 := by
    rintro rfl
    rw [Table.has, Table.get?_eq_some_iff.mpr hr] at hnew
    cases hnew
  constructor
  · simp [hhas, hne]
  · intro k hk hgone k' hk'
    have hkr : k = r.1 := by simpa [hhas, hk] using hgone
    obtain ⟨hk'r, hk'⟩ : k' ≠ r.1 ∧ (w.tenants.store.withPool orgId conn).has k' = true := by
      rw [has_withPool]
      simpa [hhas] using hk'
    obtain ⟨e', he'⟩ := Option.isSome_iff_exists.mp hk'
    rw [huses, hkr]
    exact (poolsRecent_withPool hrecent orgId conn).usedAfter hown he' (hothers k' e' hk'r he')

/-- Where it is evicted for every order of the hash map, only one pool has the least stamp. -/
theorem oldest_of_getKeepsRecent (conn : String)
    (hrecent : PoolsRecent w.tenants.store w.uses)
    (hnew : w.tenants.store.pools.has orgId = false)
    (hfull : w.tenants.store.pools.rows.length = E.poolCap)
    (h : ∀ pick, ∃ w' : Watched, GetKeepsRecent w w' orgId ∧ w'.uses = touch w.uses orgId ∧
      w'.tenants.store.pools = w.tenants.store.insertPool E.poolCap orgId conn pick) :
    ∃ r ∈ w.tenants.store.pools.rows, r.2.lastUsed < w.tenants.store.now ∧
      ∀ r' ∈ w.tenants.store.pools.rows, r' ≠ r → r.2.lastUsed < r'.2.lastUsed := by
  -- Whoever has the least stamp can be evicted, and is then older than all others.
  have hevicts : ∀ r ∈ (w.tenants.store.withPool orgId conn).rows,
      (∀ r' ∈ (w.tenants.store.withPool orgId conn).rows, r.2.lastUsed ≤ r'.2.lastUsed) →
      r.1 ≠ orgId ∧ ∀ k, k ≠ r.1 → (w.tenants.store.withPool orgId conn).has k = true →
        UsedAfter (touch w.uses orgId) k r.1 := by
    intro r hr hleast
    obtain ⟨w', hkeeps, huses, hpools⟩ := h r.1
    rw [TenancyStore.insertPool_of_full hnew hfull, dropLeast_eq (leastKey_pick hr hleast)] at hpools
    have hhas : ∀ k, w'.tenants.store.pools.has k =
        (!decide (k = r.1) && (w.tenants.store.withPool orgId conn).has k) := by
      intro k
      rw [hpools, has_delete_key]
    have hne : r.1 ≠ orgId := by
      intro heq
      have hstays := hkeeps.returned_stays
      rw [hhas, heq] at hstays
      simp at hstays
    refine ⟨hne, fun k hk hstays => ?_⟩
    rw [← huses]
    refine hkeeps.evicted_oldest r.1 ?_ ?_ k ?_
    · have hget : (w.tenants.store.withPool orgId conn).has r.1 = true :=
        Option.isSome_of_eq_some (Table.get?_eq_some_iff.mpr hr)
      simpa [has_withPool, hne] using hget
    · simp [hhas]
    · simp [hhas, hk, hstays]
  obtain ⟨r, hr, hleast⟩ := exists_least PoolEntry.lastUsed
    (t := w.tenants.store.withPool orgId conn)
    (List.ne_nil_of_length_pos (by rw [TenancyStore.length_withPool hnew]; exact Nat.succ_pos _))
  obtain ⟨hne, hafter⟩ := hevicts r hr hleast
  have hstrict : ∀ r' ∈ (w.tenants.store.withPool orgId conn).rows, r'.1 ≠ r.1 →
      r.2.lastUsed < r'.2.lastUsed := by
    intro r' hr' hother
    refine lt_of_le_of_ne (hleast r' hr') fun hequal => ?_
    have hback := (hevicts r' hr' (hequal ▸ hleast)).2 r.1 (Ne.symm hother)
      (Option.isSome_of_eq_some (Table.get?_eq_some_iff.mpr hr))
    exact (hafter r'.1 hother (Option.isSome_of_eq_some (Table.get?_eq_some_iff.mpr hr'))).asymm
      (nodup_touch hrecent.nodup) hback
  have hold : ∀ r' : Int64 × PoolEntry, r'.1 ≠ orgId →
      (r' ∈ (w.tenants.store.withPool orgId conn).rows ↔ r' ∈ w.tenants.store.pools.rows) := by
    intro r' hr'
    rw [← Table.get?_eq_some_iff, ← Table.get?_eq_some_iff, TenancyStore.get?_withPool, if_neg hr']
  refine ⟨r, (hold r hne).mp hr, ?_, fun r' hr' hother => ?_⟩
  · have hown : (orgId, (⟨conn, w.tenants.store.now⟩ : PoolEntry)) ∈
        (w.tenants.store.withPool orgId conn).rows := by
      rw [← Table.get?_eq_some_iff, TenancyStore.get?_withPool, if_pos rfl]
    exact hstrict _ hown (Ne.symm hne)
  · have hnot : r'.1 ≠ orgId := by
      intro heq
      rw [Table.has, ← heq, Table.get?_eq_some_iff.mpr hr'] at hnew
      cases hnew
    refine hstrict r' ((hold r' hnot).mpr hr') fun hsame => hother ?_
    have hrow := Table.get?_eq_some_iff.mpr ((hold r hne).mp hr)
    rw [← hsame, Table.get?_eq_some_iff.mpr hr', Option.some.injEq] at hrow
    exact Prod.ext hsame hrow

/-- What a get needs is there exactly when, however the hash map is ordered, it keeps the
pool that it returns and evicts the least recently used one. -/
theorem getKeepsRecent_iff (hbound : CachesBounded E w.tenants.store)
    (hrecent : PoolsRecent w.tenants.store w.uses) (hop : w.tenants.inFlight[i]? = some op)
    (hpool : op.poolReturned w.tenants.store = some orgId) :
    (∀ chance w', watchedStep E w (.advance i chance) = some w' → GetKeepsRecent w w' orgId) ↔
      RoomOrOldest E w.tenants.store orgId := by
  have hstep := watchedStep_get (E := E) hop hpool
  rcases pools_effect (E := E) hpool {} with ⟨hhas, -⟩ | ⟨hnew, call, mapping, rfl, -⟩
  · refine ⟨fun _ => Or.inl hhas, fun _ chance w' hw' => ?_⟩
    obtain ⟨inFlight, heq⟩ := hstep chance
    rw [heq, Option.some.injEq] at hw'
    subst hw'
    refine getKeepsRecent_of_grows fun k => ?_
    rcases pools_effect (E := E) hpool chance with ⟨-, hpools⟩ | ⟨hnew, -⟩
    · rw [hpools, has_bumpPool]
      by_cases hk : k = orgId
      · simp [hk, hhas]
      · simp [hk]
    · rw [hhas] at hnew
      cases hnew
  · have hpools : ∀ chance : TenancyChance,
        ((TenancyOp.pooling call orgId mapping).effect E w.tenants.store chance).pools =
          w.tenants.store.insertPool E.poolCap orgId mapping.conn chance.pick :=
      fun chance => if_neg (by simp [hnew])
    constructor
    · intro hall
      rcases hbound.pools.lt_or_eq with hroom | hfull
      · exact Or.inr (Or.inl hroom)
      · refine Or.inr (Or.inr (oldest_of_getKeepsRecent mapping.conn hrecent hnew hfull
          fun pick => ?_))
        obtain ⟨inFlight, heq⟩ := hstep { pick := pick }
        exact ⟨_, hall _ _ heq, rfl, hpools _⟩
    · rintro (hhas | hroom | ⟨r, hr, hnow, hleast⟩) chance w' hw'
      · rw [hnew] at hhas
        cases hhas
      · obtain ⟨inFlight, heq⟩ := hstep chance
        rw [heq, Option.some.injEq] at hw'
        subst hw'
        refine getKeepsRecent_of_grows fun k => ?_
        rw [hpools, TenancyStore.insertPool_of_lt hnew hroom, has_withPool]
      · obtain ⟨inFlight, heq⟩ := hstep chance
        rw [heq, Option.some.injEq] at hw'
        subst hw'
        rcases hbound.pools.lt_or_eq with hroom | hfull
        · refine getKeepsRecent_of_grows fun k => ?_
          rw [hpools, TenancyStore.insertPool_of_lt hnew hroom, has_withPool]
        · exact getKeepsRecent_of_oldest hrecent hnew hfull (hpools chance) rfl hr hnow hleast

end Gets

/-! ## Runs -/

theorem poolsRecent_run {E : TenancyEnv} {w w' : Watched} {es : List TenancyEvent}
    (hboot : Booted w.tenants) (huses : w.uses = [])
    (hrun : Run (stepOf (watchedStep E)) w es w') : PoolsRecent w'.tenants.store w'.uses := by
  refine hrun.invariant (fun w => PoolsRecent w.tenants.store w.uses)
    (fun _ _ _ => poolsRecent_step) ?_
  rw [PoolsRecent, hboot.pools, huses]
  exact Recency.empty PoolEntry.lastUsed _

theorem outline_caches {E : TenancyEnv} {s t : Tenants} {es : List TenancyEvent}
    (hboot : Booted s) (hrun : Run (stepOf (tenancy E).step) s es t) :
    Outline (CachesBounded E) (fun s op => op.Stamped s) (fun _ _ => True) t := by
  have hguarded : Run (Guarded (stepOf (tenancy E).step) fun _ _ _ => True) s es t :=
    hrun.mono fun _ _ _ hstep => ⟨hstep, trivial⟩
  refine Outline.run keepsOutline_caches hguarded (outline_of_idle ?_ hboot.idle)
  constructor
  · rw [hboot.cache]
    exact Nat.zero_le _
  · rw [hboot.pools]
    exact Nat.zero_le _

/-- In every state of every run, both caches are within their bounds, and a call goes on with
a mapping that was fresh when it was found, or that the call has read itself.  A get keeps
the pool that it returns and evicts the least recently used one, whatever the order of the
hash map, exactly when there is room or one pool was last used before all others and before
now. -/
theorem caches_bounded_and_fresh {E : TenancyEnv} {w w' : Watched} {es : List TenancyEvent}
    (hboot : Booted w.tenants) (huses : w.uses = [])
    (hrun : Run (stepOf (watchedStep E)) w es w') :
    CachesBounded E w'.tenants.store ∧
    (E.provider.singleTenant = none → ∀ op ∈ w'.tenants.inFlight, ∀ chance answered call orgId
      mapping, op.next E w'.tenants.store chance answered = .poolGetting call orgId mapping →
        ReturnedInTime w'.tenants.store op call mapping) ∧
    ∀ i op orgId, w'.tenants.inFlight[i]? = some op →
      op.poolReturned w'.tenants.store = some orgId →
        ((∀ chance u, watchedStep E w' (.advance i chance) = some u →
            GetKeepsRecent w' u orgId) ↔ RoomOrOldest E w'.tenants.store orgId) := by
  have houtline := outline_caches hboot (run_of_watched hrun)
  refine ⟨houtline.store, ?_, ?_⟩
  · intro hmulti op hop chance answered call orgId mapping hnext
    exact returnedInTime hmulti (houtline.each op hop) hnext
  · intro i op orgId hop hpool
    exact getKeepsRecent_iff houtline.store (poolsRecent_run hboot huses hrun) hop hpool

/-- Two organizations that are served, each with a connection of its own. -/
def twoServed : Watched where
  tenants :=
    { store :=
        { orgs := [7, 8]
          created := [7, 8]
          registry :=
            ⟨[(7, ⟨.active, some "postgres://a", "prefix", "t/7"⟩),
              (8, ⟨.active, some "postgres://b", "prefix", "t/8"⟩)], by decide⟩ } }

/-- A server that keeps one pool. -/
def onePool : TenancyEnv := { localTenants with poolCap := 1 }

/-- A call for the one, a time, and a call for the other up to the insertion of its pool. -/
def resolveBoth (wait : Micros) : List TenancyEvent :=
  .start (.resolving ⟨7, 0⟩) :: List.replicate 7 (.advance 0 {}) ++
    .commit (.tick wait) :: .start (.resolving ⟨8, wait⟩) :: List.replicate 6 (.advance 1 {})

/-- A second later, the pool of the first call is evicted. -/
theorem caches_bounded_and_fresh_later :
    ∃ w, Run (stepOf (watchedStep onePool)) twoServed (resolveBoth microsPerSecond) w ∧
      ∀ chance u, watchedStep onePool w (.advance 1 chance) = some u → GetKeepsRecent w u 8 := by
  have hsome : (runOf (watchedStep onePool) twoServed (resolveBoth microsPerSecond)).map
      (fun w => (w.tenants.inFlight[1]?, w.tenants.store.pools.rows, w.tenants.store.now)) =
      some (some (.pooling ⟨8, microsPerSecond⟩ 8 ⟨"postgres://b", "prefix", "t/8"⟩),
        [(7, ⟨"postgres://a", 0⟩)], microsPerSecond) := by decide
  obtain ⟨w, hw, hend⟩ := Option.map_eq_some_iff.mp hsome
  obtain ⟨hop, hpools, hnow⟩ : _ ∧ _ ∧ _ := by simpa only [Prod.mk.injEq] using hend
  have hrun := Run.of_runOf hw
  refine ⟨w, hrun, ?_⟩
  refine ((caches_bounded_and_fresh ⟨rfl, rfl, rfl, rfl⟩ rfl hrun).2.2 1 _ 8 hop rfl).mpr ?_
  refine Or.inr (Or.inr ⟨(7, ⟨"postgres://a", 0⟩), by rw [hpools]; decide, ?_, ?_⟩)
  · rw [hnow]
    decide
  · intro r hr hother
    rw [hpools, List.mem_singleton] at hr
    exact absurd hr hother

/-- At the same time, the hash map may put the new pool first, which is then evicted by the
get that returns it. -/
theorem fresh_pool_is_evicted :
    ¬∀ (E : TenancyEnv) (w w' u : Watched) (es : List TenancyEvent) (i : Nat) (op : TenancyOp)
      (orgId : Int64) (chance : TenancyChance), 0 < E.poolCap → Booted w.tenants → w.uses = [] →
      Run (stepOf (watchedStep E)) w es w' → w'.tenants.inFlight[i]? = some op →
      op.poolReturned w'.tenants.store = some orgId →
      watchedStep E w' (.advance i chance) = some u → GetKeepsRecent w' u orgId := by
  intro hall
  have hsome : ((runOf (watchedStep onePool) twoServed (resolveBoth 0)).any fun w =>
      w.tenants.inFlight[1]? = some (.pooling ⟨8, 0⟩ 8 ⟨"postgres://b", "prefix", "t/8"⟩) &&
        (watchedStep onePool w (.advance 1 { pick := 8 })).any fun u =>
          !u.tenants.store.pools.has 8) = true := by decide
  obtain ⟨w, hw, hend⟩ := (Option.any_eq_true _ _).mp hsome
  obtain ⟨hop, hgone⟩ := Bool.and_eq_true_iff.mp hend
  obtain ⟨u, hu, hgone⟩ := (Option.any_eq_true _ _).mp hgone
  have hkeeps := hall onePool twoServed w u _ 1 _ 8 { pick := 8 } (by decide)
    ⟨rfl, rfl, rfl, rfl⟩ rfl (Run.of_runOf hw) (of_decide_eq_true hop) rfl hu
  rw [hkeeps.returned_stays] at hgone
  cases hgone

end ReproitCloud
