import ReproitCloud.Lib.Processes
import ReproitCloud.Tenancy.Blobs

/-!
# Tenants and their databases

Every organization has a database of its own.  The registry `tenants` of the control plane
says where it is, under which scope the blobs lie, and whether the organization is served.
A `Provider` makes the databases: one for each organization in a PostgreSQL (`localDb`), a
project for each at Neon (`neon`), or the one database of a server that hosts itself
(`single`).

A server keeps two caches for the resolver.  The first has what the registry has said of an
organization, for as long as `mappingTtl`.  The second has the open pools of connections,
and both have a bound.
-/

namespace ReproitCloud

open Lib

/-! ## The registry -/

/-- `TenantStatus`. -/
inductive TenantStatus where
  | provisioning
  | active
  | suspended
  | migrating
deriving DecidableEq, Repr

def TenantStatus.asStr : TenantStatus → String
  | provisioning => "provisioning"
  | active => "active"
  | suspended => "suspended"
  | migrating => "migrating"

def TenantStatus.parse (s : String) : TenantStatus :=
  if s = "active" then .active
  else if s = "suspended" then .suspended
  else if s = "migrating" then .migrating
  else .provisioning

/-- A status is read as it was written. -/
@[simp] theorem TenantStatus.parse_asStr (status : TenantStatus) : parse status.asStr = status := by
  cases status <;> decide

/-- A row of `tenants`, keyed by the organization. -/
structure TenantRow where
  status : TenantStatus := .provisioning
  dbConn : Option String := none
  blobMode : String := "prefix"
  blobScope : String := ""
deriving DecidableEq, Repr

/-! ## Providers -/

/-- `rfind` of a slash. -/
def lastSlash (cs : List Char) : Option Nat :=
  (cs.reverse.idxOf? '/').map fun i => cs.length - 1 - i

/-- `find` of two slashes. -/
def doubleSlash : List Char → Option Nat
  | [] => none
  | c :: cs =>
    if c = '/' && cs.head? = some '/' then some 0 else (doubleSlash cs).map fun i => i + 1

/-- What stands before the database in an address. -/
def serverOf (base : List Char) : List Char :=
  match lastSlash base with
  | some i => if ((doubleSlash base).map fun j => j + 1).getD 0 < i then base.take i else base
  | none => base

/-- `swap_db`. -/
def swapDb (url db : String) : String :=
  let base := url.toList.takeWhile fun c => c != '?'
  let query := url.toList.dropWhile fun c => c != '?'
  String.ofList (serverOf base ++ '/' :: db.toList ++ query)

/-- `db_name` of the local provider. -/
def dbName (orgId : Int64) : String :=
  String.ofList ("reproit_tenant_".toList ++ int64Chars orgId)

/-- `project_name` of Neon's. -/
def projectName (orgId : Int64) : String :=
  String.ofList ("reproit-org-".toList ++ int64Chars orgId)

/-- `Provider`. -/
inductive Provider where
  | localDb (baseUrl : String)
  | single (conn : String)
  | neon

/-- `SELF_HOSTED_ORG_ID`. -/
def selfHostedOrgId : Int64 := 1

namespace Provider

/-- `derive_conn`, which for the local provider is `conn_for`. -/
def deriveConn : Provider → Int64 → Option String
  | localDb baseUrl, orgId => some (swapDb baseUrl (dbName orgId))
  | single conn, _ => some conn
  | neon, _ => none

/-- The name of an organization's database. -/
def databaseName : Provider → Int64 → String
  | localDb _, orgId => dbName orgId
  | single conn, _ => conn
  | neon, orgId => projectName orgId

/-- The connection that leads to a new database of the provider. -/
def connFor (P : Provider) (orgId : Int64) (answer : String) : String :=
  (P.deriveConn orgId).getD answer

/-- `single_tenant` of the resolver that is built with the provider. -/
def singleTenant : Provider → Option Int64
  | single _ => some selfHostedOrgId
  | _ => none

end Provider

theorem dbName_inj {a b : Int64} (h : dbName a = dbName b) : a = b :=
  int64Chars_inj (List.append_cancel_left (String.ofList_injective h))

theorem projectName_inj {a b : Int64} (h : projectName a = projectName b) : a = b :=
  int64Chars_inj (List.append_cancel_left (String.ofList_injective h))

/-- Two databases of one server have two addresses. -/
theorem swapDb_inj {url a b : String} (h : swapDb url a = swapDb url b) : a = b := by
  have hchars := List.append_cancel_right (String.ofList_injective h)
  exact String.toList_injective (List.cons.inj (List.append_cancel_left hchars)).2

/-- Where organizations have databases of their own, the names tell them apart. -/
theorem Provider.databaseName_inj {P : Provider} (hmulti : P.singleTenant = none) {a b : Int64}
    (h : P.databaseName a = P.databaseName b) : a = b := by
  cases P with
  | localDb baseUrl => exact dbName_inj h
  | single conn => cases hmulti
  | neon => exact projectName_inj h

/-- A connection that is derived for two organizations leads to one database. -/
theorem Provider.databaseName_of_deriveConn {P : Provider} {a b : Int64} {conn : String}
    (ha : P.deriveConn a = some conn) (hb : P.deriveConn b = some conn) :
    P.databaseName a = P.databaseName b := by
  cases P with
  | localDb baseUrl => exact swapDb_inj (Option.some.inj (ha.trans hb.symm))
  | single conn => rfl
  | neon => cases ha

/-- A database of a provider, keyed by the connection that leads to it. -/
structure TenantDb where
  name : String
  /-- The schema of a tenant has been applied. -/
  schema : Bool := false
deriving DecidableEq, Repr

/-! ## The caches of a server -/

/-- What the resolver takes from a row of the registry. -/
structure TenantMapping where
  conn : String
  blobMode : String
  blobScope : String
deriving DecidableEq, Repr

/-- `CachedMapping`. -/
structure CachedMapping where
  mapping : TenantMapping
  insertedAt : Micros
deriving DecidableEq, Repr

/-- `Entry` of the pools. -/
structure PoolEntry where
  conn : String
  lastUsed : Micros
deriving DecidableEq, Repr

/-- `MAPPING_TTL` and `MAPPING_CACHE_MAX`. -/
def mappingTtl : Micros := 120 * microsPerSecond

def mappingCacheMax : Nat := 8192

/-- `min_by_key`: an entry that no other one is older than.  Of several, the order of the
hash map decides, which is `pick`. -/
def oldest {ν : Type} (stamp : ν → Micros) (t : Table Int64 ν) (pick : Int64) : Option Int64 :=
  let first := t.rows.filter fun r => t.rows.all fun r' => stamp r.2 ≤ stamp r'.2
  if first.any fun r => r.1 = pick then some pick else first.head?.map Prod.fst

/-- A map without an entry that no other one is older than. -/
def dropOldest {ν : Type} (stamp : ν → Micros) (t : Table Int64 ν) (pick : Int64) : Table Int64 ν :=
  match oldest stamp t pick with
  | some k => t.delete fun k' _ => k' = k
  | none => t

/-- The loop of `evict_locked`. -/
def evictLocked (cap : Nat) (pick : Int64) : Nat → Table Int64 PoolEntry → Table Int64 PoolEntry
  | 0, pools => pools
  | n + 1, pools =>
    if cap < pools.rows.length then
      evictLocked cap pick n (dropOldest PoolEntry.lastUsed pools pick)
    else pools

/-! ## The store -/

/-- What a server is given. -/
structure TenancyEnv where
  provider : Provider
  blobs : Backend
  /-- `cap` and `idle_ttl` of the pools. -/
  poolCap : Nat := 256
  idleTtl : Micros := 300 * microsPerSecond

/-- A read of the registry by the resolver. -/
structure RegistryRead where
  orgId : Int64
  conn : String
  moment : Micros
deriving DecidableEq, Repr

/-- The control plane, the databases, the blobs, and the caches of one server. -/
structure TenancyStore where
  now : Micros := 0
  orgs : List Int64 := []
  registry : Table Int64 TenantRow := .empty
  databases : Table String TenantDb := .empty
  objects : Objects := .empty
  cache : Table Int64 CachedMapping := .empty
  pools : Table Int64 PoolEntry := .empty
  /-- No table: the ids that the sequence of `orgs` has given. -/
  created : List Int64 := []
  /-- No table: what the resolver has read. -/
  reads : List RegistryRead := []

namespace TenancyStore

variable (s : TenancyStore)

/-! ### Statements

Each gives the table after it, where it has an effect. -/

/-- `begin_provisioning`, its insertion.  A row that is there stays. -/
def beginProvisioning (orgId : Int64) : Option (Table Int64 TenantRow) :=
  if s.orgs.contains orgId then some (s.registry.upsert orgId {} id) else none

/-- An update of the row of an organization. -/
def updateTenant (orgId : Int64) (f : TenantRow → TenantRow) : Table Int64 TenantRow :=
  s.registry.update (fun k _ => k = orgId) fun _ => f

/-- `set_tenant_conn`. -/
def setTenantConn (orgId : Int64) (conn : String) : Table Int64 TenantRow :=
  s.updateTenant orgId fun row => { row with dbConn := some conn }

/-- `set_tenant_blob`. -/
def setTenantBlob (orgId : Int64) (mode scope : String) : Table Int64 TenantRow :=
  s.updateTenant orgId fun row => { row with blobMode := mode, blobScope := scope }

/-- `set_tenant_status`. -/
def setTenantStatus (orgId : Int64) (status : TenantStatus) : Table Int64 TenantRow :=
  s.updateTenant orgId fun row => { row with status := status }

/-- `all_tenants`. -/
def allTenants : List (Int64 × TenantRow) :=
  (s.registry.rows.filter fun r => r.2.dbConn.isSome).insertionSort fun r r' => r.1 ≤ r'.1

/-- `provisioning_tenants`. -/
def provisioningTenants : List Int64 :=
  (s.registry.rows.filter fun r => r.2.status = .provisioning).map Prod.fst

/-- `delete_org`: the row of the registry goes with the organization. -/
def deleteOrg (orgId : Int64) : TenancyStore :=
  { s with orgs := s.orgs.filter fun k => k ≠ orgId,
           registry := s.registry.delete fun k _ => k = orgId }

/-! ### Databases -/

/-- The database of a name, where there are several the one at `conn`. -/
def findDatabase (name conn : String) : Option String :=
  if (s.databases.get? conn).any fun d => d.name = name then some conn
  else (s.databases.rows.find? fun r => r.2.name = name).map Prod.fst

/-- A new database.  No connection leads to two. -/
def createDatabase (conn name : String) : Option (Table String TenantDb) :=
  s.databases.insert? conn { name := name }

/-- `schema::apply`. -/
def applySchema (conn : String) : Option (Table String TenantDb) :=
  if s.databases.has conn then
    some (s.databases.update (fun k _ => k = conn) fun _ d => { d with schema := true })
  else none

/-- A database is deleted by its name, at Neon one of those that have it. -/
def dropDatabases (name : String) (p : String → Bool) : Table String TenantDb :=
  s.databases.delete fun conn d => d.name = name && p conn

/-! ### Caches -/

/-- `elapsed() < MAPPING_TTL`. -/
def isFresh (m : CachedMapping) : Bool := s.now - m.insertedAt < mappingTtl

/-- The entry that `mapping_for` finds. -/
def cachedMapping (orgId : Int64) : Option TenantMapping :=
  ((s.cache.get? orgId).filter s.isFresh).map CachedMapping.mapping

/-- The cache with room for an organization. -/
def roomFor (orgId pick : Int64) : Table Int64 CachedMapping :=
  if mappingCacheMax ≤ s.cache.rows.length && !s.cache.has orgId then
    let kept := s.cache.delete fun _ m => !s.isFresh m
    if mappingCacheMax ≤ kept.rows.length then dropOldest CachedMapping.insertedAt kept pick
    else kept
  else s.cache

/-- The insertion of `mapping_for`. -/
def cacheMapping (orgId : Int64) (m : CachedMapping) (pick : Int64) : Table Int64 CachedMapping :=
  (s.roomFor orgId pick).upsert orgId m fun _ => m

/-- A pool is used. -/
def bumpPool (orgId : Int64) : Table Int64 PoolEntry :=
  s.pools.update (fun k _ => k = orgId) fun _ e => { e with lastUsed := s.now }

/-- A new pool, with the eviction after it. -/
def insertPool (cap : Nat) (orgId : Int64) (conn : String) (pick : Int64) :
    Table Int64 PoolEntry :=
  let pools := s.pools.upsert orgId ⟨conn, s.now⟩ fun _ => ⟨conn, s.now⟩
  evictLocked cap pick pools.rows.length pools

/-- The first half of `Resolver::invalidate`. -/
def forgetMapping (orgId : Int64) : Table Int64 CachedMapping := s.cache.delete fun k _ => k = orgId

/-- `TenantPools::invalidate`. -/
def forgetPool (orgId : Int64) : Table Int64 PoolEntry := s.pools.delete fun k _ => k = orgId

/-- `sweep_idle`. -/
def sweepIdle (idleTtl : Micros) : Table Int64 PoolEntry :=
  s.pools.delete fun _ e => idleTtl < s.now - e.lastUsed

/-! ### What the tables have after it -/

variable {s}

@[simp] theorem get?_updateTenant (s : TenancyStore) (orgId : Int64) (f : TenantRow → TenantRow)
    (k : Int64) : (s.updateTenant orgId f).get? k =
      if k = orgId then (s.registry.get? k).map f else s.registry.get? k := by
  rw [updateTenant, Table.get?_update]
  by_cases hk : k = orgId <;> simp [hk]

@[simp] theorem has_updateTenant (s : TenancyStore) (orgId : Int64) (f : TenantRow → TenantRow)
    (k : Int64) : (s.updateTenant orgId f).has k = s.registry.has k := by
  rw [Table.has, Table.has, get?_updateTenant]
  split
  · rw [Option.isSome_map]
  · rfl

theorem get?_beginProvisioning {orgId : Int64} {registry : Table Int64 TenantRow}
    (h : s.beginProvisioning orgId = some registry) (k : Int64) :
    s.orgs.contains orgId = true ∧ registry.get? k =
      if k = orgId then some ((s.registry.get? k).getD {}) else s.registry.get? k := by
  obtain ⟨horg, heq⟩ := Option.ite_none_right_eq_some.1 h
  cases heq
  refine ⟨horg, ?_⟩
  rw [Table.get?_upsert]
  by_cases hk : k = orgId
  · subst hk
    cases s.registry.get? k <;> simp
  · simp [hk]

/-- A database that is found has the name. -/
theorem findDatabase_eq_some {name answer conn : String}
    (h : s.findDatabase name answer = some conn) :
    ∃ d, s.databases.get? conn = some d ∧ d.name = name := by
  rw [findDatabase] at h
  split at h
  · rename_i hany
    cases h
    obtain ⟨d, hd, hname⟩ := (Option.any_eq_true _ _).1 hany
    exact ⟨d, hd, of_decide_eq_true hname⟩
  · obtain ⟨r, hr, rfl⟩ := Option.map_eq_some_iff.1 h
    have hname := List.find?_some hr
    exact ⟨r.2, Table.get?_eq_some_iff.2 (List.mem_of_find?_eq_some hr), of_decide_eq_true hname⟩

/-- None is found only where none has the name. -/
theorem findDatabase_eq_none {name answer : String} (h : s.findDatabase name answer = none)
    {conn : String} {d : TenantDb} (hd : s.databases.get? conn = some d) : d.name ≠ name := by
  rw [findDatabase] at h
  split at h
  · cases h
  · have hnone := List.find?_eq_none.1 (Option.map_eq_none_iff.1 h) _ (Table.get?_eq_some_iff.1 hd)
    exact fun hname => hnone (decide_eq_true hname)

theorem get?_createDatabase {conn name : String} {databases : Table String TenantDb}
    (h : s.createDatabase conn name = some databases) (k : String) :
    databases.get? k = if k = conn then some { name := name } else s.databases.get? k :=
  Table.get?_insert? h k

theorem get?_applySchema {conn : String} {databases : Table String TenantDb}
    (h : s.applySchema conn = some databases) (k : String) :
    databases.get? k =
      if k = conn then (s.databases.get? k).map fun d => { d with schema := true }
      else s.databases.get? k := by
  obtain ⟨-, heq⟩ := Option.ite_none_right_eq_some.1 h
  cases heq
  rw [Table.get?_update]
  by_cases hk : k = conn <;> simp [hk]

/-- A cache that drops an entry has the others. -/
theorem get?_of_dropOldest {ν : Type} {stamp : ν → Micros} {t : Table Int64 ν} {pick k : Int64}
    {v : ν} (h : (dropOldest stamp t pick).get? k = some v) : t.get? k = some v := by
  rw [dropOldest] at h
  split at h
  · exact (Table.get?_of_delete h).1
  · exact h

theorem get?_of_evictLocked {cap : Nat} {pick k : Int64} {e : PoolEntry} {n : Nat}
    {pools : Table Int64 PoolEntry} (h : (evictLocked cap pick n pools).get? k = some e) :
    pools.get? k = some e := by
  induction n generalizing pools with
  | zero => exact h
  | succ n ih =>
    rw [evictLocked] at h
    split at h
    · exact get?_of_dropOldest (ih h)
    · exact h

theorem get?_of_roomFor {orgId pick k : Int64} {m : CachedMapping}
    (h : (s.roomFor orgId pick).get? k = some m) : s.cache.get? k = some m := by
  rw [roomFor] at h
  split at h
  · dsimp only at h
    split at h
    · exact (Table.get?_of_delete (get?_of_dropOldest h)).1
    · exact (Table.get?_of_delete h).1
  · exact h

/-- An entry of the cache is the one that was inserted, or was there. -/
theorem get?_of_cacheMapping {orgId pick k : Int64} {m m' : CachedMapping}
    (h : (s.cacheMapping orgId m pick).get? k = some m') :
    k = orgId ∧ m' = m ∨ s.cache.get? k = some m' := by
  rw [cacheMapping, Table.get?_upsert] at h
  by_cases hk : k = orgId
  · left
    rw [if_pos hk] at h
    refine ⟨hk, ?_⟩
    cases hroom : (s.roomFor orgId pick).get? k <;> simp_all
  · right
    rw [if_neg hk] at h
    exact get?_of_roomFor h

/-- A mapping that is found is not older than `mappingTtl`. -/
theorem cachedMapping_eq_some {orgId : Int64} {mapping : TenantMapping}
    (h : s.cachedMapping orgId = some mapping) :
    ∃ m, s.cache.get? orgId = some m ∧ m.mapping = mapping ∧ s.now < m.insertedAt + mappingTtl := by
  obtain ⟨m, hm, heq⟩ := Option.map_eq_some_iff.1 h
  obtain ⟨hget, hfresh⟩ := Option.filter_eq_some_iff.1 hm
  refine ⟨m, hget, heq, ?_⟩
  exact Int.lt_add_of_sub_left_lt (of_decide_eq_true hfresh)

end TenancyStore

/-- `conn_of`: the stored connection, or the one that the provider derives. -/
def connOf (P : Provider) (orgId : Int64) (row : TenantRow) : Option String :=
  row.dbConn.orElse fun _ => P.deriveConn orgId

/-- What the resolver takes from a row that is served. -/
def mappingOf (P : Provider) (orgId : Int64) (row : TenantRow) : Option TenantMapping :=
  (connOf P orgId row).map fun conn => ⟨conn, row.blobMode, row.blobScope⟩

end ReproitCloud
