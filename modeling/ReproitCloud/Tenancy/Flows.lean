import ReproitCloud.Tenancy.Store

/-!
# Resolving, provisioning and offboarding

`TenancyOp` says where a call is.  The resolver looks into its cache, reads the registry,
caches what it has read, and takes a pool for the connection.  Provisioning goes from the
row of the registry over the database and its schema to the status `active`.  The reconciler
does the same for every row that is still `provisioning`.  Suspending and resuming an
organization sets its status.

There are two ways to offboard an organization.  The owner deletes it over HTTP, with the
blobs first, or an operator does, with the database first.  The operator's process has caches
of its own, and a crash can stop any of these calls between two steps.
-/

namespace ReproitCloud

open Lib

/-! ## Calls -/

/-- What a resolver hands out: `Tenant`. -/
structure Tenant where
  orgId : Int64
  conn : String
  blobScope : String
deriving DecidableEq, Repr

/-- `ResolveError`. -/
inductive Resolver.ResolveError where
  | notProvisioned
  | notActive (status : TenantStatus)
  | internal
deriving DecidableEq, Repr

/-- A call of the resolver: the organization, and when the call came. -/
structure Resolve where
  orgId : Int64
  since : Micros
deriving DecidableEq, Repr

/-- Whom `Provisioner::provision` works for. -/
inductive ProvisionFlow where
  /-- `Tenancy::provision`. -/
  | request
  /-- `reconcile`, with the organizations still to come. -/
  | reconcile (rest : List Int64)
deriving DecidableEq, Repr

/-- Whom `Provisioner::deprovision` works for. -/
inductive TeardownFlow where
  /-- `offboard_data`, called by the route `delete_org`. -/
  | route
  /-- `run_offboard`, with the scope of the blobs. -/
  | operator (scope : String)
deriving DecidableEq, Repr

/-- Who drops what the caches have of an organization. -/
inductive ForgetFlow where
  | provisioned
  | offboarded
deriving DecidableEq, Repr

/-- Where a call is. -/
inductive TenancyOp where
  /-- `resolve`: the lookup in the cache of mappings. -/
  | resolving (call : Resolve)
  /-- `tenant`, with the moment at which the registry was read, and `Instant::now`. -/
  | registryReading (call : Resolve)
  | stamping (call : Resolve) (mapping : TenantMapping) (readAt : Micros)
  | caching (call : Resolve) (cached : CachedMapping)
  /-- `TenantPools::get`: the fast path, the connection, and the insertion. -/
  | poolGetting (call : Resolve) (orgId : Int64) (mapping : TenantMapping)
  | connecting (call : Resolve) (orgId : Int64) (mapping : TenantMapping)
  | pooling (call : Resolve) (orgId : Int64) (mapping : TenantMapping)
  | served (call : Resolve) (tenant : Tenant)
  | refused (call : Resolve) (error : Resolver.ResolveError)
  /-- `provisioning_tenants`. -/
  | pendingListing
  /-- `begin_provisioning`: the insertion, and the read of the row. -/
  | intending (flow : ProvisionFlow) (orgId : Int64)
  | intentReading (flow : ProvisionFlow) (orgId : Int64)
  /-- The provider: is there a database, a new one, and whether another call has made it. -/
  | dbFinding (flow : ProvisionFlow) (orgId : Int64)
  | dbCreating (flow : ProvisionFlow) (orgId : Int64)
  | dbRechecking (flow : ProvisionFlow) (orgId : Int64)
  /-- `set_tenant_conn`, `schema::apply`, `set_tenant_blob` and `set_tenant_status`. -/
  | connStoring (flow : ProvisionFlow) (orgId : Int64) (conn : String)
  | schemaApplying (flow : ProvisionFlow) (orgId : Int64) (conn : String)
  | blobRecording (flow : ProvisionFlow) (orgId : Int64)
  | activating (flow : ProvisionFlow) (orgId : Int64)
  /-- `run_set_tenant_status`. -/
  | statusReading (orgId : Int64) (status : TenantStatus)
  | statusWriting (orgId : Int64) (status : TenantStatus)
  /-- `tenant` of `offboard_data`, and `all_tenants` of `run_offboard`. -/
  | scopeReading (orgId : Int64)
  | scopeListing (orgId : Int64)
  | scopeDeleting (flow : TeardownFlow) (orgId : Int64) (scope : String)
  /-- The local provider: its connection, `pg_terminate_backend` and `DROP DATABASE`. -/
  | adminConnecting (flow : TeardownFlow) (orgId : Int64)
  | terminating (flow : TeardownFlow) (orgId : Int64)
  | dropping (flow : TeardownFlow) (orgId : Int64)
  /-- Neon's: `find_project`, and the deletion of the project. -/
  | projectFinding (flow : TeardownFlow) (orgId : Int64)
  | projectDeleting (flow : TeardownFlow) (orgId : Int64) (conn : String)
  /-- `Resolver::invalidate`. -/
  | mappingForgetting (flow : ForgetFlow) (orgId : Int64)
  | poolForgetting (flow : ForgetFlow) (orgId : Int64)
  /-- `delete_org`. -/
  | orgDeleting (orgId : Int64)
  | finished (ok : Bool)
deriving DecidableEq, Repr

/-- What the environment decides of a step. -/
structure TenancyChance where
  result : CallResult := .answered
  /-- The connection of a new project, and of the one found where several have the name. -/
  conn : String := ""
  /-- Of several entries of a cache, the one that is evicted. -/
  pick : Int64 := 0
  blob : BlobChance := {}

namespace TenancyOp

/-- Whether a step is a call that can fail.  The caches are in the memory of the process, and
a deletion of blobs says by itself what it has done. -/
def remote : TenancyOp → Bool
  | resolving _ | stamping .. | caching .. | poolGetting .. | pooling .. | scopeDeleting ..
  | mappingForgetting .. | poolForgetting .. => false
  | _ => true

end TenancyOp

/-! ## The branches -/

/-- Where a provisioning call goes that is over. -/
def afterProvisioning (flow : ProvisionFlow) (orgId : Int64) (ok : Bool) : TenancyOp :=
  match flow, ok with
  | .request, true => .mappingForgetting .provisioned orgId
  | .request, false => .finished false
  | .reconcile [], _ => .finished true
  | .reconcile (next :: rest), _ => .intending (.reconcile rest) next

/-- `DROP DATABASE` of the local provider, a project deleted at Neon. -/
def afterDeprovision (flow : TeardownFlow) (orgId : Int64) : TenancyOp :=
  match flow with
  | .route => .mappingForgetting .offboarded orgId
  | .operator scope => .scopeDeleting flow orgId scope

/-- `deprovision`. -/
def Provider.deprovision (P : Provider) (flow : TeardownFlow) (orgId : Int64) : TenancyOp :=
  match P with
  | .localDb _ => .adminConnecting flow orgId
  | .neon => .projectFinding flow orgId
  | .single _ => afterDeprovision flow orgId

/-- The database that the provider has for an organization. -/
def TenancyStore.findTenantDb (s : TenancyStore) (P : Provider) (orgId : Int64) (answer : String) :
    Option String :=
  match P with
  | .single conn => some conn
  | _ => s.findDatabase (P.databaseName orgId) answer

/-- Where the resolver goes with a row of the registry. -/
def afterRegistry (P : Provider) (call : Resolve) (now : Micros) (row : Option TenantRow) :
    TenancyOp :=
  match row with
  | none => .refused call .notProvisioned
  | some row =>
    if row.status = .active then
      match mappingOf P call.orgId row with
      | some mapping => .stamping call mapping now
      | none => .refused call .notProvisioned
    else .refused call (.notActive row.status)

/-- The read that a call has made, if there is a mapping in it. -/
def registryRead (P : Provider) (s : TenancyStore) (call : Resolve) : Option RegistryRead :=
  match afterRegistry P call s.now (s.registry.get? call.orgId) with
  | .stamping _ mapping _ => some ⟨call.orgId, mapping.conn, s.now⟩
  | _ => none

/-- The scope that `run_offboard` clears. -/
def scopeToClear (s : TenancyStore) (orgId : Int64) : String :=
  ((s.allTenants.find? fun r => r.1 = orgId).map fun r => r.2.blobScope).getD (blobScope orgId)

/-! ## The steps -/

namespace TenancyOp

variable (E : TenancyEnv) (s : TenancyStore) (chance : TenancyChance)

/-- What a step does when it takes effect. -/
def effect : TenancyOp → TenancyStore
  | registryReading call => { s with reads := s.reads ++ (registryRead E.provider s call).toList }
  | caching call cached => { s with cache := s.cacheMapping call.orgId cached chance.pick }
  | poolGetting _ orgId _ => { s with pools := s.bumpPool orgId }
  | pooling _ orgId mapping =>
    { s with pools :=
        if s.pools.has orgId then s.bumpPool orgId
        else s.insertPool E.poolCap orgId mapping.conn chance.pick }
  | intending _ orgId => { s with registry := (s.beginProvisioning orgId).getD s.registry }
  | dbCreating _ orgId =>
    { s with databases := (s.createDatabase (E.provider.connFor orgId chance.conn)
        (E.provider.databaseName orgId)).getD s.databases }
  | connStoring _ orgId conn => { s with registry := s.setTenantConn orgId conn }
  | schemaApplying _ _ conn => { s with databases := (s.applySchema conn).getD s.databases }
  | blobRecording _ orgId => { s with registry := s.setTenantBlob orgId "prefix" (blobScope orgId) }
  | activating _ orgId => { s with registry := s.setTenantStatus orgId .active }
  | statusWriting orgId status => { s with registry := s.setTenantStatus orgId status }
  | scopeDeleting _ _ scope =>
    { s with objects := (E.blobs.deleteScope s.objects scope chance.blob).1 }
  | dropping _ orgId =>
    { s with databases := s.dropDatabases (E.provider.databaseName orgId) fun _ => true }
  | projectDeleting _ orgId conn =>
    { s with databases := s.dropDatabases (E.provider.databaseName orgId) fun k => k = conn }
  | mappingForgetting _ orgId => { s with cache := s.forgetMapping orgId }
  | poolForgetting _ orgId => { s with pools := s.forgetPool orgId }
  | orgDeleting orgId => s.deleteOrg orgId
  | _ => s

/-- Where a call goes from a step that was answered, or not. -/
def next (answered : Bool) : TenancyOp → TenancyOp
  | resolving call =>
    match E.provider.singleTenant with
    | some fixed =>
      match E.provider.deriveConn fixed with
      | some conn => .poolGetting call fixed ⟨conn, "prefix", ""⟩
      | none => .refused call .notProvisioned
    | none =>
      match s.cachedMapping call.orgId with
      | some mapping => .poolGetting call call.orgId mapping
      | none => .registryReading call
  | registryReading call =>
    if answered then afterRegistry E.provider call s.now (s.registry.get? call.orgId)
    else .refused call .internal
  | stamping call mapping _ => .caching call ⟨mapping, s.now⟩
  | caching call cached => .poolGetting call call.orgId cached.mapping
  | poolGetting call orgId mapping =>
    match s.pools.get? orgId with
    | some entry => .served call ⟨orgId, entry.conn, mapping.blobScope⟩
    | none => .connecting call orgId mapping
  | connecting call orgId mapping =>
    if answered then .pooling call orgId mapping else .refused call .internal
  | pooling call orgId mapping =>
    .served call ⟨orgId, ((s.pools.get? orgId).map PoolEntry.conn).getD mapping.conn,
      mapping.blobScope⟩
  | pendingListing =>
    if answered then
      match s.provisioningTenants with
      | [] => .finished true
      | orgId :: rest => .intending (.reconcile rest) orgId
    else .finished false
  | intending flow orgId =>
    if answered && (s.beginProvisioning orgId).isSome then .intentReading flow orgId
    else afterProvisioning flow orgId false
  | intentReading flow orgId =>
    if answered && s.registry.has orgId then .dbFinding flow orgId
    else afterProvisioning flow orgId false
  | dbFinding flow orgId =>
    if answered then
      match s.findTenantDb E.provider orgId chance.conn with
      | some conn => .connStoring flow orgId conn
      | none => .dbCreating flow orgId
    else afterProvisioning flow orgId false
  | dbCreating flow orgId =>
    if answered && (s.createDatabase (E.provider.connFor orgId chance.conn)
        (E.provider.databaseName orgId)).isSome then
      .connStoring flow orgId (E.provider.connFor orgId chance.conn)
    else
      match E.provider with
      | .localDb _ => .dbRechecking flow orgId
      | _ => afterProvisioning flow orgId false
  | dbRechecking flow orgId =>
    match if answered then s.findTenantDb E.provider orgId chance.conn else none with
    | some conn => .connStoring flow orgId conn
    | none => afterProvisioning flow orgId false
  | connStoring flow orgId conn =>
    if answered then .schemaApplying flow orgId conn else afterProvisioning flow orgId false
  | schemaApplying flow orgId conn =>
    if answered && (s.applySchema conn).isSome then .blobRecording flow orgId
    else afterProvisioning flow orgId false
  | blobRecording flow orgId =>
    if answered then .activating flow orgId else afterProvisioning flow orgId false
  | activating flow orgId => afterProvisioning flow orgId answered
  | statusReading orgId status =>
    match if answered then s.registry.get? orgId else none with
    | none => .finished false
    | some row => if row.status = status then .finished true else .statusWriting orgId status
  | statusWriting _ _ => .finished answered
  | scopeReading orgId =>
    if answered then
      match s.registry.get? orgId with
      | some row => .scopeDeleting .route orgId row.blobScope
      | none => E.provider.deprovision .route orgId
    else .finished false
  | scopeListing orgId =>
    if answered then E.provider.deprovision (.operator (scopeToClear s orgId)) orgId
    else .finished false
  | scopeDeleting flow orgId scope =>
    match flow with
    | .route =>
      if (E.blobs.deleteScope s.objects scope chance.blob).2 then E.provider.deprovision .route orgId
      else .finished false
    | .operator _ => .orgDeleting orgId
  | adminConnecting flow orgId => if answered then .terminating flow orgId else .finished false
  | terminating flow orgId => .dropping flow orgId
  | dropping flow orgId => afterDeprovision flow orgId
  | projectFinding flow orgId =>
    if answered then
      match s.findDatabase (E.provider.databaseName orgId) chance.conn with
      | some conn => .projectDeleting flow orgId conn
      | none => afterDeprovision flow orgId
    else .finished false
  | projectDeleting flow orgId _ =>
    if answered then afterDeprovision flow orgId else .finished false
  | mappingForgetting flow orgId => .poolForgetting flow orgId
  | poolForgetting flow orgId =>
    match flow with
    | .provisioned => .finished true
    | .offboarded => .orgDeleting orgId
  | orgDeleting orgId => .finished (answered && s.orgs.contains orgId)
  | served call tenant => .served call tenant
  | refused call error => .refused call error
  | finished ok => .finished ok

/-- A call that is over. -/
def isOver : TenancyOp → Bool
  | served .. | refused .. | finished _ => true
  | _ => false

/-- The call of the resolver that a step belongs to. -/
def resolve? : TenancyOp → Option Resolve
  | resolving call | registryReading call | stamping call .. | caching call _ | poolGetting call ..
  | connecting call .. | pooling call .. | served call _ | refused call _ => some call
  | _ => none

/-- Whether a step takes effect, and whether it is answered. -/
def takes (op : TenancyOp) : Bool := !op.remote || chance.result ≠ .failed

def hears (op : TenancyOp) : Bool := !op.remote || chance.result = .answered

end TenancyOp

/-! ## The processes -/

/-- The next step of a call. -/
def tenancyNext (E : TenancyEnv) (s : TenancyStore) (chance : TenancyChance) (op : TenancyOp) :
    Option (TenancyStore × Option TenancyOp) :=
  if op.isOver then none
  else
    some (if op.takes chance then op.effect E s chance else s,
      some (op.next E s chance (op.hears chance)))

/-- A step whose call succeeds.  The provider can make the database, and the backend deletes
what it is asked to. -/
def TenancyOp.Succeeds (E : TenancyEnv) (s : TenancyStore) (op : TenancyOp)
    (chance : TenancyChance) : Prop :=
  chance.result = .answered ∧
    match op with
    | dbCreating _ orgId =>
      (s.createDatabase (E.provider.connFor orgId chance.conn)
        (E.provider.databaseName orgId)).isSome = true
    | scopeDeleting _ _ scope =>
      (E.blobs.deletePrefix s.objects (String.ofList (trimMatches '/' scope.toList))
        chance.blob).2 = true
    | _ => True

/-- The calls on their arrival.  A server that hosts itself offboards nobody. -/
def TenancyOp.starts (E : TenancyEnv) (s : TenancyStore) : TenancyOp → Bool
  | resolving call => call.since = s.now
  | pendingListing | intending .request _ => true
  | statusReading _ status => status = .suspended || status = .active
  | scopeReading _ | scopeListing _ => E.provider.singleTenant = none
  | _ => false

/-- What others do. -/
inductive TenancyWrite where
  | tick (now : Micros)
  | createOrg (orgId : Int64)
  /-- Another connection for an organization. -/
  | rotate (orgId : Int64) (conn : String)
  | forgetMapping (orgId : Int64)
  | forgetPool (orgId : Int64)
  | sweepIdle
  | putBlob (orgId : Int64) (key : String) (bytes : Bytes) (chance : BlobChance)
deriving Inhabited

/-- A write of others.  The sequence of `orgs` gives an id once. -/
def tenancyWrite (E : TenancyEnv) (s : TenancyStore) : TenancyWrite → Option TenancyStore
  | .tick now => if s.now ≤ now then some { s with now := now } else none
  | .createOrg orgId =>
    if s.created.contains orgId then none
    else some { s with orgs := s.orgs ++ [orgId], created := s.created ++ [orgId] }
  | .rotate orgId conn => some { s with registry := s.setTenantConn orgId conn }
  | .forgetMapping orgId => some { s with cache := s.forgetMapping orgId }
  | .forgetPool orgId => some { s with pools := s.forgetPool orgId }
  | .sweepIdle => some { s with pools := s.sweepIdle E.idleTtl }
  | .putBlob orgId key bytes chance =>
    some { s with objects := ((E.blobs.forTenant (blobScope orgId)).put s.objects key bytes chance).1 }

/-- The tenants of a server. -/
def tenancy (E : TenancyEnv) : Program TenancyStore TenancyOp TenancyChance TenancyWrite where
  starts := TenancyOp.starts E
  next s _ := tenancyNext E s
  write s _ := tenancyWrite E s

/-- A server with its tenants on one PostgreSQL. -/
def localTenants : TenancyEnv where
  provider := .localDb "postgres://db/reproit"
  blobs := .localFs

abbrev Tenants := Pool TenancyStore TenancyOp

abbrev TenancyEvent := PoolEvent TenancyOp TenancyChance TenancyWrite

/-- The next step of a call, taken apart. -/
theorem tenancyNext_eq_some {E : TenancyEnv} {s s' : TenancyStore} {chance : TenancyChance}
    {op : TenancyOp} {next : Option TenancyOp} (h : tenancyNext E s chance op = some (s', next)) :
    op.isOver = false ∧ s' = (if op.takes chance then op.effect E s chance else s) ∧
      next = some (op.next E s chance (op.hears chance)) := by
  rw [tenancyNext, Option.ite_none_left_eq_some] at h
  obtain ⟨hisOver, heq⟩ := h
  cases heq
  exact ⟨Bool.eq_false_iff.2 hisOver, rfl, rfl⟩

/-- What is answered has taken effect. -/
theorem TenancyOp.takes_of_hears {op : TenancyOp} {chance : TenancyChance}
    (h : op.hears chance = true) : op.takes chance = true := by
  rw [hears, Bool.or_eq_true, decide_eq_true_eq] at h
  rw [takes, Bool.or_eq_true, decide_eq_true_eq]
  exact h.imp_right fun hanswered => by rw [hanswered]; decide

/-- A step that succeeds takes effect and is answered. -/
theorem tenancyNext_of_succeeds {E : TenancyEnv} {s : TenancyStore} {chance : TenancyChance}
    {op : TenancyOp} (h : op.Succeeds E s chance) (hover : op.isOver = false) :
    tenancyNext E s chance op = some (op.effect E s chance, some (op.next E s chance true)) := by
  have hhears : op.hears chance = true := by
    rw [TenancyOp.hears, h.1, decide_eq_true rfl, Bool.or_true]
  rw [tenancyNext, hover, if_neg Bool.false_ne_true, if_pos (TenancyOp.takes_of_hears hhears), hhears]

/-! ## What a step leads to -/

section Next

variable (E : TenancyEnv) (s : TenancyStore) (chance : TenancyChance)

@[simp] theorem resolve?_afterProvisioning (flow : ProvisionFlow) (orgId : Int64) (ok : Bool) :
    (afterProvisioning flow orgId ok).resolve? = none := by
  cases flow with
  | request => cases ok <;> rfl
  | reconcile rest => cases rest <;> rfl

@[simp] theorem resolve?_afterDeprovision (flow : TeardownFlow) (orgId : Int64) :
    (afterDeprovision flow orgId).resolve? = none := by
  cases flow <;> rfl

@[simp] theorem resolve?_deprovision (P : Provider) (flow : TeardownFlow) (orgId : Int64) :
    (P.deprovision flow orgId).resolve? = none := by
  cases P with
  | single conn => exact resolve?_afterDeprovision flow orgId
  | localDb | neon => rfl

/-- A row of the registry is refused, or there is a mapping in it. -/
theorem afterRegistry_cases (P : Provider) (call : Resolve) (now : Micros)
    (row : Option TenantRow) :
    (∃ error, afterRegistry P call now row = .refused call error) ∨
      ∃ row' mapping, row = some row' ∧ row'.status = .active ∧
        mappingOf P call.orgId row' = some mapping ∧
        afterRegistry P call now row = .stamping call mapping now := by
  cases row with
  | none => exact .inl ⟨_, rfl⟩
  | some row =>
    simp only [afterRegistry]
    by_cases hactive : row.status = .active
    · rw [if_pos hactive]
      cases hmapping : mappingOf P call.orgId row with
      | none => exact .inl ⟨_, rfl⟩
      | some mapping => exact .inr ⟨row, mapping, rfl, hactive, hmapping, rfl⟩
    · rw [if_neg hactive]
      exact .inl ⟨_, rfl⟩

@[simp] theorem resolve?_afterRegistry (P : Provider) (call : Resolve) (now : Micros)
    (row : Option TenantRow) : (afterRegistry P call now row).resolve? = some call := by
  rcases afterRegistry_cases P call now row with ⟨error, h⟩ | ⟨row', mapping, -, -, -, h⟩
  · rw [h]
    rfl
  · rw [h]
    rfl

/-- A call of the resolver stays one, and no other call becomes one. -/
theorem resolve?_next (answered : Bool) (op : TenancyOp) :
    (op.next E s chance answered).resolve? = op.resolve? := by
  cases op <;> simp only [TenancyOp.next] <;> repeat' split
  all_goals
    first
    | rfl
    | simp only [resolve?_afterProvisioning, resolve?_afterDeprovision, resolve?_deprovision,
        resolve?_afterRegistry]
      rfl

end Next

/-- What both outcomes of a step keep, the step keeps. -/
theorem tenancyNext_keeps {E : TenancyEnv} {s s' : TenancyStore} {chance : TenancyChance}
    {op : TenancyOp} {next : Option TenancyOp} (h : tenancyNext E s chance op = some (s', next))
    (P : TenancyStore → Prop) (hs : P s) (heffect : op.takes chance = true → P (op.effect E s chance)) :
    P s' := by
  rw [(tenancyNext_eq_some h).2.1]
  split
  · exact heffect ‹_›
  · exact hs

end ReproitCloud
