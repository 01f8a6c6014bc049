import ReproitCloud.Lib.Runs
import ReproitCloud.Jobs.Queue
import ReproitCloud.Jobs.Scheduler
import ReproitCloud.Jobs.Token

/-!
# The worker fleet over all tenants

Every tenant has its own queue, and the control plane has a routing hint,
`tenant_pending_shards`, of the tenants with something pending.  A claim call
visits the tenants of the hint, gathers the candidate jobs with each tenant's
load, ranks them and tries to claim one by one.  A submission inserts its job and
then marks its tenant in the hint; the periodic sweep requeues stranded shards and
marks the tenant again.

None of these is one transaction.  An `Operation` is a call that is under way, with
what it has read so far and the database call that comes next, and `stepOperation`
does that one call.  A `Fleet` is the databases with all operations under way, and
an event of `stepFleet` starts an operation, lets one take its next step, abandons
one (the process died), or delivers a message of a worker.

A `Chance` is what the environment decides of a step: the time, whether the
database call fails, and which shard rows other transactions have locked.

The log `issued` is not in any database.  It has every claim that was granted, with
its number (the value `attempts` got), so that a message can be said to be sent
*for* a claim.  Messages can be delivered at any time after it, in any order and
more than once.
-/

namespace ReproitCloud

open Lib

/-! ## Operations -/

/-- A claim call: the sanitized worker id and the backends the worker serves. -/
structure Poll where
  worker : String
  capabilities : List String
deriving DecidableEq, Repr

/-- `ClaimTarget`: the tenant and the job of a candidate. -/
structure ClaimTarget where
  orgId : Int64
  jobId : String
deriving DecidableEq, Repr

/-- What `gather_candidates` has collected. -/
structure Gathered where
  cands : List (Candidate × ClaimTarget) := []
  /-- `running_total`, for each tier. -/
  runningElastic : UInt32 := 0
  runningMac : UInt32 := 0
  tenantsActive : UInt32 := 0
deriving DecidableEq, Repr

/-- A call under way, named for the database call that comes next. -/
inductive Operation where
  /-- `submit_job` has inserted its job; the mark is next. -/
  | submitted (org : Int64)
  /-- The sweep is at the head of its loop; the requeue of the next tenant is next. -/
  | sweeping (todo : List Int64)
  /-- The sweep has requeued shards of a tenant; the mark is next. -/
  | remarking (org : Int64) (todo : List Int64)
  /-- `gather_candidates` is at the head of its loop; `pending_jobs` is next. -/
  | gathering (poll : Poll) (todo : List Int64) (seen : Gathered)
  /-- The tenant had no job for the worker; `pending_shard_count` is next. -/
  | counting (poll : Poll) (org : Int64) (todo : List Int64) (seen : Gathered)
  /-- The count was zero; `clear_tenant_pending` is next. -/
  | clearing (poll : Poll) (org : Int64) (todo : List Int64) (seen : Gathered)
  /-- The tenant has jobs; `running_by_backend` is next. -/
  | loading (poll : Poll) (org : Int64) (jobs : List PendingJob) (todo : List Int64)
      (seen : Gathered)
  /-- The candidates are ranked; `claim_shard` for the first is next. -/
  | claiming (poll : Poll) (order : List (Candidate × ClaimTarget))
  /-- A result was recorded; `job_incomplete` is next. -/
  | reported (org : Int64) (job : String)
  /-- The job was complete; `finalize_job` is next. -/
  | finishing (org : Int64) (job : String)
deriving DecidableEq, Repr

/-- A granted claim, with its number. -/
structure Issued where
  org : Int64
  shard : ClaimedShard
  attempt : Nat
deriving DecidableEq, Repr

/-- The token that addresses the claimed shard. -/
def Issued.token (e : Issued) : String :=
  shardId e.org e.shard.jobId e.shard.seed e.shard.claimedBy

/-- The databases, the operations under way and the claims granted so far. -/
structure Fleet where
  /-- `tenant_pending_shards`. -/
  pendingHint : Table Int64 Micros := .empty
  tenants : Table Int64 QueueStore := .empty
  inFlight : List Operation := []
  issued : List Issued := []

/-- What the environment decides of a step. -/
structure Chance where
  now : Micros := 0
  fails : Bool := false
  locked : List ShardKey := []
deriving DecidableEq, Repr

namespace Fleet

/-- A write to the database of a tenant. -/
def setTenant (s : Fleet) (org : Int64) (q : QueueStore) : Fleet :=
  { s with tenants := s.tenants.update (fun k _ => k = org) fun _ _ => q }

/-- `mark_tenant_pending`. -/
def markTenantPending (s : Fleet) (now : Micros) (org : Int64) : Fleet :=
  { s with pendingHint := s.pendingHint.upsert org now fun _ => now }

/-- `clear_tenant_pending`. -/
def clearTenantPending (s : Fleet) (org : Int64) : Fleet :=
  { s with pendingHint := s.pendingHint.delete fun k _ => k = org }

/-- `tenants_with_pending`. -/
def tenantsWithPending (s : Fleet) : List Int64 :=
  (s.pendingHint.rows.map Prod.fst).insertionSort fun a b => a.toInt ≤ b.toInt

end Fleet

/-! ## Gathering -/

/-- The running shards of a tier, summed as `u32`. -/
def tierLoad (rows : List (String × Nat)) (t : Tier) : UInt32 :=
  ((rows.filter fun r => tier r.1 = t).map fun r => UInt32.ofNat r.2).sum

/-- The candidate of a pending job. -/
def candidateOf (cfg : SchedulerConfig) (nowUnix : Int) (org : Int64)
    (rows : List (String × Nat)) (job : PendingJob) : Candidate :=
  let serviceClass := classFor "fuzz" job.seeds
  { tenant := String.ofList (int64Chars org)
    tier := tier job.backend
    serviceClass := serviceClass
    deadlineUnix := deadlineUnix ((parseEpoch job.startedAt).getD nowUnix) serviceClass
    tenantRunning := tierLoad rows (tier job.backend)
    tenantFairShare := 0
    tenantLaneCap := cfg.laneCap }

/-- The body of the gather loop, once the tenant's load is read. -/
def Gathered.addTenant (cfg : SchedulerConfig) (nowUnix : Int) (org : Int64)
    (rows : List (String × Nat)) (jobs : List PendingJob) (seen : Gathered) : Gathered where
  cands := seen.cands ++ jobs.map fun job => (candidateOf cfg nowUnix org rows job, ⟨org, job.jobId⟩)
  runningElastic := seen.runningElastic + tierLoad rows .elastic
  runningMac := seen.runningMac + tierLoad rows .mac
  tenantsActive := seen.tenantsActive + 1

/-- The fair share of the gathered tenants in a tier. -/
def Gathered.share (seen : Gathered) : Tier → UInt32
  | .elastic => fairShare seen.runningElastic seen.tenantsActive
  | .mac => fairShare seen.runningMac seen.tenantsActive

/-- The candidates with their fair shares filled in. -/
def Gathered.candidates (seen : Gathered) : List (Candidate × ClaimTarget) :=
  seen.cands.map fun c => ({ c.1 with tenantFairShare := seen.share c.1.tier }, c.2)

/-- The targets in the order of the policy. -/
def Gathered.ranked (seen : Gathered) (nowUnix : Int) : List (Candidate × ClaimTarget) :=
  (claimOrder (seen.candidates.map Prod.fst) nowUnix).filterMap (seen.candidates[·]?)

/-! ## One step of an operation -/

/-- The threshold of the requeue sweep, in seconds. -/
def requeueStale : Int := 120

/-- The next database call of an operation: the databases after it, and how the
operation goes on. -/
def stepOperation (cfg : SchedulerConfig) (s : Fleet) (chance : Chance) :
    Operation → Fleet × Option Operation
  | .submitted org => (if chance.fails then s else s.markTenantPending chance.now org, none)
  | .sweeping [] => (s, none)
  | .sweeping (org :: todo) =>
    match s.tenants.get? org with
    | none => (s, some (.sweeping todo))
    | some q =>
      if chance.fails then (s, some (.sweeping todo))
      else if 1 ≤ (requeueStranded q chance.now requeueStale).1 then
        (s.setTenant org (requeueStranded q chance.now requeueStale).2, some (.remarking org todo))
      else (s, some (.sweeping todo))
  | .remarking org todo =>
    (if chance.fails then s else s.markTenantPending chance.now org, some (.sweeping todo))
  | .gathering poll [] seen => (s, some (.claiming poll (seen.ranked (epochOf chance.now))))
  | .gathering poll (org :: todo) seen =>
    match s.tenants.get? org with
    | none => (s, some (.gathering poll todo seen))
    | some q =>
      if chance.fails then (s, some (.gathering poll todo seen))
      else
        let jobs := pendingJobs q poll.capabilities
        if jobs.isEmpty then (s, some (.counting poll org todo seen))
        else (s, some (.loading poll org jobs todo seen))
  | .counting poll org todo seen =>
    match s.tenants.get? org with
    | none => (s, some (.gathering poll todo seen))
    | some q =>
      if chance.fails then (s, some (.gathering poll todo seen))
      else if pendingShardCount q = 0 then (s, some (.clearing poll org todo seen))
      else (s, some (.gathering poll todo seen))
  | .clearing poll org todo seen =>
    (if chance.fails then s else s.clearTenantPending org, some (.gathering poll todo seen))
  | .loading poll org jobs todo seen =>
    -- a failed read is an empty one: no load
    let rows := if chance.fails then [] else ((s.tenants.get? org).map runningByBackend).getD []
    (s, some (.gathering poll todo (seen.addTenant cfg (epochOf chance.now) org rows jobs)))
  | .claiming _ [] => (s, none)
  | .claiming poll ((_, target) :: rest) =>
    match s.tenants.get? target.orgId with
    | none => (s, some (.claiming poll rest))
    | some q =>
      if chance.fails then (s, some (.claiming poll rest))
      else
        match claimShard q chance.locked chance.now poll.worker poll.capabilities
          (some target.jobId) with
        | none => (s, some (.claiming poll rest))
        | some (c, q') =>
          ({ s.setTenant target.orgId q' with
            issued := s.issued ++ [⟨target.orgId, c,
              ((q.shards.get? c.key).elim 0 ShardRow.attempts) + 1⟩] }, none)
  | .reported org job =>
    match s.tenants.get? org with
    | none => (s, none)
    | some q =>
      if chance.fails || jobIncomplete q job then (s, none) else (s, some (.finishing org job))
  | .finishing org job =>
    match s.tenants.get? org with
    | none => (s, none)
    | some q =>
      (if chance.fails then s else s.setTenant org (finalizeJob q chance.now job 0 0), none)

/-! ## The messages of a worker -/

/-- `ResultReq`, the fields that are read. -/
structure ResultReq where
  status : String
  report : Option String := none
  durationS : Option UInt64 := none
deriving DecidableEq, Repr

/-- `map_status`. -/
def mapStatus (status : String) : Option ShardState :=
  if status = "clean" then some .clean
  else if status = "finding" then some .finding
  else if status = "timeout" then some .error
  else if status = "error" then some .error
  else none

/-- `heartbeat`: the status code and the databases after it. -/
def heartbeat (s : Fleet) (chance : Chance) (id : String) : Nat × Fleet :=
  match parseShardId id with
  | none => (400, s)
  | some (org, job, seed, worker) =>
    match s.tenants.get? org with
    | none => (410, s)
    | some q =>
      if chance.fails then (500, s)
      else if (touchShard q chance.now job seed worker).1 then
        (200, s.setTenant org (touchShard q chance.now job seed worker).2)
      else (410, s)

/-- `result`.  A recorded result goes on to finalize the job. -/
def result (s : Fleet) (chance : Chance) (id : String) (res : ResultReq) : Nat × Fleet :=
  match parseShardId id with
  | none => (400, s)
  | some (org, job, seed, worker) =>
    match mapStatus res.status, s.tenants.get? org with
    | none, _ => (400, s)
    | some _, none => (410, s)
    | some state, some q =>
      let set := setShard q job seed worker state res.report (res.durationS.getD 0)
      if chance.fails then (500, s)
      else if set.1 then
        (200, { s.setTenant org set.2 with inFlight := s.inFlight ++ [.reported org job] })
      else (410, s)

/-- The first write of `run_embedded_shard`, which has the claim at hand. -/
def startEmbedded (s : Fleet) (chance : Chance) (org : Int64) (c : ClaimedShard) : Fleet :=
  match s.tenants.get? org with
  | none => s
  | some q =>
    let set := setShard q c.jobId c.seed c.claimedBy .running none 0
    if !chance.fails && set.1 then s.setTenant org set.2 else s

/-! ## Events -/

/-- What can happen to the fleet. -/
inductive FleetEvent where
  /-- A tenant database is set up. -/
  | provision (org : Int64)
  /-- `insert_job` of a submission commits. -/
  | submit (org : Int64) (spec : JobSpec) (id : String) (now : Micros)
  /-- A claim call reads the hint.  `uuid` is what an absent worker id is minted from. -/
  | poll (workerId : Option String) (uuid : String) (capabilities : List String)
  /-- A requeue of some tenants starts, the periodic one or an operator's. -/
  | sweep (orgs : List Int64)
  /-- An operation takes its next step. -/
  | advance (i : Nat) (chance : Chance)
  /-- The process of an operation dies. -/
  | abandon (i : Nat)
  /-- A heartbeat for a granted claim is delivered. -/
  | heartbeat (i : Nat) (chance : Chance)
  /-- A result for a granted claim is delivered. -/
  | result (i : Nat) (chance : Chance) (res : ResultReq)
  /-- An embedded worker starts on a granted claim. -/
  | start (i : Nat) (chance : Chance)

/-- A version 4 uuid has letters, digits and hyphens. -/
def uuidText (uuid : String) : Bool := uuid.toList.all fun c => c.isAlphanum || c = '-'

/-- The list with one entry replaced, or removed. -/
def replaceAt {α : Type} (xs : List α) (i : Nat) (next : Option α) : List α :=
  xs.take i ++ next.toList ++ xs.drop (i + 1)

/-- One event, if it can happen. -/
def stepFleet (cfg : SchedulerConfig) (s : Fleet) : FleetEvent → Option Fleet
  | .provision org =>
    (s.tenants.insert? org QueueStore.empty).map fun tenants => { s with tenants := tenants }
  | .submit org spec id now =>
    if spec.validate.isSome then none
    else
      (s.tenants.get? org).bind fun q =>
      (insertJob q (Job.new spec id now)).map fun q' =>
        { s.setTenant org q' with inFlight := s.inFlight ++ [.submitted org] }
  | .poll workerId uuid capabilities =>
    if uuidText uuid then
      let capabilities := if capabilities.isEmpty then ["web"] else capabilities
      let worker := claimWorkerId workerId ("w-" ++ uuid) ("w-" ++ uuid)
      some { s with
        inFlight := s.inFlight ++ [.gathering ⟨worker, capabilities⟩ s.tenantsWithPending {}] }
    else none
  | .sweep orgs => some { s with inFlight := s.inFlight ++ [.sweeping orgs] }
  | .advance i chance =>
    (s.inFlight[i]?).map fun op =>
      { (stepOperation cfg s chance op).1 with
        inFlight := replaceAt s.inFlight i (stepOperation cfg s chance op).2 }
  | .abandon i =>
    if i < s.inFlight.length then some { s with inFlight := replaceAt s.inFlight i none } else none
  | .heartbeat i chance => (s.issued[i]?).map fun e => (heartbeat s chance e.token).2
  | .result i chance res => (s.issued[i]?).map fun e => (result s chance e.token res).2
  | .start i chance => (s.issued[i]?).map fun e => startEmbedded s chance e.org e.shard

/-- The steps of the fleet. -/
abbrev FleetStep (cfg : SchedulerConfig) : Fleet → FleetEvent → Fleet → Prop :=
  stepOf (stepFleet cfg)

/-! ## What a step does -/

/-- The tenant an operation is about to mark. -/
def Operation.markAhead : Operation → Option Int64
  | .submitted org | .remarking org _ => some org
  | _ => none

namespace Fleet

variable {s : Fleet} {org : Int64} {q q' : QueueStore}

theorem get?_setTenant (h : s.tenants.get? org = some q) (k : Int64) :
    (s.setTenant org q').tenants.get? k = if k = org then some q' else s.tenants.get? k := by
  rw [setTenant, Table.get?_update]
  by_cases hk : k = org
  · subst hk
    simp [h]
  · simp [hk]

theorem has_markTenantPending (now : Micros) (k : Int64) :
    (s.markTenantPending now org).pendingHint.has k =
      if k = org then true else s.pendingHint.has k := by
  rw [markTenantPending, Table.has, Table.get?_upsert]
  split <;> rfl

theorem has_clearTenantPending (k : Int64) :
    (s.clearTenantPending org).pendingHint.has k =
      if k = org then false else s.pendingHint.has k := by
  rw [clearTenantPending, Table.has, Table.get?_delete, Table.has]
  by_cases hk : k = org
  · cases s.pendingHint.get? k <;> simp [hk]
  · cases s.pendingHint.get? k <;> simp [hk]

end Fleet

/-- What the next call of an operation does to the databases. -/
inductive OperationEffect (s : Fleet) (chance : Chance) : Operation → Fleet → Prop
  /-- It reads, or it fails. -/
  | nothing {op : Operation} : (op.markAhead.isSome → chance.fails = true) →
      OperationEffect s chance op s
  | mark {op : Operation} {org : Int64} : op.markAhead = some org → chance.fails = false →
      OperationEffect s chance op (s.markTenantPending chance.now org)
  | clear {poll : Poll} {org : Int64} {todo : List Int64} {seen : Gathered} :
      chance.fails = false →
      OperationEffect s chance (.clearing poll org todo seen) (s.clearTenantPending org)
  | requeue {org : Int64} {todo : List Int64} {q : QueueStore} :
      s.tenants.get? org = some q → chance.fails = false →
      1 ≤ (requeueStranded q chance.now requeueStale).1 →
      OperationEffect s chance (.sweeping (org :: todo))
        (s.setTenant org (requeueStranded q chance.now requeueStale).2)
  | claim {poll : Poll} {cand : Candidate} {target : ClaimTarget}
      {rest : List (Candidate × ClaimTarget)} {q q' : QueueStore} {c : ClaimedShard} :
      s.tenants.get? target.orgId = some q →
      claimShard q chance.locked chance.now poll.worker poll.capabilities (some target.jobId) =
        some (c, q') →
      OperationEffect s chance (.claiming poll ((cand, target) :: rest))
        { s.setTenant target.orgId q' with
          issued := s.issued ++ [⟨target.orgId, c,
            ((q.shards.get? c.key).elim 0 ShardRow.attempts) + 1⟩] }
  | finish {org : Int64} {job : String} {q : QueueStore} :
      s.tenants.get? org = some q →
      OperationEffect s chance (.finishing org job)
        (s.setTenant org (finalizeJob q chance.now job 0 0))

section Inversion

variable {s : Fleet} {chance : Chance}

theorem operationEffect_step (cfg : SchedulerConfig) (s : Fleet) (chance : Chance)
    (op : Operation) :
    OperationEffect s chance op (stepOperation cfg s chance op).1 := by
  cases op with
  | submitted org =>
    cases hfails : chance.fails with
    | true => simpa [stepOperation, hfails] using OperationEffect.nothing fun _ => hfails
    | false => simpa [stepOperation, hfails] using OperationEffect.mark rfl hfails
  | remarking org todo =>
    cases hfails : chance.fails with
    | true => simpa [stepOperation, hfails] using OperationEffect.nothing fun _ => hfails
    | false => simpa [stepOperation, hfails] using OperationEffect.mark rfl hfails
  | sweeping todo =>
    cases todo with
    | nil => exact .nothing nofun
    | cons org todo =>
      simp only [stepOperation]
      split
      · exact .nothing nofun
      · split
        · exact .nothing nofun
        · rename_i hfails
          split
          · exact .requeue ‹_› (by simpa using hfails) ‹_›
          · exact .nothing nofun
  | gathering poll todo seen =>
    cases todo with
    | nil => exact .nothing nofun
    | cons org todo =>
      simp only [stepOperation]
      split
      · exact .nothing nofun
      · split
        · exact .nothing nofun
        · split <;> exact .nothing nofun
  | counting poll org todo seen =>
    simp only [stepOperation]
    split
    · exact .nothing nofun
    · split
      · exact .nothing nofun
      · split <;> exact .nothing nofun
  | clearing poll org todo seen =>
    cases hfails : chance.fails with
    | true =>
      have hnothing : OperationEffect s chance (.clearing poll org todo seen) s := .nothing nofun
      simpa [stepOperation, hfails] using hnothing
    | false => simpa [stepOperation, hfails] using OperationEffect.clear hfails
  | loading poll org jobs todo seen => exact .nothing nofun
  | claiming poll order =>
    cases order with
    | nil => exact .nothing nofun
    | cons first rest =>
      obtain ⟨cand, target⟩ := first
      simp only [stepOperation]
      split
      · exact .nothing nofun
      · split
        · exact .nothing nofun
        · split
          · exact .nothing nofun
          · exact .claim ‹_› ‹_›
  | reported org job =>
    simp only [stepOperation]
    split
    · exact .nothing nofun
    · split <;> exact .nothing nofun
  | finishing org job =>
    simp only [stepOperation]
    split
    · exact .nothing nofun
    · split
      · exact .nothing nofun
      · exact .finish ‹_›

/-- A heartbeat does nothing, or touches the shard its token names. -/
theorem heartbeat_cases (s : Fleet) (chance : Chance) (id : String) :
    (heartbeat s chance id).2 = s ∨
      ∃ org job seed worker q, parseShardId id = some (org, job, seed, worker) ∧
        s.tenants.get? org = some q ∧ (touchShard q chance.now job seed worker).1 = true ∧
        (heartbeat s chance id).2 = s.setTenant org (touchShard q chance.now job seed worker).2 := by
  unfold heartbeat
  split
  · exact .inl rfl
  · rename_i org job seed worker hparse
    split
    · exact .inl rfl
    · rename_i q hq
      split
      · exact .inl rfl
      · split
        · rename_i htouched
          exact .inr ⟨org, job, seed, worker, q, hparse, hq, htouched, rfl⟩
        · exact .inl rfl

/-- A worker can only report a terminal state. -/
theorem terminal_of_mapStatus {status : String} {state : ShardState}
    (h : mapStatus status = some state) : state.terminal = true := by
  unfold mapStatus at h
  split at h
  · cases h
    rfl
  split at h
  · cases h
    rfl
  split at h
  · cases h
    rfl
  split at h
  · cases h
    rfl
  · cases h

/-- A result does nothing, or sets the shard its token names to a terminal state. -/
theorem result_cases (s : Fleet) (chance : Chance) (id : String) (res : ResultReq) :
    (result s chance id res).2 = s ∨
      ∃ org job seed worker q state, parseShardId id = some (org, job, seed, worker) ∧
        s.tenants.get? org = some q ∧ state.terminal = true ∧
        (setShard q job seed worker state res.report (res.durationS.getD 0)).1 = true ∧
        (result s chance id res).2 =
          { s.setTenant org (setShard q job seed worker state res.report
              (res.durationS.getD 0)).2 with inFlight := s.inFlight ++ [.reported org job] } := by
  unfold result
  split
  · exact .inl rfl
  · rename_i org job seed worker hparse
    split
    · exact .inl rfl
    · exact .inl rfl
    · rename_i state q hstate hq
      dsimp only
      split
      · exact .inl rfl
      · split
        · rename_i hset
          exact .inr ⟨org, job, seed, worker, q, state, hparse, hq, terminal_of_mapStatus hstate, hset,
            rfl⟩
        · exact .inl rfl

/-- A start does nothing, or sets the claimed shard running. -/
theorem startEmbedded_cases (s : Fleet) (chance : Chance) (org : Int64) (c : ClaimedShard) :
    startEmbedded s chance org c = s ∨
      ∃ q, s.tenants.get? org = some q ∧
        (setShard q c.jobId c.seed c.claimedBy .running none 0).1 = true ∧
        startEmbedded s chance org c =
          s.setTenant org (setShard q c.jobId c.seed c.claimedBy .running none 0).2 := by
  unfold startEmbedded
  split
  · exact .inl rfl
  · rename_i q hq
    simp only
    split
    · rename_i hset
      rw [Bool.and_eq_true] at hset
      exact .inr ⟨q, hq, hset.2, rfl⟩
    · exact .inl rfl

/-- A requeue that moves shards goes on to mark the tenant. -/
theorem stepOperation_requeue (cfg : SchedulerConfig) {org : Int64} {todo : List Int64}
    {q : QueueStore} (hq : s.tenants.get? org = some q) (hfails : chance.fails = false)
    (hmoved : 1 ≤ (requeueStranded q chance.now requeueStale).1) :
    (stepOperation cfg s chance (.sweeping (org :: todo))).2 = some (.remarking org todo) := by
  simp only [stepOperation, hq, hfails, if_pos hmoved]
  rfl

end Inversion

theorem mem_replaceAt {α : Type} {xs : List α} {i : Nat} {next : Option α} {x : α} :
    x ∈ replaceAt xs i next ↔ x ∈ replaceAt xs i none ∨ next = some x := by
  simp only [replaceAt, List.mem_append, Option.mem_toList, Option.toList_none, List.append_nil]
  constructor
  · rintro ((hx | hx) | hx)
    · exact .inl (.inl hx)
    · exact .inr hx
    · exact .inl (.inr hx)
  · rintro ((hx | hx) | hx)
    · exact .inl (.inl hx)
    · exact .inr hx
    · exact .inl (.inr hx)

/-- An entry is the one at an index, or another. -/
theorem mem_iff_replaceAt {α : Type} {xs : List α} {i : Nat} {y x : α} (h : xs[i]? = some y) :
    x ∈ xs ↔ x ∈ replaceAt xs i none ∨ x = y := by
  obtain ⟨hi, rfl⟩ := List.getElem?_eq_some_iff.1 h
  have hsplit : xs = xs.take i ++ xs[i] :: xs.drop (i + 1) := by
    rw [← List.drop_eq_getElem_cons hi, List.take_append_drop]
  conv_lhs => rw [hsplit]
  simp only [replaceAt, List.mem_append, List.mem_cons, Option.toList_none, List.append_nil]
  constructor
  · rintro (hx | hx | hx)
    · exact .inl (.inl hx)
    · exact .inr hx
    · exact .inl (.inr hx)
  · rintro ((hx | hx) | hx)
    · exact .inl hx
    · exact .inr (.inr hx)
    · exact .inr (.inl hx)

end ReproitCloud
