import Mathlib

/-!
# The scheduling policy

Which pending work a worker that asks should try first.  The policy is pure: the
claim path gathers the candidates from the tenant databases, asks `claimOrder`,
and tries to claim in that order.

Only the Mac tier is rationed.  `mayClaim` is the hard gate, a cap on the running
shards of one tenant in that tier, and `claimScore` orders what passes it.

The source computes a score in `f64`.  Here it is an integer, which is the same as
long as the instants are below 2^52.
-/

namespace ReproitCloud

/-- The execution tier of a backend. -/
inductive Tier where
  | elastic
  | mac
deriving DecidableEq, Repr

/-- `tier`: only iOS requires a Mac. -/
def tier (backend : String) : Tier := if backend = "ios" then .mac else .elastic

/-- The service class of a job. -/
inductive ServiceClass where
  | interactive
  | batch
deriving DecidableEq, Repr

def interactiveShardMax : Nat := 4

def interactiveSlaS : Int := 600

def batchSlaS : Int := 6 * 3600

def interactiveBoost : Int := 3600

def fairnessPenalty : Int := 30

def defaultLaneCap : UInt32 := 4

/-- `SchedulerConfig`. -/
structure SchedulerConfig where
  /-- When false, the gate is inert. -/
  rationed : Bool
  /-- The Mac lane cap of a tenant when rationed. -/
  defaultLaneCap : UInt32
deriving DecidableEq, Repr

namespace SchedulerConfig

def hosted : SchedulerConfig := ⟨true, ReproitCloud.defaultLaneCap⟩

/-- `u32::MAX`. -/
def unlimited : UInt32 := 0xFFFFFFFF

def selfHosted : SchedulerConfig := ⟨false, unlimited⟩

/-- `resolve`: the lane cap variable as it parses, used when positive. -/
def resolve (isSelfHosted : Bool) (laneCapVar : Option UInt32) : SchedulerConfig :=
  if isSelfHosted then selfHosted
  else { hosted with defaultLaneCap := (laneCapVar.filter (0 < ·)).getD hosted.defaultLaneCap }

/-- `lane_cap`: the cap the claim path enforces. -/
def laneCap (cfg : SchedulerConfig) : UInt32 :=
  if cfg.rationed then cfg.defaultLaneCap else unlimited

end SchedulerConfig

/-- `class_for`. -/
def classFor (mode : String) (seeds : Nat) : ServiceClass :=
  if mode = "reproduce" ∨ seeds ≤ interactiveShardMax then .interactive else .batch

/-- `i64::saturating_add`. -/
def saturatingAdd (a b : Int) : Int := max (-(2 ^ 63)) (min (2 ^ 63 - 1) (a + b))

/-- `deadline_unix`. -/
def deadlineUnix (enqueueUnix : Int) : ServiceClass → Int
  | .interactive => saturatingAdd enqueueUnix interactiveSlaS
  | .batch => saturatingAdd enqueueUnix batchSlaS

/-- `fair_share`. -/
def fairShare (tierRunningTotal activeTenants : UInt32) : UInt32 :=
  if activeTenants = 0 then 0 else tierRunningTotal / activeTenants

/-- `Candidate`: one job with claimable shards, and the load of its tenant. -/
structure Candidate where
  tenant : String
  tier : Tier
  serviceClass : ServiceClass
  deadlineUnix : Int
  tenantRunning : UInt32
  tenantFairShare : UInt32
  tenantLaneCap : UInt32
deriving DecidableEq, Repr

/-- `may_claim`: the hard gate. -/
def mayClaim (c : Candidate) : Bool := c.tier ≠ .mac || c.tenantRunning < c.tenantLaneCap

/-- `claim_score`: lower is claimed sooner. -/
def claimScore (c : Candidate) (nowUnix : Int) : Int :=
  let slack := c.deadlineUnix - nowUnix
  let boost := match c.serviceClass with
    | .interactive => interactiveBoost
    | .batch => 0
  -- the truncated difference of naturals is the saturating one
  let overShare : Int := (c.tenantRunning.toNat - c.tenantFairShare.toNat : Nat)
  slack - boost + fairnessPenalty * overShare

/-- The order of `claim_order`'s sort: score, deadline, tenant. -/
def claimBefore (nowUnix : Int) (a b : Candidate) : Bool :=
  claimScore a nowUnix < claimScore b nowUnix ||
    (claimScore a nowUnix = claimScore b nowUnix &&
      (a.deadlineUnix < b.deadlineUnix ||
        (a.deadlineUnix = b.deadlineUnix && a.tenant ≤ b.tenant)))

/-- The candidates that pass the gate, with their indices. -/
def admissible (cands : List Candidate) : List (Candidate × Nat) :=
  cands.zipIdx.filter fun r => mayClaim r.1

/-- `claim_order`: the indices of the admissible candidates, most urgent first.
The sort is stable. -/
def claimOrder (cands : List Candidate) (nowUnix : Int) : List Nat :=
  ((admissible cands).insertionSort fun a b => claimBefore nowUnix a.1 b.1).map Prod.snd

/-- The order names admissible candidates only. -/
theorem mayClaim_of_mem_claimOrder {cands : List Candidate} {nowUnix : Int} {i : Nat}
    (h : i ∈ claimOrder cands nowUnix) : ∃ c, cands[i]? = some c ∧ mayClaim c = true := by
  obtain ⟨⟨c, j⟩, hr, rfl⟩ := List.mem_map.1 h
  rw [List.mem_insertionSort, admissible, List.mem_filter] at hr
  exact ⟨c, by simpa using List.mem_zipIdx_iff_getElem?.1 hr.1, hr.2⟩

end ReproitCloud
