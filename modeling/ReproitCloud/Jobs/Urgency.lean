import ReproitCloud.Jobs.Hint
import ReproitCloud.Jobs.Ranking

/-!
# How urgent a claimed shard is

A claim call ranks the candidates it has gathered, and it gathers from each tenant
the 256 oldest jobs that the worker could serve.  Here a call runs by itself
(`Quietly`): nobody else takes a step, no read fails and no row is locked.

`QueueCandidate` says what the candidates of a queue state are without the gather:
every tenant's jobs, with the tenant's running counts and with the share of the
tenants that compete.  It has the jobs it ranges over as an argument.
`TakesMostUrgent` is the law for such a set of jobs: if some candidate is
admissible, the call returns a shard of a job of a least key.

The law holds for the window of the gather, and so for the whole queue as long as
no tenant's jobs exceed the window (`claim_takes_most_urgent`).  Beyond the window
it fails (`claim_misses_beyond_window`): 256 old simulator jobs of a tenant at its
lane cap hide a browser job behind them.
-/

namespace ReproitCloud

open Lib

/-! ## The jobs of a queue -/

/-- The pending jobs on served backends, oldest first, without the bound. -/
def servedJobs (q : QueueStore) (capabilities : List String) : List PendingJob :=
  let pending := (((q.shards.rows.filter fun r =>
    r.2.state = .pending && r.2.backend ∈ capabilities).map fun r => (r.1.1, r.2.backend)).dedup)
  let joined := pending.filterMap fun p => (q.jobs.get? p.1).map fun j => (p, j.startedAt)
  (joined.insertionSort fun a b => a.2 < b.2 ∨ a.2 = b.2 ∧ a.1.1 ≤ b.1.1).map fun r =>
    ⟨r.1.1, r.1.2, toRfc3339 r.2, q.shards.count fun k _ => k.1 = r.1.1⟩

/-- The gather sees a window of them. -/
theorem pendingJobs_eq_take (q : QueueStore) (capabilities : List String) :
    pendingJobs q capabilities = (servedJobs q capabilities).take 256 := by
  simp only [pendingJobs, servedJobs, List.map_take]

theorem mem_servedJobs {q : QueueStore} {capabilities : List String} {job : PendingJob} :
    job ∈ servedJobs q capabilities ↔
      ∃ k r j, q.shards.get? k = some r ∧ r.state = .pending ∧ r.backend ∈ capabilities ∧
        q.jobs.get? k.1 = some j ∧
        job = ⟨k.1, r.backend, toRfc3339 j.startedAt, q.shards.count fun k' _ => k'.1 = k.1⟩ := by
  simp only [servedJobs, List.mem_map, List.mem_insertionSort, List.mem_filterMap, List.mem_dedup,
    List.mem_filter, Option.map_eq_some_iff, Bool.and_eq_true, decide_eq_true_eq]
  constructor
  · rintro ⟨_, ⟨_, ⟨⟨k, r⟩, ⟨hrow, hstate, hbackend⟩, rfl⟩, j, hj, rfl⟩, rfl⟩
    exact ⟨k, r, j, Table.get?_eq_some_iff.2 hrow, hstate, hbackend, hj, rfl⟩
  · rintro ⟨k, r, j, hget, hstate, hbackend, hj, rfl⟩
    have hrow := Table.get?_eq_some_iff.1 hget
    exact ⟨_, ⟨_, ⟨(k, r), ⟨hrow, hstate, hbackend⟩, rfl⟩, j, hj, rfl⟩, rfl⟩

/-- A served job's start can be read, so the clock of the gather plays no part. -/
theorem candidateOf_served {q : QueueStore} {capabilities : List String} {job : PendingJob}
    (h : job ∈ servedJobs q capabilities) (cfg : SchedulerConfig) (nowUnix : Int) (org : Int64)
    (rows : List (String × Nat)) :
    candidateOf cfg nowUnix org rows job = candidateOf cfg 0 org rows job := by
  obtain ⟨k, r, j, -, -, -, -, rfl⟩ := mem_servedJobs.1 h
  rfl

/-! ## The candidates of a queue state -/

/-- The tenants with a job that the worker could serve. -/
def competing (tenants : Table Int64 QueueStore) (capabilities : List String) :
    List (Int64 × QueueStore) :=
  tenants.rows.filter fun r => !(servedJobs r.2 capabilities).isEmpty

/-- The fair share of a competing tenant in a tier. -/
def queueShare (tenants : Table Int64 QueueStore) (capabilities : List String) (t : Tier) :
    UInt32 :=
  fairShare ((competing tenants capabilities).map fun r => tierLoad (runningByBackend r.2) t).sum
    (UInt32.ofNat (competing tenants capabilities).length)

/-- A candidate of the queue: one of a tenant's jobs, with the running counts of
the tenant and the share of the tenants that compete. -/
def QueueCandidate (jobs : QueueStore → List String → List PendingJob) (cfg : SchedulerConfig)
    (tenants : Table Int64 QueueStore) (capabilities : List String) (c : Candidate)
    (target : ClaimTarget) : Prop :=
  ∃ q job, tenants.get? target.orgId = some q ∧ job ∈ jobs q capabilities ∧
    target.jobId = job.jobId ∧
    c = { candidateOf cfg 0 target.orgId (runningByBackend q) job with
          tenantFairShare := queueShare tenants capabilities (tier job.backend) }

/-! ## A call by itself -/

/-- A call that runs to its end while nobody else takes a step, no read fails and
no row is locked.  The clock may show anything. -/
inductive Quietly (cfg : SchedulerConfig) : Fleet → Operation → Fleet → Prop
  | last {s s' : Fleet} {now : Micros} {op : Operation} :
      stepOperation cfg s { now := now } op = (s', none) → Quietly cfg s op s'
  | next {s s' s'' : Fleet} {now : Micros} {op op' : Operation} :
      stepOperation cfg s { now := now } op = (s', some op') → Quietly cfg s' op' s'' →
      Quietly cfg s op s''

/-- The claim call as it starts, with the tenants of the hint read. -/
def Fleet.claimCall (s : Fleet) (poll : Poll) : Operation :=
  .gathering poll s.tenantsWithPending {}

/-- A shard was granted of a job of a least key among the admissible ones. -/
def GrantsLeast (jobs : QueueStore → List String → List PendingJob) (cfg : SchedulerConfig)
    (s : Fleet) (poll : Poll) (s' : Fleet) : Prop :=
  ∃ e c target, s'.issued = s.issued ++ [e] ∧ e.org = target.orgId ∧
    e.shard.jobId = target.jobId ∧
    QueueCandidate jobs cfg s.tenants poll.capabilities c target ∧ mayClaim c = true ∧
    ∀ nowUnix c' target', QueueCandidate jobs cfg s.tenants poll.capabilities c' target' →
      mayClaim c' = true → claimKey nowUnix c ≤ claimKey nowUnix c'

/-- If one of these jobs is admissible, the call returns, and with a shard of a job
of a least key among them. -/
def TakesMostUrgent (jobs : QueueStore → List String → List PendingJob) (cfg : SchedulerConfig)
    (s : Fleet) (poll : Poll) : Prop :=
  (∃ c target, QueueCandidate jobs cfg s.tenants poll.capabilities c target ∧
    mayClaim c = true) →
  (∃ s', Quietly cfg s (s.claimCall poll) s') ∧
  ∀ s', Quietly cfg s (s.claimCall poll) s' → GrantsLeast jobs cfg s poll s'

/-! ## What a call by itself gathers -/

section Gathering

variable {cfg : SchedulerConfig} {s s' : Fleet} {poll : Poll} {todo : List Int64} {seen : Gathered}

/-- One turn of the gather loop. -/
def gatherTenant (cfg : SchedulerConfig) (tenants : Table Int64 QueueStore)
    (capabilities : List String) (seen : Gathered) (org : Int64) : Gathered :=
  match tenants.get? org with
  | none => seen
  | some q =>
    if (pendingJobs q capabilities).isEmpty then seen
    else seen.addTenant cfg 0 org (runningByBackend q) (pendingJobs q capabilities)

/-- The whole gather loop. -/
def gatherAll (cfg : SchedulerConfig) (tenants : Table Int64 QueueStore)
    (capabilities : List String) (seen : Gathered) (todo : List Int64) : Gathered :=
  todo.foldl (gatherTenant cfg tenants capabilities) seen

theorem addTenant_pendingJobs (nowUnix : Int) (org : Int64) (q : QueueStore)
    (rows : List (String × Nat)) (capabilities : List String) (seen : Gathered) :
    seen.addTenant cfg nowUnix org rows (pendingJobs q capabilities) =
      seen.addTenant cfg 0 org rows (pendingJobs q capabilities) := by
  unfold Gathered.addTenant
  congr 2
  apply List.map_congr_left
  intro job hjob
  rw [pendingJobs_eq_take] at hjob
  rw [candidateOf_served (List.mem_of_mem_take hjob)]

/-- A call whose next step leads on, whatever the clock shows. -/
theorem quietly_iff_next {op : Operation} {after : Micros → Fleet} {goesOn : Micros → Operation}
    (h : ∀ now, stepOperation cfg s { now := now } op = (after now, some (goesOn now))) :
    Quietly cfg s op s' ↔ ∃ now, Quietly cfg (after now) (goesOn now) s' := by
  constructor
  · intro hquiet
    cases hquiet with
    | last hstep =>
      rw [h] at hstep
      cases hstep
    | next hstep hrest =>
      rw [h] at hstep
      cases hstep
      exact ⟨_, hrest⟩
  · rintro ⟨now, hrest⟩
    exact .next (h now) hrest

/-- A call whose next step is its last. -/
theorem quietly_iff_last {op : Operation} {after : Micros → Fleet}
    (h : ∀ now, stepOperation cfg s { now := now } op = (after now, none)) :
    Quietly cfg s op s' ↔ ∃ now, s' = after now := by
  constructor
  · intro hquiet
    cases hquiet with
    | last hstep =>
      rw [h] at hstep
      cases hstep
      exact ⟨_, rfl⟩
    | next hstep _ =>
      rw [h] at hstep
      cases hstep
  · rintro ⟨now, rfl⟩
    exact .last (h now)

/-- A turn of the gather by itself. -/
theorem quietly_turn (cfg : SchedulerConfig) (s : Fleet) (poll : Poll) (todo : List Int64)
    (seen : Gathered) (org : Int64) :
    ∃ s₁ : Fleet, s₁.tenants = s.tenants ∧ s₁.issued = s.issued ∧
      ∀ s', Quietly cfg s (.gathering poll (org :: todo) seen) s' ↔
        Quietly cfg s₁
          (.gathering poll todo (gatherTenant cfg s.tenants poll.capabilities seen org)) s' := by
  cases hq : s.tenants.get? org with
  | none =>
    refine ⟨s, rfl, rfl, fun s' => ?_⟩
    have hstep : ∀ now, stepOperation cfg s { now := now } (.gathering poll (org :: todo) seen) =
        (s, some (.gathering poll todo seen)) := fun _ => by simp only [stepOperation, hq]
    rw [quietly_iff_next hstep, gatherTenant, hq]
    simp
  | some q =>
    by_cases hjobs : (pendingJobs q poll.capabilities).isEmpty = true
    · have hstep : ∀ now, stepOperation cfg s { now := now } (.gathering poll (org :: todo) seen) =
          (s, some (.counting poll org todo seen)) := fun _ => by simp [stepOperation, hq, hjobs]
      simp only [quietly_iff_next hstep, gatherTenant, hq, hjobs, if_true, exists_const]
      by_cases hcount : pendingShardCount q = 0
      · have hcounting : ∀ now, stepOperation cfg s { now := now } (.counting poll org todo seen) =
            (s, some (.clearing poll org todo seen)) := fun _ => by
          simp [stepOperation, hq, hcount]
        have hclearing : ∀ now, stepOperation cfg s { now := now } (.clearing poll org todo seen) =
            (s.clearTenantPending org, some (.gathering poll todo seen)) := fun _ => rfl
        refine ⟨s.clearTenantPending org, rfl, rfl, fun s' => ?_⟩
        simp only [quietly_iff_next hcounting, quietly_iff_next hclearing, exists_const]
      · have hcounting : ∀ now, stepOperation cfg s { now := now } (.counting poll org todo seen) =
            (s, some (.gathering poll todo seen)) := fun _ => by
          simp [stepOperation, hq, hcount]
        refine ⟨s, rfl, rfl, fun s' => ?_⟩
        simp only [quietly_iff_next hcounting, exists_const]
    · have hstep : ∀ now, stepOperation cfg s { now := now } (.gathering poll (org :: todo) seen) =
          (s, some (.loading poll org (pendingJobs q poll.capabilities) todo seen)) := fun _ => by
        simp [stepOperation, hq, hjobs]
      have hloading : ∀ now, stepOperation cfg s { now := now }
          (.loading poll org (pendingJobs q poll.capabilities) todo seen) =
          (s, some (.gathering poll todo (seen.addTenant cfg 0 org (runningByBackend q)
            (pendingJobs q poll.capabilities)))) := fun now => by
        rw [← addTenant_pendingJobs (epochOf now)]
        simp [stepOperation, hq]
      refine ⟨s, rfl, rfl, fun s' => ?_⟩
      simp only [quietly_iff_next hstep, quietly_iff_next hloading, gatherTenant, hq, exists_const]
      rw [if_neg hjobs]

/-- A call by itself comes to claim with what `gatherAll` collects. -/
theorem quietly_gathering (cfg : SchedulerConfig) (s : Fleet) (poll : Poll) (seen : Gathered)
    (todo : List Int64) :
    ∃ s₁ : Fleet, s₁.tenants = s.tenants ∧ s₁.issued = s.issued ∧
      ∀ s', Quietly cfg s (.gathering poll todo seen) s' ↔
        ∃ now, Quietly cfg s₁ (.claiming poll
          ((gatherAll cfg s.tenants poll.capabilities seen todo).ranked (epochOf now))) s' := by
  induction todo generalizing s seen with
  | nil =>
    refine ⟨s, rfl, rfl, fun s' => ?_⟩
    exact quietly_iff_next fun _ => rfl
  | cons org todo ih =>
    obtain ⟨s₁, htenants, hissued, hturn⟩ := quietly_turn cfg s poll todo seen org
    obtain ⟨s₂, htenants', hissued', hrest⟩ := ih s₁ _
    refine ⟨s₂, htenants'.trans htenants, hissued'.trans hissued, fun s' => ?_⟩
    rw [hturn, hrest, htenants]
    rfl

/-- The running shards of the gathered tenants in a tier. -/
def Gathered.running (seen : Gathered) : Tier → UInt32
  | .elastic => seen.runningElastic
  | .mac => seen.runningMac

theorem Gathered.share_eq (seen : Gathered) (t : Tier) :
    seen.share t = fairShare (seen.running t) seen.tenantsActive := by
  cases t <;> rfl

theorem running_addTenant (nowUnix : Int) (org : Int64) (rows : List (String × Nat))
    (jobs : List PendingJob) (seen : Gathered) (t : Tier) :
    (seen.addTenant cfg nowUnix org rows jobs).running t = seen.running t + tierLoad rows t := by
  cases t <;> rfl

/-- The tenants of the list that the gather counts. -/
def counted (tenants : Table Int64 QueueStore) (capabilities : List String) (todo : List Int64) :
    List (Int64 × QueueStore) :=
  todo.filterMap fun org => (tenants.get? org).bind fun q =>
    if (pendingJobs q capabilities).isEmpty then none else some (org, q)

section Collected

variable {tenants : Table Int64 QueueStore} {capabilities : List String}

theorem mem_counted {org : Int64} {q : QueueStore} :
    (org, q) ∈ counted tenants capabilities todo ↔
      org ∈ todo ∧ tenants.get? org = some q ∧ (pendingJobs q capabilities).isEmpty = false := by
  simp only [counted, List.mem_filterMap, Option.bind_eq_some_iff, Option.ite_none_left_eq_some,
    Option.some.injEq, Prod.mk.injEq, Bool.not_eq_true]
  constructor
  · rintro ⟨_, horg, _, hq, hjobs, rfl, rfl⟩
    exact ⟨horg, hq, hjobs⟩
  · rintro ⟨horg, hq, hjobs⟩
    exact ⟨org, horg, q, hq, hjobs, rfl, rfl⟩

theorem running_gatherAll (t : Tier) :
    (gatherAll cfg tenants capabilities seen todo).running t =
      seen.running t + ((counted tenants capabilities todo).map fun r =>
        tierLoad (runningByBackend r.2) t).sum := by
  induction todo generalizing seen with
  | nil => simp [gatherAll, counted]
  | cons org todo ih =>
    show (gatherAll cfg tenants capabilities (gatherTenant cfg tenants capabilities seen org)
      todo).running t = _
    rw [ih, gatherTenant]
    cases hq : tenants.get? org with
    | none => simp [counted, hq]
    | some q =>
      by_cases hjobs : pendingJobs q capabilities = []
      · simp [counted, hq, hjobs]
      · simp [counted, hq, hjobs, running_addTenant, add_assoc]

theorem tenantsActive_gatherAll :
    (gatherAll cfg tenants capabilities seen todo).tenantsActive =
      seen.tenantsActive + UInt32.ofNat (counted tenants capabilities todo).length := by
  induction todo generalizing seen with
  | nil => simp [gatherAll, counted]
  | cons org todo ih =>
    show (gatherAll cfg tenants capabilities (gatherTenant cfg tenants capabilities seen org)
      todo).tenantsActive = _
    rw [ih, gatherTenant]
    cases hq : tenants.get? org with
    | none => simp [counted, hq]
    | some q =>
      by_cases hjobs : pendingJobs q capabilities = []
      · simp [counted, hq, hjobs]
      · simp [counted, hq, hjobs, Gathered.addTenant, add_assoc, add_comm]

theorem mem_gatherAll {x : Candidate × ClaimTarget} :
    x ∈ (gatherAll cfg tenants capabilities seen todo).cands ↔
      x ∈ seen.cands ∨ ∃ org ∈ todo, ∃ q, tenants.get? org = some q ∧
        ∃ job ∈ pendingJobs q capabilities,
          (candidateOf cfg 0 org (runningByBackend q) job, ⟨org, job.jobId⟩) = x := by
  induction todo generalizing seen with
  | nil => simp [gatherAll]
  | cons org todo ih =>
    show x ∈ (gatherAll cfg tenants capabilities (gatherTenant cfg tenants capabilities seen org)
      todo).cands ↔ _
    rw [ih, gatherTenant]
    cases hq : tenants.get? org with
    | none => simp [hq]
    | some q =>
      by_cases hjobs : pendingJobs q capabilities = []
      · simp [hq, hjobs]
      · simp [hq, hjobs, Gathered.addTenant, or_assoc]

/-- With every busy tenant in the list, the gather counts the tenants that compete. -/
theorem counted_perm (htodo : todo.Nodup)
    (hall : ∀ org q, tenants.get? org = some q → servedJobs q capabilities ≠ [] → org ∈ todo) :
    (counted tenants capabilities todo).Perm (competing tenants capabilities) := by
  have hjobs : ∀ q, (pendingJobs q capabilities).isEmpty = (servedJobs q capabilities).isEmpty := by
    intro q
    rw [pendingJobs_eq_take]
    cases servedJobs q capabilities <;> rfl
  have hcounted : (counted tenants capabilities todo).Nodup := by
    refine htodo.filterMap fun org org' r hr hr' => ?_
    rw [Option.mem_def, Option.bind_eq_some_iff] at hr hr'
    obtain ⟨q, -, hq⟩ := hr
    obtain ⟨q', -, hq'⟩ := hr'
    simp only [Option.ite_none_left_eq_some, Option.some.injEq] at hq hq'
    rw [← hq.2, Prod.mk.injEq] at hq'
    exact hq'.2.1.symm
  have hcompeting : (competing tenants capabilities).Nodup :=
    (List.Nodup.of_map _ tenants.keys_nodup).filter _
  refine (List.perm_ext_iff_of_nodup hcounted hcompeting).2 fun ⟨org, q⟩ => ?_
  rw [mem_counted, competing, List.mem_filter, hjobs, Bool.not_eq_true', ← Table.get?_eq_some_iff]
  constructor
  · rintro ⟨-, hq, hne⟩
    exact ⟨hq, hne⟩
  · rintro ⟨hq, hne⟩
    refine ⟨hall org q hq fun hnil => ?_, hq, hne⟩
    rw [hnil] at hne
    cases hne

end Collected

theorem nodup_tenantsWithPending (s : Fleet) : s.tenantsWithPending.Nodup :=
  (List.perm_insertionSort _ _).nodup_iff.2 s.pendingHint.keys_nodup

/-- The hint names every tenant with a pending shard. -/
def Fleet.HintNamesAll (s : Fleet) : Prop := ∀ org, s.HasPending org → s.pendingHint.has org = true

theorem mem_tenantsWithPending {org : Int64} :
    org ∈ s.tenantsWithPending ↔ s.pendingHint.has org = true := by
  rw [Fleet.tenantsWithPending, List.mem_insertionSort, Table.has_iff_mem_keys]

theorem hasPending_of_servedJobs {org : Int64} {q : QueueStore} {capabilities : List String}
    (hq : s.tenants.get? org = some q) (h : servedJobs q capabilities ≠ []) : s.HasPending org := by
  obtain ⟨job, hjob⟩ := List.exists_mem_of_ne_nil _ h
  obtain ⟨k, r, _, hrow, hstate, -⟩ := mem_servedJobs.1 hjob
  refine ⟨q, hq, ?_⟩
  rw [pendingShardCount, Table.count, List.countP_pos_iff]
  exact ⟨(k, r), Table.get?_eq_some_iff.1 hrow, decide_eq_true hstate⟩

/-- What a call by itself gathers are the candidates of the window. -/
theorem mem_candidates_iff (hhint : s.HintNamesAll) {capabilities : List String} {c : Candidate}
    {target : ClaimTarget} :
    (c, target) ∈ (gatherAll cfg s.tenants capabilities {} s.tenantsWithPending).candidates ↔
      QueueCandidate pendingJobs cfg s.tenants capabilities c target := by
  have hall : ∀ org q, s.tenants.get? org = some q → servedJobs q capabilities ≠ [] →
      org ∈ s.tenantsWithPending := fun org q hq hne =>
    mem_tenantsWithPending.2 (hhint org (hasPending_of_servedJobs hq hne))
  have hperm := counted_perm (nodup_tenantsWithPending s) hall
  have hshare : ∀ t, (gatherAll cfg s.tenants capabilities {} s.tenantsWithPending).share t =
      queueShare s.tenants capabilities t := by
    intro t
    have hload := (hperm.map fun r => tierLoad (runningByBackend r.2) t).sum_eq
    have hzero : ({} : Gathered).running t = 0 := by cases t <;> rfl
    rw [Gathered.share_eq, running_gatherAll, tenantsActive_gatherAll, hload, hperm.length_eq,
      hzero, zero_add]
    simp [queueShare]
  rw [Gathered.candidates, List.mem_map]
  constructor
  · rintro ⟨x, hx, hfill⟩
    obtain ⟨org, -, q, hq, job, hjob, rfl⟩ := (mem_gatherAll.1 hx).resolve_left List.not_mem_nil
    cases hfill
    exact ⟨q, job, hq, hjob, rfl, by rw [hshare]; rfl⟩
  · rintro ⟨q, job, hq, hjob, htarget, rfl⟩
    have hne : servedJobs q capabilities ≠ [] := by
      rw [pendingJobs_eq_take] at hjob
      exact List.ne_nil_of_mem (List.mem_of_mem_take hjob)
    refine ⟨_, mem_gatherAll.2 (.inr ⟨target.orgId, hall _ q hq hne, q, hq, job, hjob, rfl⟩), ?_⟩
    rw [hshare, ← htarget]
    rfl

end Gathering

/-! ## The claim -/

theorem claimScore_eq (c : Candidate) (nowUnix : Int) :
    claimScore c nowUnix = claimScore c 0 - nowUnix := by
  simp only [claimScore]
  omega

/-- The order of two keys is the same at any time. -/
theorem claimKey_le_iff (nowUnix : Int) {a b : Candidate} :
    claimKey nowUnix a ≤ claimKey nowUnix b ↔ claimKey 0 a ≤ claimKey 0 b := by
  simp only [claimKey, Prod.Lex.toLex_le_toLex, claimScore_eq _ nowUnix, sub_lt_sub_iff_right,
    sub_left_inj]

/-- The first of the ranked candidates has a least key. -/
theorem ranked_eq_cons {seen : Gathered} (nowUnix : Int)
    (h : ∃ x ∈ seen.candidates, mayClaim x.1 = true) :
    ∃ x rest, seen.ranked nowUnix = x :: rest ∧ x ∈ seen.candidates ∧ mayClaim x.1 = true ∧
      ∀ y ∈ seen.candidates, mayClaim y.1 = true → claimKey nowUnix x.1 ≤ claimKey nowUnix y.1 := by
  obtain ⟨x₀, hx₀, hmay₀⟩ := h
  cases horder : claimOrder (seen.candidates.map Prod.fst) nowUnix with
  | nil =>
    obtain ⟨i, hi⟩ := List.mem_iff_getElem?.1 hx₀
    have hmem : i ∈ claimOrder (seen.candidates.map Prod.fst) nowUnix :=
      mem_claimOrder.2 ⟨x₀.1, by rw [List.getElem?_map, hi]; rfl, hmay₀⟩
    rw [horder] at hmem
    exact absurd hmem List.not_mem_nil
  | cons i rest =>
    have hi : i ∈ claimOrder (seen.candidates.map Prod.fst) nowUnix := by
      rw [horder]
      exact List.mem_cons_self
    obtain ⟨c, hc, hmay⟩ := mem_claimOrder.1 hi
    have hget := hc
    rw [List.getElem?_map, Option.map_eq_some_iff] at hget
    obtain ⟨x, hx, rfl⟩ := hget
    refine ⟨x, rest.filterMap (seen.candidates[·]?), ?_, List.mem_of_getElem? hx, hmay, ?_⟩
    · rw [Gathered.ranked, horder, List.filterMap_cons, hx]
    · intro y hy hmayy
      exact claimOrder_head horder hc (List.mem_map_of_mem hy) hmayy

theorem ranked_eq_nil {seen : Gathered} (nowUnix : Int)
    (h : ∀ x ∈ seen.candidates, mayClaim x.1 = false) : seen.ranked nowUnix = [] := by
  have hnil : claimOrder (seen.candidates.map Prod.fst) nowUnix = [] := by
    rw [List.eq_nil_iff_forall_not_mem]
    intro i hi
    obtain ⟨c, hc, hmay⟩ := mem_claimOrder.1 hi
    obtain ⟨x, hx, rfl⟩ := List.mem_map.1 (List.mem_of_getElem? hc)
    rw [h x hx] at hmay
    cases hmay
  rw [Gathered.ranked, hnil]
  rfl

/-- A job with a pending shard on a served backend can be claimed. -/
theorem claimShard_of_servedJobs {q : QueueStore} {capabilities : List String} {job : PendingJob}
    (h : job ∈ servedJobs q capabilities) (now : Micros) (worker : String) :
    ∃ c q', claimShard q [] now worker capabilities (some job.jobId) = some (c, q') := by
  obtain ⟨k, r, j, hrow, hstate, hbackend, -, rfl⟩ := mem_servedJobs.1 h
  have hk : k ∈ claimable q capabilities (some k.1) := by
    rw [claimable, List.mem_map]
    refine ⟨(k, r), List.mem_filter.2 ⟨Table.get?_eq_some_iff.1 hrow, ?_⟩, rfl⟩
    simp [hstate, hbackend]
  unfold claimShard
  split
  · rename_i hnone
    rw [List.head?_eq_none_iff] at hnone
    have hmem : k ∈ ((claimable q capabilities (some k.1)).filter (· ∉ [])).insertionSort
        (ShardKey.le · ·) := by
      rw [List.mem_insertionSort]
      exact List.mem_filter.2 ⟨hk, by simp⟩
    rw [hnone] at hmem
    exact absurd hmem List.not_mem_nil
  · rename_i k' hhead
    have hmem := List.mem_of_mem_head? hhead
    rw [List.mem_insertionSort, List.mem_filter, claimable, List.mem_map] at hmem
    obtain ⟨⟨⟨k'', r'⟩, hr', rfl⟩, -⟩ := hmem
    have hrow' : q.shards.get? k'' = some r' :=
      Table.get?_eq_some_iff.2 (List.mem_of_mem_filter hr')
    obtain ⟨j', hj'⟩ := QueueStore.exists_job hrow'
    rw [hrow', hj']
    exact ⟨_, _, rfl⟩

/-- Claiming by itself from a job that can be claimed takes one of its shards. -/
theorem quietly_claiming (cfg : SchedulerConfig) {s : Fleet} {poll : Poll}
    {x : Candidate × ClaimTarget} {q : QueueStore} {job : PendingJob}
    (hq : s.tenants.get? x.2.orgId = some q) (hjob : job ∈ servedJobs q poll.capabilities)
    (htarget : x.2.jobId = job.jobId) (rest : List (Candidate × ClaimTarget)) :
    (∃ s', Quietly cfg s (.claiming poll (x :: rest)) s') ∧
    ∀ s', Quietly cfg s (.claiming poll (x :: rest)) s' →
      ∃ e, s'.issued = s.issued ++ [e] ∧ e.org = x.2.orgId ∧ e.shard.jobId = x.2.jobId := by
  have hstep : ∀ now, ∃ s' e,
      stepOperation cfg s { now := now } (.claiming poll (x :: rest)) = (s', none) ∧
        s'.issued = s.issued ++ [e] ∧ e.org = x.2.orgId ∧ e.shard.jobId = x.2.jobId := by
    intro now
    obtain ⟨shard, q', hclaim⟩ := claimShard_of_servedJobs hjob now poll.worker
    rw [← htarget] at hclaim
    obtain ⟨-, -, -, -, hshard, -⟩ := claimShard_spec hclaim
    simp only [stepOperation, hq, hclaim]
    exact ⟨_, _, rfl, rfl, rfl, hshard _ rfl⟩
  constructor
  · obtain ⟨s', -, hs', -⟩ := hstep 0
    exact ⟨s', .last hs'⟩
  · intro s' hquiet
    cases hquiet with
    | @last _ _ now _ hlast =>
      obtain ⟨_, e, hs', hissued⟩ := hstep now
      rw [hs'] at hlast
      cases hlast
      exact ⟨e, hissued⟩
    | @next _ _ _ now _ _ hnext _ =>
      obtain ⟨_, _, hs', -⟩ := hstep now
      rw [hs'] at hnext
      cases hnext

/-- The first ranked candidate of a call by itself is a least admissible one of the
window. -/
theorem ranked_window (cfg : SchedulerConfig) {s : Fleet} (hhint : s.HintNamesAll) {poll : Poll}
    (h : ∃ c target, QueueCandidate pendingJobs cfg s.tenants poll.capabilities c target ∧
      mayClaim c = true) (nowUnix : Int) :
    ∃ x rest, (gatherAll cfg s.tenants poll.capabilities {} s.tenantsWithPending).ranked nowUnix =
        x :: rest ∧
      QueueCandidate pendingJobs cfg s.tenants poll.capabilities x.1 x.2 ∧ mayClaim x.1 = true ∧
      ∀ nowUnix' c' target', QueueCandidate pendingJobs cfg s.tenants poll.capabilities c' target' →
        mayClaim c' = true → claimKey nowUnix' x.1 ≤ claimKey nowUnix' c' := by
  obtain ⟨c₀, target₀, hc₀, hmay₀⟩ := h
  obtain ⟨x, rest, hranked, hmem, hmay, hleast⟩ :=
    ranked_eq_cons nowUnix ⟨(c₀, target₀), (mem_candidates_iff hhint).2 hc₀, hmay₀⟩
  refine ⟨x, rest, hranked, (mem_candidates_iff hhint).1 hmem, hmay, ?_⟩
  intro nowUnix' c' target' hc' hmay'
  have hle := hleast (c', target') ((mem_candidates_iff hhint).2 hc') hmay'
  exact (claimKey_le_iff nowUnix').2 ((claimKey_le_iff nowUnix).1 hle)

/-- The law for the window. -/
theorem takesMostUrgent_window (cfg : SchedulerConfig) {s : Fleet} (hhint : s.HintNamesAll)
    (poll : Poll) : TakesMostUrgent pendingJobs cfg s poll := by
  intro hsome
  obtain ⟨s₁, htenants, hissued, hgather⟩ :=
    quietly_gathering cfg s poll {} s.tenantsWithPending
  have hclaim : ∀ now,
      (∃ s', Quietly cfg s₁ (.claiming poll ((gatherAll cfg s.tenants poll.capabilities {}
        s.tenantsWithPending).ranked (epochOf now))) s') ∧
      ∀ s', Quietly cfg s₁ (.claiming poll ((gatherAll cfg s.tenants poll.capabilities {}
          s.tenantsWithPending).ranked (epochOf now))) s' →
        GrantsLeast pendingJobs cfg s poll s' := by
    intro now
    obtain ⟨x, rest, hranked, hx, hmay, hleast⟩ := ranked_window cfg hhint hsome (epochOf now)
    obtain ⟨q, job, hq, hjob, htarget, -⟩ := id hx
    rw [pendingJobs_eq_take] at hjob
    rw [← htenants] at hq
    rw [hranked]
    obtain ⟨hends, htakes⟩ := quietly_claiming cfg hq (List.mem_of_mem_take hjob) htarget rest
    refine ⟨hends, fun s' hquiet => ?_⟩
    obtain ⟨e, he, horg, hshard⟩ := htakes s' hquiet
    rw [hissued] at he
    exact ⟨e, x.1, x.2, he, horg, hshard, hx, hmay, hleast⟩
  constructor
  · obtain ⟨s', hs'⟩ := (hclaim 0).1
    exact ⟨s', (hgather s').2 ⟨0, hs'⟩⟩
  · intro s' hquiet
    obtain ⟨now, hquiet⟩ := (hgather s').1 hquiet
    exact (hclaim now).2 s' hquiet

theorem queueCandidate_congr {jobs jobs' : QueueStore → List String → List PendingJob}
    {cfg : SchedulerConfig} {tenants : Table Int64 QueueStore} {capabilities : List String}
    (h : ∀ org q, tenants.get? org = some q → jobs q capabilities = jobs' q capabilities) :
    QueueCandidate jobs cfg tenants capabilities =
      QueueCandidate jobs' cfg tenants capabilities := by
  funext c target
  refine propext (exists_congr fun q => exists_congr fun job => and_congr_right fun hq => ?_)
  rw [h _ q hq]

/-- The call takes the most urgent job of the windows, and so of the whole queue when
no tenant's jobs exceed the window. -/
theorem claim_takes_most_urgent (cfg : SchedulerConfig) {s : Fleet} (hhint : s.HintNamesAll)
    (poll : Poll) :
    TakesMostUrgent pendingJobs cfg s poll ∧
    ((∀ org q, s.tenants.get? org = some q → (servedJobs q poll.capabilities).length ≤ 256) →
      TakesMostUrgent servedJobs cfg s poll) := by
  have hwindow := takesMostUrgent_window cfg hhint poll
  refine ⟨hwindow, fun hfits => ?_⟩
  have hsame : QueueCandidate servedJobs cfg s.tenants poll.capabilities =
      QueueCandidate pendingJobs cfg s.tenants poll.capabilities := by
    refine queueCandidate_congr fun org q hq => ?_
    rw [pendingJobs_eq_take, List.take_of_length_le (hfits org q hq)]
  unfold TakesMostUrgent GrantsLeast at hwindow ⊢
  rw [hsame]
  exact hwindow

/-- One tenant with one browser job of one shard. -/
def oneJobFleet : Fleet where
  pendingHint := ⟨[(1, 0)], List.nodup_singleton _⟩
  tenants := ⟨[(1, ⟨⟨[("job-a", ⟨"/srv/shop", 1, 0, none, 0, 0⟩)], List.nodup_singleton _⟩,
    ⟨[(("job-a", 1), { state := .pending, backend := "web" })], List.nodup_singleton _⟩,
    by decide⟩)], List.nodup_singleton _⟩

theorem hintNamesAll_singleton {s : Fleet} {q : QueueStore} (htenants : s.tenants.rows = [(1, q)])
    (hhint : s.pendingHint.has 1 = true) : s.HintNamesAll := by
  rintro org ⟨q', hq', -⟩
  have hmem := Table.get?_eq_some_iff.1 hq'
  rw [htenants] at hmem
  rw [(Prod.mk.inj (List.mem_singleton.1 hmem)).1, hhint]

theorem claim_takes_most_urgent_one :
    (∃ s', Quietly .hosted oneJobFleet (oneJobFleet.claimCall ⟨"w1", ["web"]⟩) s') ∧
    ∀ s', Quietly .hosted oneJobFleet (oneJobFleet.claimCall ⟨"w1", ["web"]⟩) s' →
      GrantsLeast pendingJobs .hosted oneJobFleet ⟨"w1", ["web"]⟩ s' :=
  (claim_takes_most_urgent .hosted (hintNamesAll_singleton rfl rfl) ⟨"w1", ["web"]⟩).1
    ⟨_, ⟨1, "job-a"⟩, ⟨_, ⟨"job-a", "web", toRfc3339 0, 1⟩, rfl, by decide, rfl, rfl⟩, by decide⟩

/-! ## Beyond the window -/

/-- The jobs of a backlog are named by their number. -/
def backlogName (i : Nat) : String := String.ofList (List.replicate i 'x')

theorem backlogName_injective : Function.Injective backlogName := by
  intro i j h
  have hlist := congrArg (fun t : String => t.toList.length) h
  simpa [backlogName] using hlist

/-- The first job runs, the others wait; the last is on a browser. -/
def backlogShard (i : Nat) : ShardRow where
  state := if i = 0 then .running else .pending
  backend := if i = 257 then "web" else "ios"

theorem nodup_backlog {α β : Type} {f : Nat → α} (hf : Function.Injective f) (g : Nat → β) :
    (((List.range 258).map fun i => (f i, g i)).map Prod.fst).Nodup := by
  rw [List.map_map]
  exact List.nodup_range.map hf

/-- 258 jobs of one shard each, in the order of their numbers. -/
def backlog : QueueStore where
  jobs := ⟨(List.range 258).map fun i => (backlogName i, ⟨"", 1, i, none, 0, 0⟩),
    nodup_backlog backlogName_injective _⟩
  shards := ⟨(List.range 258).map fun i => ((backlogName i, 1), backlogShard i),
    nodup_backlog (fun _ _ h => backlogName_injective (Prod.mk.inj h).1) _⟩
  owned := by
    intro r hr
    obtain ⟨i, hi, rfl⟩ := List.mem_map.1 hr
    rw [Table.has_iff_mem_keys, List.map_map]
    exact List.mem_map_of_mem hi

theorem get?_backlog_jobs {i : Nat} (hi : i < 258) :
    backlog.jobs.get? (backlogName i) = some ⟨"", 1, i, none, 0, 0⟩ :=
  Table.get?_eq_some_iff.2 (List.mem_map_of_mem (List.mem_range.2 hi))

/-- The job of a number, as the queue lists it. -/
def backlogJob (i : Nat) : PendingJob :=
  ⟨backlogName i, (backlogShard i).backend, toRfc3339 i,
    backlog.shards.count fun k _ => k.1 = backlogName i⟩

theorem filter_pos_range (n : Nat) :
    (List.range (n + 1)).filter (fun i => decide (0 < i)) = List.range' 1 n := by
  rw [List.range_eq_range', List.range'_succ, List.filter_cons_of_neg (by decide)]
  refine List.filter_eq_self.2 fun i hi => decide_eq_true ?_
  exact (List.mem_range'_1.1 hi).1

/-- A job waits for a worker of both backends unless it is the first. -/
theorem waits_iff (i : Nat) :
    (decide ((backlogShard i).state = .pending) &&
      decide ((backlogShard i).backend ∈ ["ios", "web"])) = decide (0 < i) := by
  cases i with
  | zero => rfl
  | succ i => by_cases hi : i + 1 = 257 <;> simp [backlogShard, hi]

theorem waiting_backlog :
    (backlog.shards.rows.filter fun r =>
      r.2.state = .pending && r.2.backend ∈ ["ios", "web"]).map (fun r => (r.1.1, r.2.backend)) =
      (List.range' 1 257).map fun i => (backlogName i, (backlogShard i).backend) := by
  rw [← filter_pos_range 257, ← List.filter_congr fun i _ => waits_iff i]
  show (((List.range 258).map fun i => ((backlogName i, (1 : UInt32)), backlogShard i)).filter
    _).map _ = _
  rw [List.filter_map, List.map_map]
  rfl

theorem servedJobs_backlog :
    servedJobs backlog ["ios", "web"] = (List.range' 1 257).map backlogJob := by
  have hnodup : ((List.range' 1 257).map fun i =>
      (backlogName i, (backlogShard i).backend)).Nodup :=
    List.Nodup.map (fun _ _ h => backlogName_injective (Prod.mk.inj h).1) List.nodup_range'
  have hjoined : ((List.range' 1 257).map fun i =>
      (backlogName i, (backlogShard i).backend)).filterMap
      (fun p => (backlog.jobs.get? p.1).map fun j => (p, j.startedAt)) =
      (List.range' 1 257).map fun i =>
        ((backlogName i, (backlogShard i).backend), (i : Micros)) := by
    rw [List.filterMap_map, ← List.filterMap_eq_map]
    refine List.filterMap_congr fun i hi => ?_
    have hlt : i < 258 := by
      have := (List.mem_range'_1.1 hi).2
      omega
    simp [get?_backlog_jobs hlt]
  have hsorted : ((List.range' 1 257).map fun i =>
      ((backlogName i, (backlogShard i).backend), (i : Micros))).Pairwise
      fun a b => a.2 < b.2 ∨ a.2 = b.2 ∧ a.1.1 ≤ b.1.1 := by
    refine List.pairwise_map.2 (List.Pairwise.imp (fun h => ?_) List.pairwise_lt_range')
    exact .inl (Int.ofNat_lt.2 h)
  simp only [servedJobs, waiting_backlog, hnodup.dedup, hjoined, hsorted.insertionSort_eq,
    List.map_map]
  rfl

theorem runningByBackend_backlog : runningByBackend backlog = [("ios", 1)] := by
  have hrunning : ∀ i, decide ((backlogShard i).state = .running) = decide (i = 0) := by
    intro i
    cases i with
    | zero => rfl
    | succ i => simp [backlogShard]
  have hfirst : (List.range 258).filter (fun i => decide (i = 0)) = [0] := by
    rw [List.range_eq_range', List.range'_succ, List.filter_cons_of_pos (by decide)]
    refine congrArg _ (List.filter_eq_nil_iff.2 fun i hi => ?_)
    have := (List.mem_range'_1.1 hi).1
    simp only [decide_eq_true_eq]
    omega
  have hbackends : (backlog.shards.rows.filter fun r => r.2.state = .running).map
      (fun r => r.2.backend) = ["ios"] := by
    show (((List.range 258).map fun i => ((backlogName i, (1 : UInt32)), backlogShard i)).filter
      _).map _ = _
    rw [List.filter_map, List.map_map]
    show ((List.range 258).filter fun i => decide ((backlogShard i).state = .running)).map _ = _
    rw [List.filter_congr fun i _ => hrunning i, hfirst]
    rfl
  simp only [runningByBackend, hbackends]
  rfl

/-- One tenant with the backlog. -/
def backlogFleet : Fleet where
  pendingHint := ⟨[(1, 0)], List.nodup_singleton _⟩
  tenants := ⟨[(1, backlog)], List.nodup_singleton _⟩

/-- In the window there are only simulator jobs, and the tenant is at its cap of one. -/
theorem backlog_window {c : Candidate} {target : ClaimTarget}
    (h : QueueCandidate pendingJobs ⟨true, 1⟩ backlogFleet.tenants ["ios", "web"] c target) :
    mayClaim c = false := by
  obtain ⟨q, job, hq, hjob, -, rfl⟩ := h
  have hbacklog : q = backlog := by
    have hmem := Table.get?_eq_some_iff.1 hq
    exact (Prod.mk.inj (List.mem_singleton.1 hmem)).2
  rw [hbacklog, pendingJobs_eq_take, servedJobs_backlog, ← List.map_take] at hjob
  obtain ⟨i, hi, rfl⟩ := List.mem_map.1 hjob
  have hlt : i ≠ 257 := by
    have hwindow : (List.range' 1 257).take 256 = List.range' 1 256 := by decide +kernel
    rw [hwindow] at hi
    have := (List.mem_range'_1.1 hi).2
    omega
  have hbackend : (backlogJob i).backend = "ios" := if_neg hlt
  rw [hbacklog]
  simp only [candidateOf, hbackend, runningByBackend_backlog]
  rfl

/-- The browser job behind the window is admissible and is not claimed. -/
theorem claim_misses_beyond_window :
    ¬ ∀ (cfg : SchedulerConfig) (s : Fleet) (poll : Poll), s.HintNamesAll →
      TakesMostUrgent servedJobs cfg s poll := by
  intro hall
  have hhint : backlogFleet.HintNamesAll := hintNamesAll_singleton rfl rfl
  have hserved : backlogJob 257 ∈ servedJobs backlog ["ios", "web"] := by
    rw [servedJobs_backlog]
    exact List.mem_map_of_mem (List.mem_range'_1.2 ⟨by decide, by decide⟩)
  obtain ⟨⟨s', hquiet⟩, hgrants⟩ := hall ⟨true, 1⟩ backlogFleet ⟨"w1", ["ios", "web"]⟩ hhint
    ⟨_, ⟨1, backlogName 257⟩, ⟨backlog, backlogJob 257, rfl, hserved, rfl, rfl⟩, rfl⟩
  obtain ⟨e, -, -, hissued, -⟩ := hgrants s' hquiet
  obtain ⟨s₁, -, hnothing, hgather⟩ := quietly_gathering ⟨true, 1⟩ backlogFleet
    ⟨"w1", ["ios", "web"]⟩ {} backlogFleet.tenantsWithPending
  obtain ⟨now, hclaim⟩ := (hgather s').1 hquiet
  rw [ranked_eq_nil _ fun x hx => backlog_window ((mem_candidates_iff hhint).1 hx)] at hclaim
  obtain ⟨_, rfl⟩ := (quietly_iff_last fun _ => rfl).1 hclaim
  rw [hnothing] at hissued
  exact absurd hissued (by simp)

end ReproitCloud
