import ReproitCloud.Jobs.LaneCap
import ReproitCloud.Jobs.Urgency

/-!
# How often a waiting job is passed over

A claim call may hand out a shard of one job while another job stands behind it in the
ranking.  What comes before a job in a ranking has no higher score, and the score of a job is
made of the instant it was submitted, its class, and a penalty for the load of its tenant.  So
only jobs that were submitted before an instant, the *horizon* of the waiting job, can come
before it.

* `CandidatesOfJobs` is what the operations under way keep: a candidate has the start and the
  class of the job it names, however long ago it was gathered, and the targets of a claiming
  operation are in the order of their scores.
* `oldPending` counts the pending shards of the jobs up to the horizon.  A claim that passes
  over the job takes one of them away, and only a requeue, or a submission up to the horizon,
  brings one.

`passed_over_at_most` is the bound that follows, in every interleaving of any number of calls:
once the clock has passed the horizon, a job is passed over no more often than there are such
shards, and once more for each shard that is requeued.
-/

namespace ReproitCloud

open Lib

/-! ## A waiting job and its horizon -/

/-- All shards of a job, whatever their state. -/
def jobShards (q : QueueStore) (job : String) : Nat := q.shards.count fun k _ => k.1 = job

/-- A job that waits: the instant it was submitted, its number of shards, and the number of
shards that its tenant is taken to run in its tier. -/
structure WaitingJob where
  target : ClaimTarget
  start : Int
  seeds : Nat
  load : Nat
  /-- The instants are far from the ends of an `i64`. -/
  inRange : 0 ≤ start ∧ start + fairnessPenalty * load < 2 ^ 62

/-- How much later an interactive job may come and still be as urgent. -/
def headStart : ServiceClass → Int
  | .interactive => 0
  | .batch => batchSlaS - interactiveSlaS + interactiveBoost

namespace WaitingJob

def serviceClass (j : WaitingJob) : ServiceClass := classFor "fuzz" j.seeds

/-- What is submitted later than this cannot come before the job. -/
def horizon (j : WaitingJob) : Int :=
  j.start + headStart j.serviceClass + fairnessPenalty * j.load

/-- The job is in the queue of its tenant. -/
def SubmittedIn (j : WaitingJob) (s : Fleet) : Prop :=
  ∃ q row, s.tenants.get? j.target.orgId = some q ∧ q.jobs.get? j.target.jobId = some row ∧
    epochOf row.startedAt = j.start ∧ jobShards q j.target.jobId = j.seeds

end WaitingJob

/-- The candidate has the start and the class of the job it names. -/
def CandidateOfJob (s : Fleet) (c : Candidate × ClaimTarget) : Prop :=
  ∃ q row, s.tenants.get? c.2.orgId = some q ∧ q.jobs.get? c.2.jobId = some row ∧
    c.1.serviceClass = classFor "fuzz" (jobShards q c.2.jobId) ∧
    c.1.deadlineUnix = deadlineUnix (epochOf row.startedAt) c.1.serviceClass

/-- The row that was read has the start and the shards of its job. -/
def ReadOfJob (s : Fleet) (org : Int64) (job : PendingJob) : Prop :=
  ∃ q row, s.tenants.get? org = some q ∧ q.jobs.get? job.jobId = some row ∧
    job.startedAt = toRfc3339 row.startedAt ∧ job.seeds = jobShards q job.jobId

/-- A candidate with no higher score is of a job that was submitted up to the horizon. -/
theorem start_le_horizon {j : WaitingJob} {c w : Candidate} {start : Int}
    (hscore : claimScore c 0 ≤ claimScore w 0)
    (hc : c.deadlineUnix = deadlineUnix start c.serviceClass)
    (hw : w.deadlineUnix = deadlineUnix j.start w.serviceClass)
    (hclass : w.serviceClass = j.serviceClass) (hload : w.tenantRunning.toNat ≤ j.load) :
    start ≤ j.horizon := by
  obtain ⟨hpos, hrange⟩ := j.inRange
  have hover : ((w.tenantRunning.toNat - w.tenantFairShare.toNat : Nat) : Int) ≤ j.load :=
    Int.ofNat_le.2 (le_trans (Nat.sub_le _ _) hload)
  have hnonneg : (0 : Int) ≤ (c.tenantRunning.toNat - c.tenantFairShare.toNat : Nat) :=
    Int.natCast_nonneg _
  rw [WaitingJob.horizon, ← hclass]
  simp only [claimScore, hc, hw] at hscore
  generalize ((w.tenantRunning.toNat - w.tenantFairShare.toNat : Nat) : Int) = hidden at *
  generalize ((c.tenantRunning.toNat - c.tenantFairShare.toNat : Nat) : Int) = share at *
  simp only [fairnessPenalty] at *
  clear hc hw hclass
  generalize c.serviceClass = kind at *
  generalize w.serviceClass = kind' at *
  cases kind <;> cases kind' <;>
    simp only [deadlineUnix, saturatingAdd, headStart, interactiveSlaS, batchSlaS,
      interactiveBoost] at * <;> omega

/-! ## Jobs stay as they are -/

/-- The jobs that were there have the start and the shards they had. -/
def KeepsJobs (q q' : QueueStore) : Prop :=
  ∀ job row, q.jobs.get? job = some row → ∃ row', q'.jobs.get? job = some row' ∧
    row'.startedAt = row.startedAt ∧ jobShards q' job = jobShards q job

section Keeps

variable {q q' : QueueStore}

theorem KeepsJobs.refl (q : QueueStore) : KeepsJobs q q := fun _ row h => ⟨row, h, rfl, rfl⟩

/-- An update of shards keeps their keys. -/
theorem jobShards_updateShards (p : ShardKey → ShardRow → Bool) (f : ShardRow → ShardRow)
    (job : String) : jobShards (q.updateShards p f) job = jobShards q job := by
  simp only [jobShards, QueueStore.updateShards_shards, Table.count, Table.update, List.countP_map]
  rfl

theorem keepsJobs_updateShards (p : ShardKey → ShardRow → Bool) (f : ShardRow → ShardRow) :
    KeepsJobs q (q.updateShards p f) :=
  fun _ row h => ⟨row, h, rfl, jobShards_updateShards p f _⟩

/-- The shards of a new job are of no job that was there. -/
theorem keepsJobs_insertJob {job : Job} (h : insertJob q job = some q') : KeepsJobs q q' := by
  obtain ⟨hfresh, hjobs, hshards⟩ := insertJob_spec h
  intro id row hrow
  have hne : id ≠ job.id := by
    rintro rfl
    rw [Table.has, hrow] at hfresh
    cases hfresh
  refine ⟨row, by rw [hjobs, if_neg hne, hrow], rfl, ?_⟩
  rw [jobShards, Table.count, hshards, List.countP_append, jobShards, Table.count,
    Nat.add_eq_left, List.countP_eq_zero]
  intro r hr
  obtain ⟨seed, -, rfl⟩ := List.mem_map.1 hr
  simpa using hne.symm

theorem keepsJobs_finalizeJob (now : Micros) (job : String) (states transitions : Nat) :
    KeepsJobs q (finalizeJob q now job states transitions) := by
  intro id row hrow
  refine ⟨_, by rw [finalizeJob, Table.get?_update, hrow, Option.map_some], ?_, rfl⟩
  split <;> rfl

theorem QueueStep.keepsJobs (h : QueueStep q q') : KeepsJobs q q' := by
  cases h with
  | insert hins => exact keepsJobs_insertJob hins
  | claim hclaim =>
    obtain ⟨s, -, -, -, -, -, -, rfl⟩ := claimShard_spec hclaim
    exact keepsJobs_updateShards _ _
  | touch => exact keepsJobs_updateShards _ _
  | set => exact keepsJobs_updateShards _ _
  | requeue => exact keepsJobs_updateShards _ _
  | finalize => exact keepsJobs_finalizeJob _ _ _ _

end Keeps

/-! ## The shards up to a horizon -/

/-- A shard that waits, of a job that was submitted up to the horizon. -/
def isOld (horizon : Int) (q : QueueStore) (k : ShardKey) (r : ShardRow) : Bool :=
  r.state = .pending && (q.jobs.get? k.1).any fun row => epochOf row.startedAt ≤ horizon

/-- The old shards of a tenant. -/
def oldShards (horizon : Int) (q : QueueStore) : Nat := q.shards.count (isOld horizon q)

/-- The old shards of all tenants. -/
def oldPending (horizon : Int) (s : Fleet) : Int :=
  s.tenants.sum fun _ q => (oldShards horizon q : Int)

section OldShards

variable {q q' : QueueStore} {horizon : Int}

/-- An update that makes no shard wait makes none old. -/
theorem oldShards_updateShards_le {p : ShardKey → ShardRow → Bool} {f : ShardRow → ShardRow}
    (h : ∀ k r, p k r = true → (f r).state = .pending → r.state = .pending) :
    oldShards horizon (q.updateShards p f) ≤ oldShards horizon q := by
  refine Table.count_update_le fun r _ hp hold => ?_
  simp only [isOld, Bool.and_eq_true, decide_eq_true_eq] at hold ⊢
  exact ⟨h r.1 r.2 hp hold.1, hold.2⟩

/-- An update makes no more shards old than it touches. -/
theorem oldShards_updateShards_add_le (p : ShardKey → ShardRow → Bool) (f : ShardRow → ShardRow) :
    oldShards horizon (q.updateShards p f) ≤ oldShards horizon q + q.shards.count p := by
  have heither : oldShards horizon (q.updateShards p f) ≤
      q.shards.rows.countP fun r => isOld horizon q r.1 r.2 || p r.1 r.2 := by
    rw [oldShards, QueueStore.updateShards_shards, Table.count, Table.update, List.countP_map]
    refine List.countP_mono_left fun r _ hold => ?_
    cases hp : p r.1 r.2 with
    | true => simp
    | false =>
      simp only [Function.comp_apply, hp, Bool.false_eq_true, if_false] at hold
      rw [Bool.or_false]
      exact hold
  refine le_trans heither ?_
  rw [oldShards, Table.count, Table.count]
  induction q.shards.rows with
  | nil => simp
  | cons r rows ih =>
    simp only [List.countP_cons]
    cases isOld horizon q r.1 r.2 <;> cases p r.1 r.2 <;> simp <;> omega

/-- A claim of a shard of an old job takes one away. -/
theorem oldShards_claim {locked : List ShardKey} {now : Micros} {worker : String}
    {capabilities : List String} {job : String} {c : ClaimedShard} {row : JobRow}
    (h : claimShard q locked now worker capabilities (some job) = some (c, q'))
    (hrow : q.jobs.get? job = some row) (hold : epochOf row.startedAt ≤ horizon) :
    oldShards horizon q' + 1 = oldShards horizon q := by
  obtain ⟨r, hr, hpending, -, hjob, -, -, rfl⟩ := claimShard_spec h
  have hkey : c.key.1 = job := hjob job rfl
  have hchange := Table.count_change (t := q.shards) (k := c.key)
    (u := (q.updateShards (fun k _ => k = c.key) (ShardRow.claim now worker)).shards)
    (fun k hk => by simp [QueueStore.get?_updateShards, hk]) (isOld horizon q)
  have hbefore : (q.shards.get? c.key).any (isOld horizon q c.key) = true := by
    simp [hr, isOld, hpending, hkey, hrow, hold]
  have hafter : ((q.updateShards (fun k _ => k = c.key)
      (ShardRow.claim now worker)).shards.get? c.key).any (isOld horizon q c.key) = false := by
    simp [QueueStore.get?_updateShards, hr, isOld, ShardRow.claim]
  rw [hbefore, hafter] at hchange
  exact hchange

theorem oldShards_claim_le {locked : List ShardKey} {now : Micros} {worker : String}
    {capabilities : List String} {job : Option String} {c : ClaimedShard}
    (h : claimShard q locked now worker capabilities job = some (c, q')) :
    oldShards horizon q' ≤ oldShards horizon q := by
  obtain ⟨r, -, -, -, -, -, -, rfl⟩ := claimShard_spec h
  exact oldShards_updateShards_le fun _ _ _ hf => by cases hf

/-- A job that is submitted after the horizon brings no old shard. -/
theorem oldShards_insertJob {job : Job} (h : insertJob q job = some q')
    (hlater : horizon < epochOf job.startedAt) : oldShards horizon q' = oldShards horizon q := by
  obtain ⟨hfresh, hjobs, hshards⟩ := insertJob_spec h
  have hnew : (job.seeds.map fun seed => ((job.id, seed),
      ({ state := .pending, backend := job.backend } : ShardRow))).countP
      (fun r => isOld horizon q' r.1 r.2) = 0 := by
    rw [List.countP_eq_zero]
    intro r hr
    obtain ⟨seed, -, rfl⟩ := List.mem_map.1 hr
    simpa [isOld, hjobs] using hlater
  rw [oldShards, Table.count, hshards, List.countP_append, hnew, Nat.add_zero, oldShards,
    Table.count]
  refine List.countP_congr fun r hr => ?_
  have hne : r.1.1 ≠ job.id := by
    intro heq
    have hjob := q.owned r hr
    rw [heq, hfresh] at hjob
    cases hjob
  simp [isOld, hjobs, hne]

theorem oldShards_finalizeJob (now : Micros) (job : String) (states transitions : Nat) :
    oldShards horizon (finalizeJob q now job states transitions) = oldShards horizon q := by
  refine Table.count_congr fun k r => and_congr_right fun _ => ?_
  simp only [isOld, finalizeJob, Table.get?_update]
  cases q.jobs.get? k.1 with
  | none => rfl
  | some row =>
    simp only [Option.map_some, Option.any_some]
    split <;> rfl

end OldShards

/-- A write to one tenant changes the sum by that tenant. -/
theorem oldPending_setTenant {s s' : Fleet} {org : Int64} {q q' : QueueStore} (horizon : Int)
    (hq : s.tenants.get? org = some q) (hs' : s'.tenants = (s.setTenant org q').tenants) :
    oldPending horizon s' + oldShards horizon q =
      oldPending horizon s + oldShards horizon q' := by
  have hupsert : s'.tenants = s.tenants.upsert org q' fun _ => q' := by
    have hhas : s.tenants.has org = true := by
      rw [Table.has, hq]
      rfl
    rw [hs', Fleet.setTenant, Table.upsert, dif_neg (by simp [hhas])]
  have hsplit := Table.sum_split s.tenants (fun _ r => (oldShards horizon r : Int)) org
  rw [hq, Option.elim_some] at hsplit
  rw [oldPending, hupsert, Table.sum_upsert, hq, Option.elim_some, oldPending, hsplit]
  omega

/-- A new tenant has no old shards. -/
theorem oldPending_insert {s s' : Fleet} {org : Int64} {tenants : Table Int64 QueueStore}
    (horizon : Int) (hins : s.tenants.insert? org QueueStore.empty = some tenants)
    (hs' : s'.tenants = tenants) : oldPending horizon s' = oldPending horizon s := by
  rw [oldPending, hs', Table.sum, Table.rows_insert? hins, List.map_append, List.sum_append]
  simp only [List.map_cons, List.map_nil, List.sum_cons, List.sum_nil, add_zero]
  exact add_zero _

/-! ## What an event does to the queues -/

/-- The shards that an event requeues. -/
def requeuedBy (s : Fleet) : FleetEvent → Nat
  | .advance i chance => match s.inFlight[i]? with
      | some (.sweeping (org :: _)) =>
        if chance.fails then 0
        else (s.tenants.get? org).elim 0 fun q => (requeueStranded q chance.now requeueStale).1
      | _ => 0
  | _ => 0

/-- What an event does to the queues, and to the log of the claims. -/
inductive FleetMove (s : Fleet) (e : FleetEvent) (s' : Fleet) : Prop
  | same : s'.tenants = s.tenants → s'.issued = s.issued → FleetMove s e s'
  | provisioned {org : Int64} {tenants : Table Int64 QueueStore} :
      s.tenants.insert? org QueueStore.empty = some tenants → s'.tenants = tenants →
      s'.issued = s.issued → FleetMove s e s'
  | submitted {org : Int64} {spec : JobSpec} {id : String} {now : Micros} {q q' : QueueStore} :
      e = .submit org spec id now → s.tenants.get? org = some q →
      insertJob q (Job.new spec id now) = some q' →
      s'.tenants = (s.setTenant org q').tenants → s'.issued = s.issued → FleetMove s e s'
  | requeued {org : Int64} {now : Micros} {q : QueueStore} :
      s.tenants.get? org = some q → requeuedBy s e = (requeueStranded q now requeueStale).1 →
      s'.tenants = (s.setTenant org (requeueStranded q now requeueStale).2).tenants →
      s'.issued = s.issued → FleetMove s e s'
  | claimed {i : Nat} {chance : Chance} {poll : Poll} {cand : Candidate} {target : ClaimTarget}
      {rest : List (Candidate × ClaimTarget)} {q q' : QueueStore} {c : ClaimedShard} :
      e = .advance i chance →
      s.inFlight[i]? = some (.claiming poll ((cand, target) :: rest)) →
      s.tenants.get? target.orgId = some q →
      claimShard q chance.locked chance.now poll.worker poll.capabilities (some target.jobId) =
        some (c, q') →
      s'.tenants = (s.setTenant target.orgId q').tenants → FleetMove s e s'
  /-- A heartbeat, a result, a start or the end of a job. -/
  | updated {org : Int64} {q q' : QueueStore} :
      s.tenants.get? org = some q → QueueStep q q' →
      (∀ horizon, oldShards horizon q' ≤ oldShards horizon q) →
      s'.tenants = (s.setTenant org q').tenants → s'.issued = s.issued → FleetMove s e s'

section Change

variable {cfg : SchedulerConfig} {s s' : Fleet}

theorem fleetMove_advance {i : Nat} {chance : Chance} {op : Operation}
    (hop : s.inFlight[i]? = some op)
    (htenants : s'.tenants = (stepOperation cfg s chance op).1.tenants)
    (hissued : s'.issued = (stepOperation cfg s chance op).1.issued) :
    FleetMove s (.advance i chance) s' := by
  have heffect := operationEffect_step cfg s chance op
  generalize (stepOperation cfg s chance op).1 = t at heffect htenants hissued
  cases heffect with
  | nothing | mark | clear => exact .same htenants hissued
  | requeue hq hfails =>
    refine .requeued hq ?_ htenants hissued
    simp [requeuedBy, hop, hfails, hq]
  | claim hq hclaim => exact .claimed rfl hop hq hclaim htenants
  | finish hq =>
    exact .updated hq (.finalize _ _ _ _ _) (fun _ => (oldShards_finalizeJob ..).le) htenants
      hissued

theorem oldShards_setShard_le (horizon : Int) (q : QueueStore) (job : String) (seed : UInt32)
    (worker : String) {state : ShardState} (report : Option String) (durationS : UInt64)
    (hstate : state ≠ .pending) :
    oldShards horizon (setShard q job seed worker state report durationS).2 ≤
      oldShards horizon q :=
  oldShards_updateShards_le fun _ _ _ hf => absurd hf hstate

theorem fleetMove_step {e : FleetEvent} (hstep : stepFleet cfg s e = some s') :
    FleetMove s e s' := by
  cases e with
  | provision org =>
    simp only [stepFleet, Option.map_eq_some_iff] at hstep
    obtain ⟨tenants, hins, rfl⟩ := hstep
    exact .provisioned hins rfl rfl
  | submit org spec id now =>
    simp only [stepFleet] at hstep
    split at hstep
    · cases hstep
    · simp only [Option.bind_eq_some_iff, Option.map_eq_some_iff] at hstep
      obtain ⟨q, hq, q', hins, rfl⟩ := hstep
      exact .submitted rfl hq hins rfl rfl
  | poll workerId uuid capabilities =>
    simp only [stepFleet] at hstep
    split at hstep
    · cases hstep
      exact .same rfl rfl
    · cases hstep
  | sweep orgs =>
    cases hstep
    exact .same rfl rfl
  | advance i chance =>
    simp only [stepFleet, Option.map_eq_some_iff] at hstep
    obtain ⟨op, hop, rfl⟩ := hstep
    exact fleetMove_advance hop rfl rfl
  | abandon i =>
    simp only [stepFleet] at hstep
    split at hstep
    · cases hstep
      exact .same rfl rfl
    · cases hstep
  | heartbeat i chance =>
    simp only [stepFleet, Option.map_eq_some_iff] at hstep
    obtain ⟨e, -, rfl⟩ := hstep
    rcases heartbeat_cases s chance e.token with heq | ⟨org, job, seed, worker, q, -, hq, -, heq⟩
    · rw [heq]
      exact .same rfl rfl
    · rw [heq]
      exact .updated hq (.touch _ _ _ _ _)
        (fun _ => oldShards_updateShards_le fun _ _ _ hf => hf) rfl rfl
  | result i chance res =>
    simp only [stepFleet, Option.map_eq_some_iff] at hstep
    obtain ⟨e, -, rfl⟩ := hstep
    rcases result_cases s chance e.token res with
      heq | ⟨org, job, seed, worker, q, state, -, hq, hterminal, -, heq⟩
    · rw [heq]
      exact .same rfl rfl
    · have hstate : state ≠ .pending := by
        rintro rfl
        cases hterminal
      rw [heq]
      exact .updated hq (.set _ _ _ _ _ _ hstate)
        (fun _ => oldShards_setShard_le _ _ _ _ _ _ _ hstate) rfl rfl
  | start i chance =>
    simp only [stepFleet, Option.map_eq_some_iff] at hstep
    obtain ⟨e, -, rfl⟩ := hstep
    rcases startEmbedded_cases s chance e.org e.shard with heq | ⟨q, hq, -, heq⟩
    · rw [heq]
      exact .same rfl rfl
    · have hstate : ShardState.running ≠ .pending := by decide
      rw [heq]
      exact .updated hq (.set _ _ _ _ _ _ hstate)
        (fun _ => oldShards_setShard_le _ _ _ _ _ _ _ hstate) rfl rfl

/-- Every tenant is still there, with the jobs it had. -/
def FleetKeeps (s s' : Fleet) : Prop :=
  ∀ org q, s.tenants.get? org = some q → ∃ q', s'.tenants.get? org = some q' ∧ KeepsJobs q q'

theorem fleetKeeps_setTenant {org : Int64} {q q' : QueueStore} (hq : s.tenants.get? org = some q)
    (hstep : QueueStep q q') (hs' : s'.tenants = (s.setTenant org q').tenants) :
    FleetKeeps s s' := by
  intro k r hr
  rw [hs', Fleet.get?_setTenant hq]
  by_cases hk : k = org
  · subst hk
    rw [hq, Option.some.injEq] at hr
    subst hr
    exact ⟨q', if_pos rfl, hstep.keepsJobs⟩
  · exact ⟨r, by rw [if_neg hk, hr], .refl r⟩

theorem FleetMove.keeps {e : FleetEvent} (h : FleetMove s e s') : FleetKeeps s s' := by
  cases h with
  | same ht => exact fun org q hq => ⟨q, ht ▸ hq, .refl q⟩
  | @provisioned org tenants hins ht =>
    intro k q hq
    have hne : k ≠ org := by
      rintro rfl
      have hfresh := Table.has_of_insert? hins
      rw [Table.has, hq] at hfresh
      cases hfresh
    exact ⟨q, by rw [ht, Table.get?_insert? hins, if_neg hne, hq], .refl q⟩
  | submitted _ hq hins ht => exact fleetKeeps_setTenant hq (.insert hins) ht
  | requeued hq _ ht => exact fleetKeeps_setTenant hq (.requeue _ _ _) ht
  | claimed _ _ hq hclaim ht => exact fleetKeeps_setTenant hq (.claim hclaim) ht
  | updated hq hstep _ ht => exact fleetKeeps_setTenant hq hstep ht

end Change

/-! ## Candidates stay those of their jobs -/

/-- The candidates of an operation are of the jobs they name, and a ranking is in the order
of the scores. -/
def CandidatesOfJobs (s : Fleet) : Operation → Prop
  | .gathering _ _ seen | .counting _ _ _ seen | .clearing _ _ _ seen =>
      ∀ c ∈ seen.cands, CandidateOfJob s c
  | .loading _ org jobs _ seen =>
      (∀ c ∈ seen.cands, CandidateOfJob s c) ∧ ∀ job ∈ jobs, ReadOfJob s org job
  | .claiming _ order => (∀ c ∈ order, CandidateOfJob s c) ∧
      order.Pairwise fun a b => claimScore a.1 0 ≤ claimScore b.1 0
  | _ => True

section Candidates

variable {cfg : SchedulerConfig} {s s' : Fleet}

theorem CandidateOfJob.keeps {c : Candidate × ClaimTarget} (hkeeps : FleetKeeps s s')
    (h : CandidateOfJob s c) : CandidateOfJob s' c := by
  obtain ⟨q, row, hq, hrow, hclass, hdeadline⟩ := h
  obtain ⟨q', hq', hjobs⟩ := hkeeps _ q hq
  obtain ⟨row', hrow', hstart, hshards⟩ := hjobs _ row hrow
  exact ⟨q', row', hq', hrow', by rw [hshards, hclass], by rw [hstart, hdeadline]⟩

theorem ReadOfJob.keeps {org : Int64} {job : PendingJob} (hkeeps : FleetKeeps s s')
    (h : ReadOfJob s org job) : ReadOfJob s' org job := by
  obtain ⟨q, row, hq, hrow, hstart, hseeds⟩ := h
  obtain ⟨q', hq', hjobs⟩ := hkeeps _ q hq
  obtain ⟨row', hrow', hstart', hshards⟩ := hjobs _ row hrow
  exact ⟨q', row', hq', hrow', by rw [hstart', hstart], by rw [hshards, hseeds]⟩

theorem WaitingJob.SubmittedIn.keeps {j : WaitingJob} (hkeeps : FleetKeeps s s')
    (h : j.SubmittedIn s) : j.SubmittedIn s' := by
  obtain ⟨q, row, hq, hrow, hstart, hseeds⟩ := h
  obtain ⟨q', hq', hjobs⟩ := hkeeps _ q hq
  obtain ⟨row', hrow', hstart', hshards⟩ := hjobs _ row hrow
  exact ⟨q', row', hq', hrow', by rw [hstart', hstart], by rw [hshards, hseeds]⟩

theorem CandidatesOfJobs.keeps {op : Operation} (hkeeps : FleetKeeps s s')
    (h : CandidatesOfJobs s op) : CandidatesOfJobs s' op := by
  cases op with
  | gathering | counting | clearing => exact fun c hc => (h c hc).keeps hkeeps
  | loading =>
    exact ⟨fun c hc => (h.1 c hc).keeps hkeeps, fun job hjob => (h.2 job hjob).keeps hkeeps⟩
  | claiming => exact ⟨fun c hc => (h.1 c hc).keeps hkeeps, h.2⟩
  | _ => trivial

theorem readOfJob_pendingJobs {org : Int64} {q : QueueStore} {capabilities : List String}
    {job : PendingJob} (hq : s.tenants.get? org = some q)
    (h : job ∈ pendingJobs q capabilities) : ReadOfJob s org job := by
  rw [pendingJobs_eq_take] at h
  obtain ⟨k, r, row, -, -, -, hrow, rfl⟩ := mem_servedJobs.1 (List.mem_of_mem_take h)
  exact ⟨q, row, hq, hrow, rfl, rfl⟩

theorem candidateOfJob_addTenant {org : Int64} {nowUnix : Int} {rows : List (String × Nat)}
    {jobs : List PendingJob} {seen : Gathered} (hseen : ∀ c ∈ seen.cands, CandidateOfJob s c)
    (hjobs : ∀ job ∈ jobs, ReadOfJob s org job) :
    ∀ c ∈ (seen.addTenant cfg nowUnix org rows jobs).cands, CandidateOfJob s c := by
  intro c hc
  rcases List.mem_append.1 hc with hc | hc
  · exact hseen c hc
  · obtain ⟨job, hjob, rfl⟩ := List.mem_map.1 hc
    obtain ⟨q, row, hq, hrow, hstart, hseeds⟩ := hjobs job hjob
    refine ⟨q, row, hq, hrow, by rw [← hseeds]; rfl, ?_⟩
    simp [candidateOf, hstart]

/-- A ranking has the candidates that were gathered, up to the fair share. -/
theorem candidateOfJob_ranked {nowUnix : Int} {seen : Gathered}
    (hseen : ∀ c ∈ seen.cands, CandidateOfJob s c) :
    ∀ c ∈ seen.ranked nowUnix, CandidateOfJob s c := by
  intro c hc
  simp only [Gathered.ranked, List.mem_filterMap] at hc
  obtain ⟨i, -, hci⟩ := hc
  obtain ⟨c', hc', rfl⟩ := List.mem_map.1 (List.mem_of_getElem? hci)
  exact hseen c' hc'

theorem claimScore_le_of_claimKey_le {nowUnix : Int} {a b : Candidate}
    (h : claimKey nowUnix a ≤ claimKey nowUnix b) : claimScore a 0 ≤ claimScore b 0 := by
  rw [claimKey_le_iff, claimKey, claimKey, Prod.Lex.toLex_le_toLex] at h
  rcases h with hlt | ⟨heq, -⟩
  · exact hlt.le
  · exact heq.le

/-- A ranking is in the order of the scores. -/
theorem ranked_pairwise (seen : Gathered) (nowUnix : Int) :
    (seen.ranked nowUnix).Pairwise fun a b => claimScore a.1 0 ≤ claimScore b.1 0 := by
  have hread : ∀ r ∈ rankedPairs (seen.candidates.map Prod.fst) nowUnix, ∀ x,
      seen.candidates[r.2]? = some x → r.1 = x.1 := by
    intro r hr x hx
    have hget := (mem_rankedPairs.1 hr).1
    rw [List.getElem?_map, hx, Option.map_some, Option.some.injEq] at hget
    exact hget.symm
  show ((rankedPairs (seen.candidates.map Prod.fst) nowUnix).map Prod.snd |>.filterMap
    (seen.candidates[·]?)).Pairwise _
  rw [List.filterMap_map, List.pairwise_filterMap]
  refine (rankedPairs_ranked (seen.candidates.map Prod.fst) nowUnix).imp_of_mem ?_
  intro r r' hr hr' hranked x hx y hy
  rw [← hread r hr x hx, ← hread r' hr' y hy]
  exact claimScore_le_of_claimKey_le hranked.le

/-- An operation goes on with candidates of their jobs. -/
theorem candidatesOfJobs_step {chance : Chance} {op next : Operation} (h : CandidatesOfJobs s op)
    (hnext : (stepOperation cfg s chance op).2 = some next) : CandidatesOfJobs s next := by
  cases op with
  | submitted org => cases hnext
  | sweeping todo =>
    cases todo with
    | nil => cases hnext
    | cons org todo =>
      simp only [stepOperation] at hnext
      repeat' split at hnext
      all_goals cases hnext; trivial
  | remarking org todo => cases hnext; trivial
  | gathering poll todo seen =>
    cases todo with
    | nil =>
      cases hnext
      exact ⟨candidateOfJob_ranked h, ranked_pairwise seen _⟩
    | cons org todo =>
      simp only [stepOperation] at hnext
      split at hnext
      · cases hnext
        exact h
      · rename_i q hq
        split at hnext
        · cases hnext
          exact h
        · split at hnext
          · cases hnext
            exact h
          · cases hnext
            exact ⟨h, fun job hjob => readOfJob_pendingJobs hq hjob⟩
  | counting poll org todo seen =>
    simp only [stepOperation] at hnext
    repeat' split at hnext
    all_goals cases hnext; exact h
  | clearing poll org todo seen => cases hnext; exact h
  | loading poll org jobs todo seen =>
    cases hnext
    exact candidateOfJob_addTenant h.1 h.2
  | claiming poll order =>
    cases order with
    | nil => cases hnext
    | cons first rest =>
      have hrest : CandidatesOfJobs s (.claiming poll rest) :=
        ⟨fun c hc => h.1 c (List.mem_cons_of_mem _ hc), (List.pairwise_cons.1 h.2).2⟩
      obtain ⟨cand, target⟩ := first
      simp only [stepOperation] at hnext
      split at hnext
      · cases hnext
        exact hrest
      · split at hnext
        · cases hnext
          exact hrest
        · split at hnext
          · cases hnext
            exact hrest
          · cases hnext
  | reported org job =>
    simp only [stepOperation] at hnext
    split at hnext
    · cases hnext
    · split at hnext
      · cases hnext
      · cases hnext
        trivial
  | finishing org job =>
    simp only [stepOperation] at hnext
    split at hnext <;> cases hnext

/-- Every operation under way has candidates of their jobs. -/
def AllOfJobs (s : Fleet) : Prop := ∀ op ∈ s.inFlight, CandidatesOfJobs s op

theorem candidatesOfJobs_append (op : Operation) {ops : List Operation} (h : AllOfJobs s)
    (hop : CandidatesOfJobs s op) (hops : ops = s.inFlight ++ [op]) :
    ∀ o ∈ ops, CandidatesOfJobs s o := by
  intro o ho
  rw [hops] at ho
  rcases List.mem_append.1 ho with ho | ho
  · exact h o ho
  · rw [List.mem_singleton.1 ho]
    exact hop

/-- The operations after an event were under way, have gone on, or have just begun. -/
theorem candidatesOfJobs_inFlight {e : FleetEvent} (h : AllOfJobs s)
    (hstep : stepFleet cfg s e = some s') : ∀ op ∈ s'.inFlight, CandidatesOfJobs s op := by
  cases e with
  | provision org =>
    simp only [stepFleet, Option.map_eq_some_iff] at hstep
    obtain ⟨tenants, -, rfl⟩ := hstep
    exact h
  | submit org spec id now =>
    simp only [stepFleet] at hstep
    split at hstep
    · cases hstep
    · simp only [Option.bind_eq_some_iff, Option.map_eq_some_iff] at hstep
      obtain ⟨q, -, q', -, rfl⟩ := hstep
      exact candidatesOfJobs_append (.submitted org) h trivial rfl
  | poll workerId uuid capabilities =>
    simp only [stepFleet] at hstep
    split at hstep
    · cases hstep
      exact candidatesOfJobs_append _ h (fun _ hc => absurd hc List.not_mem_nil) rfl
    · cases hstep
  | sweep orgs =>
    cases hstep
    exact candidatesOfJobs_append (.sweeping orgs) h trivial rfl
  | advance i chance =>
    simp only [stepFleet, Option.map_eq_some_iff] at hstep
    obtain ⟨op, hop, rfl⟩ := hstep
    intro o ho
    rcases mem_replaceAt.1 ho with ho | ho
    · exact h o ((mem_iff_replaceAt hop).2 (.inl ho))
    · exact candidatesOfJobs_step (h op (List.mem_of_getElem? hop)) ho
  | abandon i =>
    simp only [stepFleet] at hstep
    split at hstep
    · rename_i hi
      cases hstep
      exact fun op hop => h op ((mem_iff_replaceAt (List.getElem?_eq_getElem hi)).2 (.inl hop))
    · cases hstep
  | heartbeat i chance =>
    simp only [stepFleet, Option.map_eq_some_iff] at hstep
    obtain ⟨e, -, rfl⟩ := hstep
    rcases heartbeat_cases s chance e.token with heq | ⟨_, _, _, _, _, -, -, -, heq⟩ <;>
      · rw [heq]
        exact h
  | result i chance res =>
    simp only [stepFleet, Option.map_eq_some_iff] at hstep
    obtain ⟨e, -, rfl⟩ := hstep
    rcases result_cases s chance e.token res with heq | ⟨org, job, _, _, _, _, -, -, -, -, heq⟩
    · rw [heq]
      exact h
    · rw [heq]
      exact candidatesOfJobs_append (.reported org job) h trivial rfl
  | start i chance =>
    simp only [stepFleet, Option.map_eq_some_iff] at hstep
    obtain ⟨e, -, rfl⟩ := hstep
    rcases startEmbedded_cases s chance e.org e.shard with heq | ⟨_, -, -, heq⟩ <;>
      · rw [heq]
        exact h

theorem allOfJobs_step {e : FleetEvent} (h : AllOfJobs s) (hstep : stepFleet cfg s e = some s') :
    AllOfJobs s' :=
  fun op hop => (candidatesOfJobs_inFlight h hstep op hop).keeps (fleetMove_step hstep).keeps

theorem allOfJobs_reached (h : Reaches (FleetStep cfg) {} s) : AllOfJobs s :=
  h.invariant AllOfJobs (fun _ _ _ hi hstep => allOfJobs_step hi hstep)
    fun _ hop => absurd hop List.not_mem_nil

end Candidates

/-! ## Watching a job -/

/-- The event hands out a shard of another job while the job stands behind it in the ranking,
with no more load than it is taken to have. -/
def passesOver (j : WaitingJob) (s s' : Fleet) : FleetEvent → Bool
  | .advance i _ => match s.inFlight[i]? with
      | some (.claiming _ ((_, target) :: rest)) =>
        s.issued.length < s'.issued.length && target ≠ j.target &&
          rest.any fun c => c.2 = j.target && c.1.tenantRunning.toNat ≤ j.load
      | _ => false
  | _ => false

/-- A fleet, with how often a job was passed over and how many shards were requeued. -/
structure Watch where
  fleet : Fleet
  passedOver : Nat := 0
  requeued : Nat := 0

/-- A step of the fleet, watched. -/
def stepWatch (cfg : SchedulerConfig) (j : WaitingJob) (w : Watch) (e : FleetEvent) :
    Option Watch :=
  (stepFleet cfg w.fleet e).map fun s' =>
    ⟨s', w.passedOver + if passesOver j w.fleet s' e then 1 else 0,
      w.requeued + requeuedBy w.fleet e⟩

/-- What is submitted is submitted after the horizon of the job. -/
def SubmitsLater (j : WaitingJob) : Watch → FleetEvent → Watch → Prop
  | _, .submit _ _ _ now, _ => j.horizon < epochOf now
  | _, _, _ => True

section Watching

variable {cfg : SchedulerConfig} {j : WaitingJob} {s s' : Fleet}

theorem passesOver_eq_true {e : FleetEvent} (h : passesOver j s s' e = true) :
    ∃ i chance poll cand target rest c, e = .advance i chance ∧
      s.inFlight[i]? = some (.claiming poll ((cand, target) :: rest)) ∧
      s.issued.length < s'.issued.length ∧ (c, j.target) ∈ rest ∧
      c.tenantRunning.toNat ≤ j.load := by
  cases e with
  | advance i chance =>
    simp only [passesOver] at h
    split at h
    · rename_i poll cand target rest hop
      simp only [Bool.and_eq_true, decide_eq_true_eq, List.any_eq_true] at h
      obtain ⟨⟨hissued, -⟩, ⟨c, t⟩, hmem, rfl, hload⟩ := h
      exact ⟨i, chance, poll, cand, target, rest, c, rfl, hop, hissued, hmem, hload⟩
    · cases h
  | _ => cases h

/-- The job that is taken in the place of another was submitted up to the horizon. -/
theorem taken_is_old {poll : Poll} {cand c : Candidate} {target : ClaimTarget}
    {rest : List (Candidate × ClaimTarget)} (hjob : j.SubmittedIn s)
    (hsound : CandidatesOfJobs s (.claiming poll ((cand, target) :: rest)))
    (hmem : (c, j.target) ∈ rest) (hload : c.tenantRunning.toNat ≤ j.load) :
    ∃ q row, s.tenants.get? target.orgId = some q ∧ q.jobs.get? target.jobId = some row ∧
      epochOf row.startedAt ≤ j.horizon := by
  obtain ⟨hcands, hsorted⟩ := hsound
  obtain ⟨q, row, hq, hrow, -, hdeadline⟩ := hcands _ List.mem_cons_self
  obtain ⟨q', row', hq', hrow', hclass', hdeadline'⟩ := hcands _ (List.mem_cons_of_mem _ hmem)
  obtain ⟨q'', row'', hq'', hrow'', hstart, hseeds⟩ := hjob
  rw [hq', Option.some.injEq] at hq''
  subst hq''
  rw [hrow', Option.some.injEq] at hrow''
  subst hrow''
  rw [hstart] at hdeadline'
  rw [hseeds] at hclass'
  have hscore := (List.pairwise_cons.1 hsorted).1 _ hmem
  exact ⟨q, row, hq, hrow, start_le_horizon hscore hdeadline hdeadline' hclass' hload⟩

/-- One step of the watch: who passes over the job takes an old shard away, and only a requeue
brings one. -/
theorem oldPending_watched {e : FleetEvent} (hops : AllOfJobs s) (hjob : j.SubmittedIn s)
    (hstep : stepFleet cfg s e = some s')
    (hlater : ∀ org spec id now, e = .submit org spec id now → j.horizon < epochOf now) :
    oldPending j.horizon s' + (if passesOver j s s' e then 1 else 0 : Nat) ≤
      oldPending j.horizon s + requeuedBy s e := by
  have hchange := fleetMove_step hstep
  -- a step that issues nothing passes over nothing
  have hpass : s'.issued = s.issued → passesOver j s s' e = false := by
    intro hissued
    by_contra hpasses
    rw [Bool.not_eq_false] at hpasses
    obtain ⟨_, _, _, _, _, _, _, -, -, hlt, -⟩ := passesOver_eq_true hpasses
    rw [hissued] at hlt
    exact lt_irrefl _ hlt
  cases hchange with
  | same ht hissued =>
    have hsame : oldPending j.horizon s' = oldPending j.horizon s := by rw [oldPending, ht]; rfl
    rw [hpass hissued, hsame]
    simp
  | provisioned hins ht hissued =>
    rw [hpass hissued, oldPending_insert j.horizon hins ht]
    simp
  | submitted he hq hins ht hissued =>
    have hset := oldPending_setTenant j.horizon hq ht
    rw [oldShards_insertJob hins (hlater _ _ _ _ he)] at hset
    rw [hpass hissued]
    simp only [Bool.false_eq_true, if_false]
    omega
  | @requeued org now q hq hmoved ht hissued =>
    have hset := oldPending_setTenant j.horizon hq ht
    have hle : oldShards j.horizon (q.updateShards (fun _ r => stranded now requeueStale r)
        ShardRow.requeue) ≤ oldShards j.horizon q + q.shards.count fun _ r =>
          stranded now requeueStale r := oldShards_updateShards_add_le _ _
    rw [hpass hissued, hmoved]
    simp only [requeueStranded] at hset ⊢
    simp only [Bool.false_eq_true, if_false]
    omega
  | @claimed _ _ _ _ _ _ q q' _ he hop hq hclaim ht =>
    have hset := oldPending_setTenant j.horizon hq ht
    by_cases hpasses : passesOver j s s' e = true
    · obtain ⟨i, chance, poll, cand, target, rest, c, he', hop', -, hmem, hload⟩ :=
        passesOver_eq_true hpasses
      subst he
      cases he'
      rw [hop, Option.some.injEq] at hop'
      cases hop'
      obtain ⟨q₁, row, hq₁, hrow, hold⟩ :=
        taken_is_old hjob (hops _ (List.mem_of_getElem? hop)) hmem hload
      rw [hq, Option.some.injEq] at hq₁
      subst hq₁
      have htaken := oldShards_claim hclaim hrow hold
      rw [if_pos hpasses]
      omega
    · have hle : oldShards j.horizon q' ≤ oldShards j.horizon q := oldShards_claim_le hclaim
      rw [if_neg hpasses]
      omega
  | updated hq _ hle ht hissued =>
    have hset := oldPending_setTenant j.horizon hq ht
    have := hle j.horizon
    rw [hpass hissued]
    simp only [Bool.false_eq_true, if_false]
    omega

/-- What a watched run keeps. -/
structure WatchKept (j : WaitingJob) (s : Fleet) (w : Watch) : Prop where
  candidates : AllOfJobs w.fleet
  submitted : j.SubmittedIn w.fleet
  bound : oldPending j.horizon w.fleet + w.passedOver ≤ oldPending j.horizon s + w.requeued

theorem watchKept_step {w w' : Watch} {e : FleetEvent} (h : WatchKept j s w)
    (hstep : stepWatch cfg j w e = some w') (hlater : SubmitsLater j w e w') :
    WatchKept j s w' := by
  obtain ⟨s', hs', rfl⟩ := Option.map_eq_some_iff.1 hstep
  have hone := oldPending_watched h.candidates h.submitted hs' (by
    rintro org spec id now rfl
    exact hlater)
  refine ⟨allOfJobs_step h.candidates hs', h.submitted.keeps (fleetMove_step hs').keeps, ?_⟩
  have := h.bound
  push_cast at *
  omega

end Watching

/-- From an instant past the horizon of a job, it is passed over at most once for each shard
that waits of the jobs up to the horizon, and once more for each shard that is requeued.  What
is left of these shards is not used up. -/
theorem passed_over_at_most {cfg : SchedulerConfig} {j : WaitingJob} {s : Fleet} {w : Watch}
    {es : List FleetEvent} (hreach : Reaches (FleetStep cfg) {} s) (hjob : j.SubmittedIn s)
    (hrun : Run (Guarded (stepOf (stepWatch cfg j)) (SubmitsLater j)) { fleet := s } es w) :
    oldPending j.horizon w.fleet + w.passedOver ≤ oldPending j.horizon s + w.requeued :=
  (hrun.invariant_of_guarded (WatchKept j s) (fun _ _ _ hi hstep hok => watchKept_step hi hstep hok)
    ⟨allOfJobs_reached hreach, hjob, by simp⟩).bound

/-- A check that what is submitted is submitted later. -/
def submitsLater (j : WaitingJob) (_ : Watch) : FleetEvent → Bool
  | .submit _ _ _ now => j.horizon < epochOf now
  | _ => true

theorem submitsLater_of_check (j : WaitingJob) (w : Watch) (e : FleetEvent) (w' : Watch)
    (h : submitsLater j w e = true) : SubmitsLater j w e w' := by
  cases e with
  | submit org spec id now =>
    have hnow : j.horizon < epochOf now := of_decide_eq_true h
    exact hnow
  | _ => trivial

/-- A campaign of five shards, and a quick job that comes an hour later. -/
def campaignAndQuickJob : List FleetEvent :=
  [.provision 1, .submit 1 { appDir := "/srv/shop", seeds := 5 } "campaign" 0,
    .submit 1 { appDir := "/srv/shop", seeds := 1 } "quick" (3600 * microsPerSecond),
    .advance 0 {}, .advance 0 {}]

/-- The campaign, which waits. -/
def campaign : WaitingJob := ⟨⟨1, "campaign"⟩, 0, 5, 0, by decide⟩

/-- One worker asks, and takes the quick job. -/
def oneAsks : List FleetEvent :=
  [.poll (some "w1") "0" [], .advance 0 {}, .advance 0 {}, .advance 0 {}, .advance 0 {}]

theorem passed_over_at_most_campaign :
    ∃ (s : Fleet) (w : Watch), oldPending campaign.horizon s = 6 ∧ w.passedOver = 1 ∧
      oldPending campaign.horizon w.fleet + w.passedOver ≤
        oldPending campaign.horizon s + w.requeued := by
  have hsome : ((runOf (stepFleet .hosted) {} campaignAndQuickJob).bind fun s =>
      (runOf (checked (stepWatch .hosted campaign) (submitsLater campaign)) { fleet := s }
        oneAsks).map fun w => (oldPending campaign.horizon s, w.passedOver,
          ((s.tenants.get? 1).bind fun q => (q.jobs.get? "campaign").map fun row =>
            (epochOf row.startedAt, jobShards q "campaign")))) = some (6, 1, some (0, 5)) := by
    decide +kernel
  obtain ⟨s, hs, hwatch⟩ := Option.bind_eq_some_iff.1 hsome
  obtain ⟨w, hw, hend⟩ := Option.map_eq_some_iff.1 hwatch
  simp only [Prod.mk.injEq, Option.bind_eq_some_iff, Option.map_eq_some_iff] at hend
  obtain ⟨hold, hpassed, q, hq, row, hrow, hstart, hseeds⟩ := hend
  exact ⟨s, w, hold, hpassed,
    passed_over_at_most ⟨_, .of_runOf hs⟩ ⟨q, row, hq, hrow, hstart, hseeds⟩
      (Run.of_runOf_checked (submitsLater_of_check campaign) hw)⟩

end ReproitCloud
