import ReproitCloud.Lib.Table
import ReproitCloud.Data.Time

/-!
# The shard queue of a tenant

A fuzz job is a row of `jobs` and one row of `shards` for each of its seeds.
Workers pull from the queue: `claimShard` takes a pending shard, `touchShard`
keeps it alive, `setShard` ends it, and `requeueStranded` gives back what a dead
worker left.  Each is one SQL statement here, with the rows it reads and writes.

`QueueStore` is the two tables, with the foreign key from shards to jobs as a
field.  No statement of this file can break it: all but `insertJob` keep the keys
of `shards`.

`claimShard` skips the rows that another transaction has locked, so it takes the
list of locked keys.  Which rows are locked is up to the scheduler of the
database, and results about the queue hold for every such list.
-/

namespace ReproitCloud

open Lib

/-! ## Jobs and shards -/

/-- `ShardState`. -/
inductive ShardState where
  | pending
  | running
  | clean
  | finding
  | error
deriving DecidableEq, Repr

namespace ShardState

/-- `as_str`, the stored tag. -/
def asStr : ShardState → String
  | pending => "pending"
  | running => "running"
  | clean => "clean"
  | finding => "finding"
  | error => "error"

/-- Neither pending nor running. -/
def terminal : ShardState → Bool
  | pending | running => false
  | clean | finding | error => true

end ShardState

/-- `JobSpec`, as it is posted. -/
structure JobSpec where
  appDir : String
  mode : String := "fuzz"
  seeds : UInt32 := 8
  budget : UInt32 := 24
  backend : String := "web"
deriving DecidableEq, Repr

def maxJobSeeds : UInt32 := 1024

def maxJobBudget : UInt32 := 10000

/-- `JobSpec::validate`: the error it answers with, if any. -/
def JobSpec.validate (spec : JobSpec) : Option String :=
  if ¬ (1 ≤ spec.seeds ∧ spec.seeds ≤ maxJobSeeds) then
    some "seeds must be between 1 and 1024"
  else if ¬ (1 ≤ spec.budget ∧ spec.budget ≤ maxJobBudget) then
    some "budget must be between 1 and 10000"
  else if ¬ (spec.backend = "web" ∨ spec.backend = "android" ∨ spec.backend = "ios") then
    some "backend must be one of: web, android, ios"
  else if spec.mode ≠ "fuzz" then some "mode must be fuzz"
  else none

/-- `Job`: what a submission inserts. -/
structure Job where
  id : String
  specAppDir : String
  budget : UInt32
  backend : String
  seeds : List UInt32
  startedAt : Micros
deriving DecidableEq, Repr

/-- `Job::new`: one shard for each seed from 1, under a fresh id. -/
def Job.new (spec : JobSpec) (id : String) (now : Micros) : Job :=
  ⟨id, spec.appDir, spec.budget, spec.backend,
    (List.range spec.seeds.toNat).map fun i => UInt32.ofNat (i + 1), now⟩

/-- A row of `jobs`.  The times are stored as RFC 3339 text. -/
structure JobRow where
  appDir : String
  budget : UInt32
  startedAt : Micros
  finishedAt : Option Micros := none
  mapStates : Nat := 0
  mapTransitions : Nat := 0
deriving DecidableEq, Repr

/-- The key of `shards`: job and seed. -/
abbrev ShardKey := String × UInt32

/-- A row of `shards`. -/
structure ShardRow where
  state : ShardState
  report : Option String := none
  /-- The bits of the duration, a double. -/
  durationS : UInt64 := 0
  backend : String
  claimedBy : Option String := none
  claimedAt : Option Micros := none
  heartbeatAt : Option Micros := none
  attempts : Nat := 0
deriving DecidableEq, Repr

/-- The queue tables of a tenant database. -/
structure QueueStore where
  jobs : Table String JobRow
  shards : Table ShardKey ShardRow
  /-- `shards.job_id REFERENCES jobs(id)`. -/
  owned : ∀ r ∈ shards.rows, jobs.has r.1.1 = true

namespace QueueStore

/-- A queue just after the schema was applied. -/
def empty : QueueStore := ⟨.empty, .empty, fun _ h => nomatch h⟩

/-- An `UPDATE shards`. -/
def updateShards (q : QueueStore) (p : ShardKey → ShardRow → Bool) (f : ShardRow → ShardRow) :
    QueueStore where
  jobs := q.jobs
  shards := q.shards.update p fun _ => f
  owned := by
    intro r hr
    obtain ⟨r', hr', rfl⟩ := List.mem_map.1 hr
    exact q.owned r' hr'

theorem updateShards_shards (q : QueueStore) (p : ShardKey → ShardRow → Bool)
    (f : ShardRow → ShardRow) : (q.updateShards p f).shards = q.shards.update p fun _ => f := rfl

@[simp] theorem updateShards_jobs (q : QueueStore) (p : ShardKey → ShardRow → Bool)
    (f : ShardRow → ShardRow) : (q.updateShards p f).jobs = q.jobs := rfl

theorem get?_updateShards (q : QueueStore) (p : ShardKey → ShardRow → Bool)
    (f : ShardRow → ShardRow) (k : ShardKey) :
    (q.updateShards p f).shards.get? k =
      (q.shards.get? k).map fun s => if p k s then f s else s :=
  Table.get?_update ..

/-- A shard has its job. -/
theorem exists_job {q : QueueStore} {k : ShardKey} {s : ShardRow}
    (h : q.shards.get? k = some s) : ∃ j, q.jobs.get? k.1 = some j :=
  Option.isSome_iff_exists.1 (q.owned _ (Table.get?_eq_some_iff.1 h))

end QueueStore

/-! ## The statements -/

/-- `insert_job`: the job and its pending shards, in one transaction. -/
def insertJob (q : QueueStore) (job : Job) : Option QueueStore :=
  match hjobs : q.jobs.insert? job.id
      { appDir := job.specAppDir, budget := job.budget, startedAt := job.startedAt } with
  | none => none
  | some jobs =>
    match hshards : q.shards.insertAll? (job.seeds.map fun seed =>
        ((job.id, seed), { state := .pending, backend := job.backend })) with
    | none => none
    | some shards => some ⟨jobs, shards, by
        intro r hr
        rw [Table.rows_insertAll? hshards, List.mem_append] at hr
        rw [Table.has, Table.get?_insert? hjobs]
        rcases hr with hr | hr
        · split
          · rfl
          · exact q.owned r hr
        · obtain ⟨seed, -, rfl⟩ := List.mem_map.1 hr
          rw [if_pos rfl]
          rfl⟩

/-- `ClaimedShard`: what a claim returns to the worker. -/
structure ClaimedShard where
  jobId : String
  seed : UInt32
  claimedBy : String
  backend : String
  appDir : String
  budget : UInt32
deriving DecidableEq, Repr

/-- The key of the claimed shard. -/
def ClaimedShard.key (c : ClaimedShard) : ShardKey := (c.jobId, c.seed)

/-- `ORDER BY job_id, seed`. -/
def ShardKey.le (a b : ShardKey) : Bool := a.1 < b.1 || (a.1 = b.1 && a.2.toNat ≤ b.2.toNat)

/-- The shards a claim may take: pending, on a backend the worker serves, of the
job the policy chose. -/
def claimable (q : QueueStore) (capabilities : List String) (job : Option String) :
    List ShardKey :=
  (q.shards.rows.filter fun r =>
    r.2.state = .pending && r.2.backend ∈ capabilities && job.all (· = r.1.1)).map Prod.fst

/-- The `SET` of a claim. -/
def ShardRow.claim (now : Micros) (worker : String) (s : ShardRow) : ShardRow :=
  { s with
    state := .running
    claimedBy := some worker
    claimedAt := some now
    heartbeatAt := some now
    attempts := s.attempts + 1 }

/-- `claim_shard`: the first claimable shard that no one has locked. -/
def claimShard (q : QueueStore) (locked : List ShardKey) (now : Micros) (worker : String)
    (capabilities : List String) (job : Option String) : Option (ClaimedShard × QueueStore) :=
  match (((claimable q capabilities job).filter (· ∉ locked)).insertionSort
      (ShardKey.le · ·)).head? with
  | none => none
  | some k =>
    match q.shards.get? k, q.jobs.get? k.1 with
    | some s, some j =>
      some (⟨k.1, k.2, worker, s.backend, j.appDir, j.budget⟩,
        q.updateShards (fun k' _ => k' = k) (ShardRow.claim now worker))
    | _, _ => none

/-- `PendingJob`: a job with a pending shard a worker could claim. -/
structure PendingJob where
  jobId : String
  backend : String
  startedAt : Rfc3339
  /-- All shards of the job, whatever their state. -/
  seeds : Nat
deriving DecidableEq, Repr

/-- `pending_jobs`: oldest first, at most 256. -/
def pendingJobs (q : QueueStore) (capabilities : List String) : List PendingJob :=
  let pending := (((q.shards.rows.filter fun r =>
    r.2.state = .pending && r.2.backend ∈ capabilities).map fun r => (r.1.1, r.2.backend)).dedup)
  let joined := pending.filterMap fun p => (q.jobs.get? p.1).map fun j => (p, j.startedAt)
  ((joined.insertionSort fun a b => a.2 < b.2 ∨ a.2 = b.2 ∧ a.1.1 ≤ b.1.1).take 256).map fun r =>
    ⟨r.1.1, r.1.2, toRfc3339 r.2, q.shards.count fun k _ => k.1 = r.1.1⟩

/-- `running_by_backend`: the running shards of each backend. -/
def runningByBackend (q : QueueStore) : List (String × Nat) :=
  let backends := (q.shards.rows.filter fun r => r.2.state = .running).map fun r => r.2.backend
  backends.dedup.map fun b => (b, backends.count b)

/-- The shard is running, and was claimed under this worker id. -/
def heldBy (key : ShardKey) (worker : String) (k : ShardKey) (s : ShardRow) : Bool :=
  k = key && s.claimedBy = some worker && s.state = .running

/-- `touch_shard`.  The flag says whether a row was touched. -/
def touchShard (q : QueueStore) (now : Micros) (job : String) (seed : UInt32) (worker : String) :
    Bool × QueueStore :=
  (q.shards.count (heldBy (job, seed) worker) = 1,
    q.updateShards (heldBy (job, seed) worker) fun s => { s with heartbeatAt := some now })

/-- `pending_shard_count`. -/
def pendingShardCount (q : QueueStore) : Nat := q.shards.count fun _ s => s.state = .pending

/-- Whether a running shard's heartbeat is older than `stale` seconds. -/
def stranded (now : Micros) (stale : Int) (s : ShardRow) : Bool :=
  s.state = .running && s.heartbeatAt.all fun at' => at' < now - stale * microsPerSecond

/-- The `SET` of a requeue. -/
def ShardRow.requeue (s : ShardRow) : ShardRow :=
  { s with state := .pending, claimedBy := none, claimedAt := none, heartbeatAt := none }

/-- `requeue_stranded`, with the number of shards moved. -/
def requeueStranded (q : QueueStore) (now : Micros) (stale : Int) : Nat × QueueStore :=
  (q.shards.count fun _ s => stranded now stale s,
    q.updateShards (fun _ s => stranded now stale s) ShardRow.requeue)

/-- `job_incomplete`. -/
def jobIncomplete (q : QueueStore) (job : String) : Bool :=
  0 < q.shards.count fun k s => k.1 = job && !s.state.terminal

/-- `set_shard`.  The flag says whether a row was set. -/
def setShard (q : QueueStore) (job : String) (seed : UInt32) (worker : String)
    (state : ShardState) (report : Option String) (durationS : UInt64) : Bool × QueueStore :=
  (q.shards.count (heldBy (job, seed) worker) = 1,
    q.updateShards (heldBy (job, seed) worker) fun s =>
      { s with state := state, report := report, durationS := durationS })

/-- `finalize_job`. -/
def finalizeJob (q : QueueStore) (now : Micros) (job : String) (states transitions : Nat) :
    QueueStore where
  jobs := q.jobs.update (fun k _ => k = job) fun _ j =>
    { j with finishedAt := some now, mapStates := states, mapTransitions := transitions }
  shards := q.shards
  owned := by
    intro r hr
    have h := q.owned r hr
    rw [Table.has, Option.isSome_iff_exists] at h ⊢
    obtain ⟨j, hj⟩ := h
    exact ⟨_, by rw [Table.get?_update, hj]; rfl⟩

/-! ## What each statement does -/

section Spec

variable {q q' : QueueStore}

/-- A claim takes one pending shard that the worker may take, and nothing else
changes. -/
theorem claimShard_spec {locked : List ShardKey} {now : Micros} {worker : String}
    {capabilities : List String} {job : Option String} {c : ClaimedShard}
    (h : claimShard q locked now worker capabilities job = some (c, q')) :
    ∃ s, q.shards.get? c.key = some s ∧ s.state = .pending ∧ s.backend ∈ capabilities ∧
      (∀ j, job = some j → c.jobId = j) ∧ c.claimedBy = worker ∧ c.backend = s.backend ∧
      q' = q.updateShards (fun k _ => k = c.key) (ShardRow.claim now worker) := by
  simp only [claimShard] at h
  split at h
  · cases h
  rename_i k hk
  split at h
  · rename_i s j hs hj
    cases h
    have hmem := List.mem_of_mem_head? hk
    rw [List.mem_insertionSort, List.mem_filter, claimable, List.mem_map] at hmem
    obtain ⟨⟨⟨k', s'⟩, hr, rfl⟩, -⟩ := hmem
    obtain ⟨hrow, hclaim⟩ := List.mem_filter.1 hr
    rw [Table.get?_eq_some_iff.2 hrow, Option.some.injEq] at hs
    subst hs
    simp only [Bool.and_eq_true, decide_eq_true_eq] at hclaim
    refine ⟨s', Table.get?_eq_some_iff.2 hrow, hclaim.1.1, hclaim.1.2, ?_, rfl, rfl, rfl⟩
    rintro j' rfl
    have hjob := hclaim.2
    simp only [Option.all_some, decide_eq_true_eq] at hjob
    exact hjob.symm
  · cases h

/-- An update lowers the count of a kind of shard that it does not produce. -/
theorem count_updateShards_le {p : ShardKey → ShardRow → Bool} {f : ShardRow → ShardRow}
    {r : ShardRow → Bool}
    (h : ∀ k s, q.shards.get? k = some s → p k s = true → r (f s) = true → r s = true) :
    (q.updateShards p f).shards.count (fun _ s => r s) ≤ q.shards.count fun _ s => r s := by
  rw [QueueStore.updateShards_shards]
  apply Table.count_update_le
  intro row hrow hp hr
  exact h row.1 row.2 (Table.get?_eq_some_iff.2 hrow) hp hr

theorem pendingShardCount_updateShards_le {p : ShardKey → ShardRow → Bool}
    {f : ShardRow → ShardRow}
    (h : ∀ k s, q.shards.get? k = some s → p k s = true → (f s).state = .pending →
      s.state = .pending) :
    pendingShardCount (q.updateShards p f) ≤ pendingShardCount q := by
  refine count_updateShards_le (r := fun s => s.state = .pending) fun k s hs hp hf => ?_
  simpa using h k s hs hp (by simpa using hf)

/-- A shard that a `WHERE claimed_by ... AND state='running'` selects. -/
theorem heldBy_iff {key k : ShardKey} {worker : String} {s : ShardRow} :
    heldBy key worker k s = true ↔
      k = key ∧ s.claimedBy = some worker ∧ s.state = .running := by
  simp only [heldBy, Bool.and_eq_true, decide_eq_true_eq, and_assoc]

/-- The statements that name a holder report success exactly when there is one. -/
theorem count_heldBy {key : ShardKey} {worker : String} :
    q.shards.count (heldBy key worker) = 1 ↔
      ∃ s, q.shards.get? key = some s ∧ s.claimedBy = some worker ∧ s.state = .running := by
  rw [Table.count_key_eq_one_iff fun k s h => (heldBy_iff.1 h).1]
  simp only [heldBy_iff, true_and]

/-- An insertion gives a new job its pending shards. -/
theorem insertJob_spec {job : Job} (h : insertJob q job = some q') :
    q.jobs.has job.id = false ∧
      (∀ j, q'.jobs.get? j = if j = job.id then
        some { appDir := job.specAppDir, budget := job.budget, startedAt := job.startedAt }
        else q.jobs.get? j) ∧
      q'.shards.rows = q.shards.rows ++ job.seeds.map fun seed =>
        ((job.id, seed), { state := .pending, backend := job.backend }) := by
  unfold insertJob at h
  split at h
  · cases h
  rename_i jobs hjobs
  split at h
  · cases h
  rename_i shards hshards
  cases h
  exact ⟨Table.has_of_insert? hjobs, Table.get?_insert? hjobs, Table.rows_insertAll? hshards⟩

/-- A shard after an insertion was there before, or is a new pending one. -/
theorem get?_insertJob {job : Job} (h : insertJob q job = some q') {k : ShardKey} {s : ShardRow}
    (hs : q'.shards.get? k = some s) :
    q.shards.get? k = some s ∨
      (k.1 = job.id ∧ s = { state := .pending, backend := job.backend }) := by
  rw [Table.get?_eq_some_iff, (insertJob_spec h).2.2, List.mem_append] at hs
  rcases hs with hs | hs
  · exact .inl (Table.get?_eq_some_iff.2 hs)
  · obtain ⟨seed, -, heq⟩ := List.mem_map.1 hs
    cases heq
    exact .inr ⟨rfl, rfl⟩

end Spec

/-! ## Runs of the statements -/

/-- One statement on the queue of a tenant.  A result or a start sets a state that
is not pending. -/
inductive QueueStep : QueueStore → QueueStore → Prop
  | insert {q q' : QueueStore} {job : Job} : insertJob q job = some q' → QueueStep q q'
  | claim {q q' : QueueStore} {locked : List ShardKey} {now : Micros} {worker : String}
      {capabilities : List String} {job : Option String} {c : ClaimedShard} :
      claimShard q locked now worker capabilities job = some (c, q') → QueueStep q q'
  | touch (q : QueueStore) (now : Micros) (job : String) (seed : UInt32) (worker : String) :
      QueueStep q (touchShard q now job seed worker).2
  | set (q : QueueStore) (job : String) (seed : UInt32) (worker : String) {state : ShardState}
      (report : Option String) (durationS : UInt64) : state ≠ .pending →
      QueueStep q (setShard q job seed worker state report durationS).2
  | requeue (q : QueueStore) (now : Micros) (stale : Int) :
      QueueStep q (requeueStranded q now stale).2
  | finalize (q : QueueStore) (now : Micros) (job : String) (states transitions : Nat) :
      QueueStep q (finalizeJob q now job states transitions)

/-- Jobs are never removed, and a shard of a job that was there was there, on the
same backend. -/
structure QueueExtends (q q' : QueueStore) : Prop where
  jobs : ∀ j, q.jobs.has j = true → q'.jobs.has j = true
  shards : ∀ k s', q'.shards.get? k = some s' → q.jobs.has k.1 = true →
    ∃ s, q.shards.get? k = some s ∧ s.backend = s'.backend

/-- The shards of a job are on one backend. -/
def OneBackend (q : QueueStore) : Prop :=
  ∀ k k' s s', q.shards.get? k = some s → q.shards.get? k' = some s' → k.1 = k'.1 →
    s.backend = s'.backend

/-- An update of shards that keeps their backends. -/
structure KeepsBackends (q q' : QueueStore) : Prop where
  jobs : ∀ j, q'.jobs.has j = q.jobs.has j
  shards : ∀ k s', q'.shards.get? k = some s' →
    ∃ s, q.shards.get? k = some s ∧ s.backend = s'.backend

section Steps

variable {q q' : QueueStore}

theorem QueueExtends.refl (q : QueueStore) : QueueExtends q q :=
  ⟨fun _ h => h, fun _ s hs _ => ⟨s, hs, rfl⟩⟩

theorem keepsBackends_updateShards {p : ShardKey → ShardRow → Bool} {f : ShardRow → ShardRow}
    (h : ∀ s, (f s).backend = s.backend) : KeepsBackends q (q.updateShards p f) where
  jobs _ := rfl
  shards k s' hs' := by
    rw [QueueStore.get?_updateShards, Option.map_eq_some_iff] at hs'
    obtain ⟨s, hs, rfl⟩ := hs'
    refine ⟨s, hs, ?_⟩
    split
    · exact (h s).symm
    · rfl

theorem KeepsBackends.extends (h : KeepsBackends q q') : QueueExtends q q' where
  jobs j hj := by rw [h.jobs, hj]
  shards k s' hs' _ := h.shards k s' hs'

theorem KeepsBackends.oneBackend (h : KeepsBackends q q') (hq : OneBackend q) : OneBackend q' := by
  intro k k' s s' hs hs' hk
  obtain ⟨r, hr, hb⟩ := h.shards k s hs
  obtain ⟨r', hr', hb'⟩ := h.shards k' s' hs'
  rw [← hb, ← hb', hq k k' r r' hr hr' hk]

/-- A statement inserts a job, or keeps the shards there are and their backends. -/
theorem QueueStep.insert_or_keeps (h : QueueStep q q') :
    (∃ job, insertJob q job = some q') ∨ KeepsBackends q q' := by
  cases h with
  | insert hins => exact .inl ⟨_, hins⟩
  | claim hclaim =>
    obtain ⟨s, -, -, -, -, -, -, rfl⟩ := claimShard_spec hclaim
    exact .inr (keepsBackends_updateShards fun _ => rfl)
  | touch => exact .inr (keepsBackends_updateShards fun _ => rfl)
  | set => exact .inr (keepsBackends_updateShards fun _ => rfl)
  | requeue => exact .inr (keepsBackends_updateShards fun _ => rfl)
  | finalize =>
    refine .inr ⟨fun j => ?_, fun k s' hs' => ⟨s', hs', rfl⟩⟩
    simp [finalizeJob, Table.has]

theorem QueueStep.extends (h : QueueStep q q') : QueueExtends q q' := by
  rcases h.insert_or_keeps with ⟨job, hins⟩ | hkeeps
  · obtain ⟨hfresh, hjobs, -⟩ := insertJob_spec hins
    refine ⟨fun j hj => ?_, fun k s' hs' hk => ?_⟩
    · rw [Table.has, hjobs]
      split
      · rfl
      · exact hj
    · rcases get?_insertJob hins hs' with hs | ⟨hid, -⟩
      · exact ⟨s', hs, rfl⟩
      · rw [hid, hfresh] at hk
        cases hk
  · exact hkeeps.extends

theorem QueueStep.oneBackend (h : QueueStep q q') (hq : OneBackend q) : OneBackend q' := by
  rcases h.insert_or_keeps with ⟨job, hins⟩ | hkeeps
  · have hfresh := (insertJob_spec hins).1
    -- a shard that was there is not of the new job
    have hold : ∀ k s, q.shards.get? k = some s → k.1 ≠ job.id := by
      intro k s hs hk
      have hjob := q.owned _ (Table.get?_eq_some_iff.1 hs)
      rw [hk, hfresh] at hjob
      cases hjob
    intro k k' s s' hs hs' hk
    rcases get?_insertJob hins hs with hs | ⟨hid, rfl⟩
    · rcases get?_insertJob hins hs' with hs' | ⟨hid', -⟩
      · exact hq k k' s s' hs hs' hk
      · exact absurd (hk.trans hid') (hold k s hs)
    · rcases get?_insertJob hins hs' with hs' | ⟨-, rfl⟩
      · exact absurd (hk.symm.trans hid) (hold k' s' hs')
      · rfl
  · exact hkeeps.oneBackend hq

end Steps

end ReproitCloud
