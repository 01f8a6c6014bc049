import ReproitCloud.Jobs.Completion
import ReproitCloud.Jobs.Fencing

/-!
# What is reported of a job

The dashboard reads a job in two ways.  `snapshot` reads the row of the job and then, in a second
statement, its shards.  `listJobs` is one statement that counts the shards of each job.  Both say
how many shards there are, how many are over, how many have a finding, and whether the job is
complete.

A shard that is over stays as it is, no shard is added to a job that was there, and a job is
finished only when its shards are over.  So what is reported goes forward
(`job_reports_go_forward`): the number of shards stays, the others only grow, and the report of a
complete job is final.  A snapshot reads the job first.  Whatever comes in between its two reads, a
job that it calls complete has all its shards over.

The state of a shard that is over, its report and its duration are what a worker sent for a claim
of that very shard (`ended_shards_were_reported`).
-/

namespace ReproitCloud

open Lib

/-! ## The reads -/

/-- A shard in the report of its job. -/
structure ShardDetail where
  seed : UInt32
  state : ShardState
  report : Option String
  durationS : UInt64
deriving DecidableEq, Repr

def detailOf (r : ShardKey × ShardRow) : ShardDetail :=
  ⟨r.1.2, r.2.state, r.2.report, r.2.durationS⟩

/-- The body of `snapshot`. -/
structure JobSnapshot where
  id : String
  appDir : String
  shards : Nat
  done : Nat
  complete : Bool
  startedAt : Micros
  finishedAt : Option Micros
  findings : Nat
  mapStates : Nat
  mapTransitions : Nat
  shardDetail : List ShardDetail
deriving DecidableEq, Repr

/-- An entry of `list_jobs`. -/
structure JobListItem where
  id : String
  appDir : String
  startedAt : Micros
  finishedAt : Option Micros
  complete : Bool
  backend : String
  shards : Nat
  done : Nat
  findings : Nat
  errors : Nat
  running : Nat
  clean : Nat
  mapStates : Nat
  mapTransitions : Nat
deriving DecidableEq, Repr

/-- The shards of a job. -/
def shardsOf (q : QueueStore) (job : String) : List (ShardKey × ShardRow) :=
  q.shards.rows.filter fun r => r.1.1 = job

/-- `SELECT ... FROM shards WHERE job_id=$1 ORDER BY seed`. -/
def shardsBySeed (q : QueueStore) (job : String) : List (ShardKey × ShardRow) :=
  (shardsOf q job).insertionSort fun a b => a.1.2 ≤ b.1.2

/-- The shards in states that a test picks. -/
def countState (rows : List (ShardKey × ShardRow)) (p : ShardState → Bool) : Nat :=
  (rows.filter fun r => p r.2.state).length

/-- `snapshot`, with the queue at its first read and at its second. -/
def snapshot (q q' : QueueStore) (id : String) : Option JobSnapshot :=
  (q.jobs.get? id).map fun j =>
    let rows := shardsBySeed q' id
    { id := id
      appDir := j.appDir
      shards := rows.length
      done := countState rows fun state => state ≠ .pending && state ≠ .running
      complete := j.finishedAt.isSome
      startedAt := j.startedAt
      finishedAt := j.finishedAt
      findings := countState rows fun state => state = .finding
      mapStates := j.mapStates
      mapTransitions := j.mapTransitions
      shardDetail := rows.map detailOf }

/-- A row of `list_jobs`.  A job without shards is on no backend. -/
def listItem (q : QueueStore) (job : String × JobRow) : JobListItem :=
  let rows := shardsOf q job.1
  { id := job.1
    appDir := job.2.appDir
    startedAt := job.2.startedAt
    finishedAt := job.2.finishedAt
    complete := job.2.finishedAt.isSome
    backend := ((rows.map fun r => r.2.backend).min?).getD "web"
    shards := rows.length
    done := countState rows fun state => state ≠ .pending && state ≠ .running
    findings := countState rows fun state => state = .finding
    errors := countState rows fun state => state = .error
    running := countState rows fun state => state = .running
    clean := countState rows fun state => state = .clean
    mapStates := job.2.mapStates
    mapTransitions := job.2.mapTransitions }

/-- `list_jobs`: the newest jobs, a hundred at most. -/
def listJobs (q : QueueStore) (limit : Int) : List JobListItem :=
  ((q.jobs.rows.insertionSort fun a b => b.2.startedAt ≤ a.2.startedAt).take
    (max 1 (min limit 100)).toNat).map (listItem q)

/-! ## Progress -/

/-- What both reads say of how far a job is. -/
structure JobProgress where
  shards : Nat
  done : Nat
  findings : Nat
  complete : Bool
deriving DecidableEq, Repr

def JobSnapshot.progress (v : JobSnapshot) : JobProgress :=
  ⟨v.shards, v.done, v.findings, v.complete⟩

def JobListItem.progress (v : JobListItem) : JobProgress :=
  ⟨v.shards, v.done, v.findings, v.complete⟩

/-- One report of a job, and a later one. -/
structure JobProgress.Before (p p' : JobProgress) : Prop where
  shards : p'.shards = p.shards
  done : p.done ≤ p'.done
  findings : p.findings ≤ p'.findings
  counted : p.findings ≤ p.done ∧ p.done ≤ p.shards
  final : p.complete = true → p.done = p.shards ∧ p' = p

/-- Neither pending nor running. -/
theorem terminal_eq (state : ShardState) :
    (state ≠ .pending && state ≠ .running) = state.terminal := by
  cases state <;> rfl

section Shards

variable {q q' : QueueStore} {id : String}

theorem mem_shardsOf {r : ShardKey × ShardRow} :
    r ∈ shardsOf q id ↔ q.shards.get? r.1 = some r.2 ∧ r.1.1 = id := by
  rw [shardsOf, List.mem_filter, decide_eq_true_eq, Table.get?_eq_some_iff]

theorem shardsOf_keys_nodup (q : QueueStore) (id : String) :
    ((shardsOf q id).map Prod.fst).Nodup :=
  q.shards.keys_nodup.sublist (List.filter_sublist.map Prod.fst)

theorem shardsOf_nodup (q : QueueStore) (id : String) : (shardsOf q id).Nodup :=
  (shardsOf_keys_nodup q id).of_map

theorem shardsBySeed_perm (q : QueueStore) (id : String) :
    (shardsBySeed q id).Perm (shardsOf q id) := List.perm_insertionSort _ _

theorem countState_perm {rows rows' : List (ShardKey × ShardRow)} (h : rows.Perm rows')
    (p : ShardState → Bool) : countState rows p = countState rows' p :=
  (h.filter _).length_eq

/-- A job that was there has the shards that it had. -/
theorem shardsOf_length (h : QueueAdvances q q') (hknown : q.jobs.has id = true) :
    (shardsOf q' id).length = (shardsOf q id).length := by
  have hkeys : ((shardsOf q' id).map Prod.fst).Perm ((shardsOf q id).map Prod.fst) := by
    rw [List.perm_ext_iff_of_nodup (shardsOf_keys_nodup q' id) (shardsOf_keys_nodup q id)]
    intro k
    simp only [List.mem_map, mem_shardsOf]
    constructor
    · rintro ⟨⟨k, r'⟩, ⟨hget, rfl⟩, rfl⟩
      obtain ⟨r, hr, -⟩ := h.frame.shards k r' hget hknown
      exact ⟨(k, r), ⟨hr, rfl⟩, rfl⟩
    · rintro ⟨⟨k, r⟩, ⟨hget, rfl⟩, rfl⟩
      obtain ⟨r', hr', -⟩ := h.shards k r hget
      exact ⟨(k, r'), ⟨hr', rfl⟩, rfl⟩
  simpa only [List.length_map] using hkeys.length_eq

/-- A shard that is over is reported as it was. -/
theorem mem_shardsOf_advances (h : QueueAdvances q q') {r : ShardKey × ShardRow}
    (hr : r ∈ shardsOf q id) (hover : r.2.state.terminal = true) : r ∈ shardsOf q' id := by
  obtain ⟨hget, hid⟩ := mem_shardsOf.1 hr
  obtain ⟨r', hr', -, hsame⟩ := h.shards r.1 r.2 hget
  exact mem_shardsOf.2 ⟨by rw [hr', hsame hover], hid⟩

/-- Of shards that are over there are more and more. -/
theorem countState_le (h : QueueAdvances q q') {p : ShardState → Bool}
    (hp : ∀ state, p state = true → state.terminal = true) :
    countState (shardsOf q id) p ≤ countState (shardsOf q' id) p := by
  refine (((shardsOf_nodup q id).filter _).subperm fun r hr => ?_).length_le
  obtain ⟨hmem, hpr⟩ := List.mem_filter.1 hr
  exact List.mem_filter.2 ⟨mem_shardsOf_advances h hmem (hp _ hpr), hpr⟩

/-- When all shards are over, nothing of them changes. -/
theorem shardsOf_perm_of_over (h : QueueAdvances q q') (hover : JobOver q id) :
    (shardsOf q' id).Perm (shardsOf q id) := by
  have hsub : (shardsOf q id).Subperm (shardsOf q' id) :=
    (shardsOf_nodup q id).subperm fun r hr =>
      mem_shardsOf_advances h hr
        (hover.done r.1 r.2 (mem_shardsOf.1 hr).1 (mem_shardsOf.1 hr).2)
  exact (hsub.perm_of_length_le (shardsOf_length h hover.known).le).symm

/-- The order by seed has no ties. -/
theorem shardsBySeed_congr (h : (shardsOf q' id).Perm (shardsOf q id)) :
    shardsBySeed q' id = shardsBySeed q id := by
  refine List.Perm.eq_of_pairwise ?_ (List.pairwise_insertionSort _ _)
    (List.pairwise_insertionSort _ _) ?_
  · intro a b ha hb hab hba
    obtain ⟨hgeta, hida⟩ := mem_shardsOf.1 ((shardsBySeed_perm q' id).mem_iff.1 ha)
    obtain ⟨hgetb, hidb⟩ := mem_shardsOf.1 (h.mem_iff.2 ((shardsBySeed_perm q id).mem_iff.1 hb))
    have hkey : a.1 = b.1 := Prod.ext (hida.trans hidb.symm) (UInt32.le_antisymm hab hba)
    rw [hkey, hgetb, Option.some.injEq] at hgeta
    exact Prod.ext hkey hgeta.symm
  · exact (shardsBySeed_perm q' id).trans (h.trans (shardsBySeed_perm q id).symm)

end Shards

/-! ## The rows of jobs -/

/-- A job keeps what it was submitted with, and stays finished. -/
def JobsKept (q q' : QueueStore) : Prop :=
  ∀ id j, q.jobs.get? id = some j → ∃ j', q'.jobs.get? id = some j' ∧ j'.appDir = j.appDir ∧
    j'.startedAt = j.startedAt ∧ (j.finishedAt.isSome = true → j'.finishedAt.isSome = true)

section Jobs

variable {cfg : SchedulerConfig} {q q' q'' : QueueStore} {s s' : Fleet}

theorem JobsKept.refl (q : QueueStore) : JobsKept q q := fun _ j hj => ⟨j, hj, rfl, rfl, id⟩

theorem JobsKept.trans (h : JobsKept q q') (h' : JobsKept q' q'') : JobsKept q q'' := by
  intro id j hj
  obtain ⟨j', hj', happ, hstart, hfinished⟩ := h id j hj
  obtain ⟨j'', hj'', happ', hstart', hfinished'⟩ := h' id j' hj'
  exact ⟨j'', hj'', happ'.trans happ, hstart'.trans hstart, fun hf => hfinished' (hfinished hf)⟩

theorem QueueStep.jobsKept (h : QueueStep q q') : JobsKept q q' := by
  cases h with
  | insert hins =>
    intro id j hj
    obtain ⟨hnew, hjobs, -⟩ := insertJob_spec hins
    refine ⟨j, ?_, rfl, rfl, fun hf => hf⟩
    rw [hjobs, if_neg, hj]
    rintro rfl
    rw [Table.has, hj] at hnew
    cases hnew
  | claim hclaim =>
    obtain ⟨-, -, -, -, -, -, -, rfl⟩ := claimShard_spec hclaim
    exact .refl q
  | touch => exact .refl q
  | set => exact .refl q
  | requeue => exact .refl q
  | finalize now job states transitions =>
    intro id j hj
    rw [finalizeJob, Table.get?_update, hj]
    refine ⟨_, rfl, ?_⟩
    split
    · exact ⟨rfl, rfl, fun _ => rfl⟩
    · exact ⟨rfl, rfl, fun hf => hf⟩

theorem jobsKept_setTenant {org : Int64} (hq : s.tenants.get? org = some q)
    (hstep : QueueStep q q') (hs' : s'.tenants = (s.setTenant org q').tenants) {k : Int64}
    {r : QueueStore} (hr : s.tenants.get? k = some r) :
    ∃ r', s'.tenants.get? k = some r' ∧ JobsKept r r' := by
  rw [hs', Fleet.get?_setTenant hq]
  by_cases hk : k = org
  · subst hk
    rw [hq, Option.some.injEq] at hr
    subst hr
    exact ⟨q', if_pos rfl, hstep.jobsKept⟩
  · exact ⟨r, by rw [if_neg hk, hr], .refl r⟩

theorem jobsKept_step {e : FleetEvent} (hstep : stepFleet cfg s e = some s') {org : Int64}
    (hq : s.tenants.get? org = some q) : ∃ q', s'.tenants.get? org = some q' ∧ JobsKept q q' := by
  cases fleetChange_step hstep with
  | same htenants => exact ⟨q, htenants ▸ hq, .refl q⟩
  | @provision new hins =>
    refine ⟨q, ?_, .refl q⟩
    rw [Table.get?_insert? hins, if_neg, hq]
    rintro rfl
    have hfresh := Table.has_of_insert? hins
    rw [Table.has, hq] at hfresh
    cases hfresh
  | write hwritten hqueue _ htenants => exact jobsKept_setTenant hwritten hqueue htenants hq
  | claim hwritten hclaim htenants => exact jobsKept_setTenant hwritten (.claim hclaim) htenants hq
  | finish hwritten _ htenants =>
    exact jobsKept_setTenant hwritten (.finalize _ _ _ _ _) htenants hq

theorem jobsKept_run {es : List FleetEvent} (h : Run (FleetStep cfg) s es s') {org : Int64}
    (hq : s.tenants.get? org = some q) : ∃ q', s'.tenants.get? org = some q' ∧ JobsKept q q' := by
  induction h generalizing q with
  | nil s => exact ⟨q, hq, .refl q⟩
  | cons hstep _ ih =>
    obtain ⟨r, hr, hkept⟩ := jobsKept_step hstep hq
    obtain ⟨q', hq', hkept'⟩ := ih hr
    exact ⟨q', hq', hkept.trans hkept'⟩

end Jobs

/-! ## Reports go forward -/

/-- What a later snapshot of a job keeps of an earlier one. -/
structure JobSnapshot.GoesOn (v v' : JobSnapshot) : Prop where
  submitted : v'.id = v.id ∧ v'.appDir = v.appDir ∧ v'.startedAt = v.startedAt
  progress : v.progress.Before v'.progress
  ended : ∀ d ∈ v.shardDetail, d.state.terminal = true → d ∈ v'.shardDetail
  final : v.complete = true →
    (∀ d ∈ v.shardDetail, d.state.terminal = true) ∧ v'.shardDetail = v.shardDetail

section Reports

variable {q q' r r' : QueueStore} {id : String}

/-- How far a job is, by the row of the job and by its shards. -/
def progressOf (j : JobRow) (q : QueueStore) (id : String) : JobProgress :=
  ⟨(shardsOf q id).length, countState (shardsOf q id) ShardState.terminal,
    countState (shardsOf q id) fun state => state = .finding, j.finishedAt.isSome⟩

theorem progressOf_before {j j' : JobRow} (h : QueueAdvances q q') (hknown : q.jobs.has id = true)
    (hover : j.finishedAt.isSome = true → JobOver q id)
    (hfinished : j.finishedAt.isSome = true → j'.finishedAt.isSome = true) :
    (progressOf j q id).Before (progressOf j' q' id) := by
  have hfinding : ∀ state : ShardState,
      decide (state = .finding) = true → state.terminal = true := by
    intro state hstate
    rw [of_decide_eq_true hstate]
    rfl
  refine ⟨shardsOf_length h hknown, countState_le h fun _ hp => hp, countState_le h hfinding,
    ⟨?_, List.length_filter_le _ _⟩, fun hcomplete => ⟨?_, ?_⟩⟩
  · refine (List.Sublist.length_le ?_)
    exact List.monotone_filter_right _ fun x hx => hfinding _ hx
  · show countState (shardsOf q id) ShardState.terminal = (shardsOf q id).length
    rw [countState, List.filter_eq_self.2]
    exact fun x hx => (hover hcomplete).done x.1 x.2 (mem_shardsOf.1 hx).1 (mem_shardsOf.1 hx).2
  · have hperm := shardsOf_perm_of_over h (hover hcomplete)
    have hcomplete' : j'.finishedAt.isSome = j.finishedAt.isSome :=
      (hfinished hcomplete).trans hcomplete.symm
    rw [progressOf, progressOf, hperm.length_eq, countState_perm hperm, countState_perm hperm,
      hcomplete']

theorem snapshot_eq_some {v : JobSnapshot} :
    snapshot q r id = some v ↔ ∃ j, q.jobs.get? id = some j ∧ v.id = id ∧ v.appDir = j.appDir ∧
      v.startedAt = j.startedAt ∧ v.finishedAt = j.finishedAt ∧ v.mapStates = j.mapStates ∧
      v.mapTransitions = j.mapTransitions ∧ v.progress = progressOf j r id ∧
      v.shardDetail = (shardsBySeed r id).map detailOf := by
  have hcounts : ∀ p, countState (shardsBySeed r id) p = countState (shardsOf r id) p :=
    countState_perm (shardsBySeed_perm r id)
  have hlength := (shardsBySeed_perm r id).length_eq
  simp only [snapshot, Option.map_eq_some_iff, hcounts, hlength, terminal_eq]
  constructor
  · rintro ⟨j, hj, rfl⟩
    exact ⟨j, hj, rfl, rfl, rfl, rfl, rfl, rfl, rfl, rfl⟩
  · rintro ⟨j, hj, hid, happ, hstart, hfinish, hstates, htransitions, hprogress, hdetail⟩
    refine ⟨j, hj, ?_⟩
    cases v
    simp only [JobSnapshot.progress, progressOf, JobProgress.mk.injEq] at hprogress
    obtain ⟨hshards, hdone, hfindings, hcomplete⟩ := hprogress
    simp_all

theorem listItem_progress (j : JobRow) : (listItem q (id, j)).progress = progressOf j q id := by
  simp only [listItem, JobListItem.progress, progressOf, terminal_eq]

theorem mem_listJobs {limit : Int} {item : JobListItem} (h : item ∈ listJobs q limit) :
    ∃ j, q.jobs.get? item.id = some j ∧ item = listItem q (item.id, j) := by
  obtain ⟨⟨k, j⟩, hmem, rfl⟩ := List.mem_map.1 h
  have hrow := (List.mem_insertionSort _).1 (List.mem_of_mem_take hmem)
  exact ⟨j, Table.get?_eq_some_iff.2 hrow, rfl⟩

end Reports

/-! ## Where a report comes from -/

/-- A shard that is over has what a worker sent for a claim of it. -/
def WasReported (es : List FleetEvent) (s : Fleet) (org : Int64) (k : ShardKey) (row : ShardRow) :
    Prop :=
  ∃ i chance res e, FleetEvent.result i chance res ∈ es ∧ s.issued[i]? = some e ∧ e.org = org ∧
    e.shard.key = k ∧ row.claimedBy = some e.shard.claimedBy ∧
    mapStatus res.status = some row.state ∧ row.report = res.report ∧
    row.durationS = res.durationS.getD 0

/-- Every shard that is over was over before, as it is. -/
def KeepsEnded (q q' : QueueStore) : Prop :=
  ∀ k row, q'.shards.get? k = some row → row.state.terminal = true → q.shards.get? k = some row

/-- The same over all tenants. -/
def EndsNone (s s' : Fleet) : Prop :=
  ∀ org q', s'.tenants.get? org = some q' →
    (∀ k row, q'.shards.get? k = some row → row.state.terminal = false) ∨
      ∃ q, s.tenants.get? org = some q ∧ KeepsEnded q q'

/-- No worker that a claim was granted to, or that polls, has a colon in its id. -/
structure WorkersReadable (s : Fleet) : Prop where
  issued : ∀ e ∈ s.issued, ':' ∉ e.shard.claimedBy.toList
  polls : ∀ op ∈ s.inFlight, ∀ poll, op.poll? = some poll → ':' ∉ poll.worker.toList

section Readable

variable {cfg : SchedulerConfig} {s s' : Fleet}

theorem WorkersReadable.append (h : WorkersReadable s) {op : Operation}
    (hop : ∀ poll, op.poll? = some poll → ':' ∉ poll.worker.toList) :
    WorkersReadable { s with inFlight := s.inFlight ++ [op] } := by
  refine ⟨h.issued, fun o ho => ?_⟩
  rcases List.mem_append.1 ho with ho | ho
  · exact h.polls o ho
  · rw [List.mem_singleton.1 ho]
    exact hop

theorem workersReadable_advance {i : Nat} {chance : Chance} (h : WorkersReadable s)
    (hstep : stepFleet cfg s (.advance i chance) = some s') : WorkersReadable s' := by
  simp only [stepFleet, Option.map_eq_some_iff] at hstep
  obtain ⟨op, hop, rfl⟩ := hstep
  have hmem := List.mem_of_getElem? hop
  refine ⟨?_, fun o ho poll hpoll => ?_⟩
  · have heffect := operationEffect_step cfg s chance op
    generalize (stepOperation cfg s chance op).1 = t at heffect ⊢
    cases heffect with
    | nothing => exact h.issued
    | mark => exact h.issued
    | clear => exact h.issued
    | requeue => exact h.issued
    | finish => exact h.issued
    | claim _ hclaim =>
      intro e he
      rcases List.mem_append.1 he with he | he
      · exact h.issued e he
      · obtain ⟨-, -, -, -, -, hby, -, -⟩ := claimShard_spec hclaim
        rw [List.mem_singleton.1 he, hby]
        exact h.polls _ hmem _ rfl
  · rcases mem_replaceAt.1 ho with ho | ho
    · exact h.polls o ((mem_iff_replaceAt hop).2 (.inl ho)) poll hpoll
    · rcases poll?_step ho with hnone | hsame
      · rw [hnone] at hpoll
        cases hpoll
      · exact h.polls op hmem poll (hsame ▸ hpoll)

theorem workersReadable_step {e : FleetEvent} (h : WorkersReadable s)
    (hstep : stepFleet cfg s e = some s') : WorkersReadable s' := by
  cases e with
  | provision org =>
    simp only [stepFleet, Option.map_eq_some_iff] at hstep
    obtain ⟨tenants, -, rfl⟩ := hstep
    exact ⟨h.issued, h.polls⟩
  | submit org spec id now =>
    simp only [stepFleet, Option.ite_none_left_eq_some, Option.bind_eq_some_iff,
      Option.map_eq_some_iff] at hstep
    obtain ⟨-, q, -, q', -, rfl⟩ := hstep
    have hnew : WorkersReadable { s with inFlight := s.inFlight ++ [.submitted org] } :=
      h.append fun poll hpoll => by cases hpoll
    exact ⟨hnew.issued, hnew.polls⟩
  | poll workerId uuid capabilities =>
    simp only [stepFleet, Option.ite_none_right_eq_some] at hstep
    obtain ⟨huuid, heq⟩ := hstep
    cases heq
    refine h.append fun poll hpoll => ?_
    cases hpoll
    exact colon_not_mem_sanitizeWorkerId _ (colon_not_mem_minted huuid)
  | sweep orgs =>
    cases hstep
    exact h.append fun poll hpoll => by cases hpoll
  | advance i chance => exact workersReadable_advance h hstep
  | abandon i =>
    simp only [stepFleet, Option.ite_none_right_eq_some] at hstep
    obtain ⟨hi, heq⟩ := hstep
    cases heq
    refine ⟨h.issued, fun op hop => ?_⟩
    exact h.polls op ((mem_iff_replaceAt (List.getElem?_eq_getElem hi)).2 (.inl hop))
  | heartbeat i chance =>
    simp only [stepFleet, Option.map_eq_some_iff] at hstep
    obtain ⟨e, -, rfl⟩ := hstep
    rcases heartbeat_cases s chance e.token with heq | ⟨_, _, _, _, _, -, -, -, heq⟩ <;> rw [heq]
    · exact h
    · exact ⟨h.issued, h.polls⟩
  | result i chance res =>
    simp only [stepFleet, Option.map_eq_some_iff] at hstep
    obtain ⟨e, -, rfl⟩ := hstep
    rcases result_cases s chance e.token res with heq | ⟨org, job, _, _, _, _, -, -, -, -, heq⟩ <;>
      rw [heq]
    · exact h
    · have hnew : WorkersReadable { s with inFlight := s.inFlight ++ [.reported org job] } :=
        h.append fun poll hpoll => by cases hpoll
      exact ⟨hnew.issued, hnew.polls⟩
  | start i chance =>
    simp only [stepFleet, Option.map_eq_some_iff] at hstep
    obtain ⟨e, -, rfl⟩ := hstep
    rcases startEmbedded_cases s chance e.org e.shard with heq | ⟨_, -, -, heq⟩ <;> rw [heq]
    · exact h
    · exact ⟨h.issued, h.polls⟩

end Readable

section Ended

variable {cfg : SchedulerConfig} {s s' : Fleet} {q q' : QueueStore}

theorem KeepsEnded.refl (q : QueueStore) : KeepsEnded q q := fun _ _ hrow _ => hrow

/-- An update that ends no shard. -/
theorem keepsEnded_updateShards {p : ShardKey → ShardRow → Bool} {f : ShardRow → ShardRow}
    (h : ∀ k row, p k row = true → (f row).state.terminal = false) :
    KeepsEnded q (q.updateShards p f) := by
  intro k row hrow hover
  rw [QueueStore.get?_updateShards, Option.map_eq_some_iff] at hrow
  obtain ⟨row', hrow', rfl⟩ := hrow
  by_cases hp : p k row' = true
  · rw [if_pos hp, h k row' hp] at hover
    cases hover
  · rw [if_neg hp]
    exact hrow'

theorem keepsEnded_insertJob {job : Job} (h : insertJob q job = some q') : KeepsEnded q q' := by
  intro k row hrow hover
  rcases get?_insertJob h hrow with hold | ⟨-, rfl⟩
  · exact hold
  · cases hover

theorem EndsNone.of_same (h : s'.tenants = s.tenants) : EndsNone s s' :=
  fun _ q' hq' => .inr ⟨q', h ▸ hq', .refl q'⟩

theorem EndsNone.setTenant {org : Int64} (hq : s.tenants.get? org = some q)
    (hkeeps : KeepsEnded q q') (hs' : s'.tenants = (s.setTenant org q').tenants) :
    EndsNone s s' := by
  intro k r hr
  rw [hs', Fleet.get?_setTenant hq] at hr
  split at hr
  · rename_i hk
    subst hk
    cases hr
    exact .inr ⟨q, hq, hkeeps⟩
  · exact .inr ⟨r, hr, .refl r⟩

theorem endsNone_advance {i : Nat} {chance : Chance}
    (hstep : stepFleet cfg s (.advance i chance) = some s') : EndsNone s s' := by
  simp only [stepFleet, Option.map_eq_some_iff] at hstep
  obtain ⟨op, -, rfl⟩ := hstep
  have heffect := operationEffect_step cfg s chance op
  generalize (stepOperation cfg s chance op).2 = next
  generalize (stepOperation cfg s chance op).1 = t at heffect ⊢
  cases heffect with
  | nothing => exact .of_same rfl
  | mark => exact .of_same rfl
  | clear => exact .of_same rfl
  | requeue hq => exact .setTenant hq (keepsEnded_updateShards fun _ _ _ => rfl) rfl
  | claim hq hclaim =>
    obtain ⟨-, -, -, -, -, -, -, rfl⟩ := claimShard_spec hclaim
    exact .setTenant hq (keepsEnded_updateShards fun _ _ _ => rfl) rfl
  | @finish org job q hq =>
    have hkeeps : KeepsEnded q (finalizeJob q chance.now job 0 0) := fun _ _ hrow _ => hrow
    exact .setTenant hq hkeeps rfl

/-- Only a result ends a shard. -/
theorem endsNone_step {e : FleetEvent} (hstep : stepFleet cfg s e = some s')
    (hresult : ∀ i chance res, e ≠ .result i chance res) : EndsNone s s' := by
  cases e with
  | provision org =>
    simp only [stepFleet, Option.map_eq_some_iff] at hstep
    obtain ⟨tenants, hins, rfl⟩ := hstep
    intro k q' hq'
    rw [Table.get?_insert? hins] at hq'
    split at hq'
    · cases hq'
      refine .inl fun k row hrow => ?_
      cases hrow
    · exact .inr ⟨q', hq', .refl q'⟩
  | submit org spec id now =>
    simp only [stepFleet, Option.ite_none_left_eq_some, Option.bind_eq_some_iff,
      Option.map_eq_some_iff] at hstep
    obtain ⟨-, q, hq, q', hins, rfl⟩ := hstep
    exact .setTenant hq (keepsEnded_insertJob hins) rfl
  | poll workerId uuid capabilities =>
    simp only [stepFleet, Option.ite_none_right_eq_some] at hstep
    obtain ⟨-, heq⟩ := hstep
    cases heq
    exact .of_same rfl
  | sweep orgs =>
    cases hstep
    exact .of_same rfl
  | advance i chance => exact endsNone_advance hstep
  | abandon i =>
    simp only [stepFleet, Option.ite_none_right_eq_some] at hstep
    obtain ⟨-, heq⟩ := hstep
    cases heq
    exact .of_same rfl
  | heartbeat i chance =>
    simp only [stepFleet, Option.map_eq_some_iff] at hstep
    obtain ⟨e, -, rfl⟩ := hstep
    rcases heartbeat_cases s chance e.token with
      heq | ⟨_, job, seed, worker, q, -, hq, -, heq⟩ <;> rw [heq]
    · exact .of_same rfl
    · have hkeeps : KeepsEnded q (touchShard q chance.now job seed worker).2 :=
        keepsEnded_updateShards fun _ _ hp => terminal_of_heldBy hp
      exact .setTenant hq hkeeps rfl
  | result i chance res => exact absurd rfl (hresult i chance res)
  | start i chance =>
    simp only [stepFleet, Option.map_eq_some_iff] at hstep
    obtain ⟨e, -, rfl⟩ := hstep
    rcases startEmbedded_cases s chance e.org e.shard with heq | ⟨q, hq, -, heq⟩ <;> rw [heq]
    · exact .of_same rfl
    · exact .setTenant hq (keepsEnded_updateShards fun _ _ _ => rfl) rfl

/-- A result ends no other shard than the one that its claim is for, and ends it as it says. -/
theorem ended_result {i : Nat} {chance : Chance} {res : ResultReq} (hreadable : WorkersReadable s)
    (hstep : stepFleet cfg s (.result i chance res) = some s') {org : Int64}
    (hq' : s'.tenants.get? org = some q') {k : ShardKey} {row : ShardRow}
    (hrow : q'.shards.get? k = some row) (hover : row.state.terminal = true) :
    (∃ q, s.tenants.get? org = some q ∧ q.shards.get? k = some row) ∨
      ∃ e, s.issued[i]? = some e ∧ e.org = org ∧ e.shard.key = k ∧
        row.claimedBy = some e.shard.claimedBy ∧ mapStatus res.status = some row.state ∧
        row.report = res.report ∧ row.durationS = res.durationS.getD 0 := by
  simp only [stepFleet, Option.map_eq_some_iff] at hstep
  obtain ⟨e, he, rfl⟩ := hstep
  unfold result at hq'
  cases hparse : parseShardId e.token with
  | none =>
    rw [hparse] at hq'
    exact .inl ⟨q', hq', hrow⟩
  | some parsed =>
    obtain ⟨org0, job, seed, worker⟩ := parsed
    obtain ⟨rfl, rfl, rfl, rfl⟩ :=
      eq_of_parseShardId (hreadable.issued e (List.mem_of_getElem? he)) hparse
    rw [hparse] at hq'
    cases hstatus : mapStatus res.status with
    | none =>
      simp only [hstatus] at hq'
      exact .inl ⟨q', hq', hrow⟩
    | some state =>
      cases hq : s.tenants.get? e.org with
      | none =>
        simp only [hstatus, hq] at hq'
        exact .inl ⟨q', hq', hrow⟩
      | some q =>
        simp only [hstatus, hq] at hq'
        split at hq'
        · exact .inl ⟨q', hq', hrow⟩
        · split at hq'
          · rw [show Table.get? _ org = (s.setTenant e.org _).tenants.get? org from rfl,
              Fleet.get?_setTenant hq] at hq'
            split at hq'
            · rename_i horg
              cases hq'
              rw [setShard, QueueStore.get?_updateShards, Option.map_eq_some_iff] at hrow
              obtain ⟨row', hrow', rfl⟩ := hrow
              split at hover
              · rename_i hheld
                obtain ⟨hkey, hby, -⟩ := heldBy_iff.1 hheld
                rw [if_pos hheld]
                exact .inr ⟨e, he, horg.symm, hkey.symm, hby, rfl, rfl, rfl⟩
              · rename_i hheld
                rw [if_neg hheld]
                exact .inl ⟨q, horg ▸ hq, hrow'⟩
            · exact .inl ⟨q', hq', hrow⟩
          · exact .inl ⟨q', hq', hrow⟩

end Ended

/-- Every shard that is over was reported. -/
def EndsReported (es : List FleetEvent) (s : Fleet) : Prop :=
  ∀ org q, s.tenants.get? org = some q → ∀ k row, q.shards.get? k = some row →
    row.state.terminal = true → WasReported es s org k row

section Reported

variable {cfg : SchedulerConfig} {s s' : Fleet} {es es' : List FleetEvent}

/-- Granted claims stay in the log, at their places. -/
theorem issued_step {e : FleetEvent} (hstep : stepFleet cfg s e = some s') {i : Nat} {c : Issued}
    (hc : s.issued[i]? = some c) : s'.issued[i]? = some c := by
  cases fleetChange_step hstep with
  | same _ hissued => rw [hissued, hc]
  | provision _ hissued => rw [hissued, hc]
  | write _ _ _ _ hissued => rw [hissued, hc]
  | claim _ _ _ hissued =>
    rw [hissued, List.getElem?_append_left (List.getElem?_eq_some_iff.1 hc).1, hc]
  | finish _ _ _ hissued => rw [hissued, hc]

theorem WasReported.later {org : Int64} {k : ShardKey} {row : ShardRow}
    (h : WasReported es s org k row) (hes : es ⊆ es')
    (hissued : ∀ (i : Nat) (c : Issued), s.issued[i]? = some c → s'.issued[i]? = some c) :
    WasReported es' s' org k row := by
  obtain ⟨i, chance, res, c, hmem, hc, hrest⟩ := h
  exact ⟨i, chance, res, c, hes hmem, hissued i c hc, hrest⟩

theorem endsReported_step {e : FleetEvent} (h : EndsReported es s) (hreadable : WorkersReadable s)
    (hstep : stepFleet cfg s e = some s') : EndsReported (es ++ [e]) s' := by
  intro org q' hq' k row hrow hover
  have hlater : ∀ q, s.tenants.get? org = some q → q.shards.get? k = some row →
      WasReported (es ++ [e]) s' org k row := by
    intro q hq hold
    have hreported : WasReported es s org k row := h org q hq k row hold hover
    exact hreported.later (List.subset_append_left es [e]) fun _ _ hc => issued_step hstep hc
  by_cases hresult : ∃ i chance res, e = .result i chance res
  · obtain ⟨i, chance, res, rfl⟩ := hresult
    rcases ended_result hreadable hstep hq' hrow hover with ⟨q, hq, hold⟩ | ⟨c, hc, hrest⟩
    · exact hlater q hq hold
    · exact ⟨i, chance, res, c, by simp, issued_step hstep hc, hrest⟩
  · have hnone := endsNone_step hstep fun i chance res heq => hresult ⟨i, chance, res, heq⟩
    rcases hnone org q' hq' with hopen | ⟨q, hq, hkeeps⟩
    · rw [hopen k row hrow] at hover
      cases hover
    · exact hlater q hq (hkeeps k row hrow hover)

theorem endsReported_run (h : Run (FleetStep cfg) s es' s') (hreported : EndsReported es s)
    (hreadable : WorkersReadable s) : EndsReported (es ++ es') s' := by
  induction h generalizing es with
  | nil => rwa [List.append_nil]
  | @cons s u s' e es' hstep _ ih =>
    have hrest := ih (endsReported_step hreported hreadable hstep)
      (workersReadable_step hreadable hstep)
    rwa [List.append_assoc, List.singleton_append] at hrest

end Reported

theorem workersReadable_empty : WorkersReadable {} := by
  constructor
  · intro e he
    cases he
  · intro op hop
    cases hop

theorem endsReported_empty : EndsReported [] {} := by
  intro org q hq
  cases hq

/-! ## Results -/

/-- Whatever comes in between its two reads, a snapshot of a job says no more than a later one, and
one that calls the job complete is final.  The list goes forward alike. -/
theorem job_reports_go_forward {cfg : SchedulerConfig} {s t s' t' : Fleet}
    {es es₁ es₂ es₃ : List FleetEvent} (h : Run (FleetStep cfg) {} es s)
    (hread : Run (FleetStep cfg) s es₁ t) (hrun : Run (FleetStep cfg) t es₂ s')
    (hread' : Run (FleetStep cfg) s' es₃ t') {org : Int64} {q r : QueueStore}
    (hq : s.tenants.get? org = some q) (hr : t.tenants.get? org = some r) :
    ∃ q' r', s'.tenants.get? org = some q' ∧ t'.tenants.get? org = some r' ∧
      (∀ id v, snapshot q r id = some v → ∃ v', snapshot q' r' id = some v' ∧ v.GoesOn v') ∧
      ∀ limit limit', ∀ item ∈ listJobs r limit, ∀ item' ∈ listJobs r' limit',
        item'.id = item.id → item.progress.Before item'.progress := by
  have hends : EndsSound s :=
    h.invariant EndsSound (fun _ _ _ hi hstep => hi.step hstep) endsSound_empty
  have hends' : EndsSound t :=
    hread.invariant EndsSound (fun _ _ _ hi hstep => hi.step hstep) hends
  obtain ⟨r₀, hr₀, hqr⟩ := fleetAdvances_run hread org q hq
  rw [hr, Option.some.injEq] at hr₀
  subst hr₀
  obtain ⟨q', hq', hkept⟩ := jobsKept_run (hread.append hrun) hq
  obtain ⟨r', hr', hrr'⟩ := fleetAdvances_run (hrun.append hread') org r hr
  obtain ⟨r₁, hr₁, hkept'⟩ := jobsKept_run (hrun.append hread') hr
  rw [hr', Option.some.injEq] at hr₁
  subst hr₁
  refine ⟨q', r', hq', hr', fun id v hv => ?_, fun limit limit' item hitem item' hitem' hid => ?_⟩
  · obtain ⟨j, hj, hid, happ, hstart, -, -, -, hprogress, hdetail⟩ := snapshot_eq_some.1 hv
    obtain ⟨j', hj', happ', hstart', hfinished⟩ := hkept id j hj
    have hknown : r.jobs.has id = true := by
      refine hqr.frame.jobs id ?_
      rw [Table.has, hj]
      rfl
    have hover : j.finishedAt.isSome = true → JobOver r id := fun hf =>
      (hends.finished org q hq id j hj hf).advances hqr
    obtain ⟨v', hv'⟩ : ∃ v', snapshot q' r' id = some v' := by
      rw [snapshot, hj']
      exact ⟨_, rfl⟩
    obtain ⟨j₁, hj₁, hid', happ₁, hstart₁, -, -, -, hprogress', hdetail'⟩ := snapshot_eq_some.1 hv'
    rw [hj', Option.some.injEq] at hj₁
    subst hj₁
    refine ⟨v', hv', ⟨hid'.trans hid.symm, ?_, ?_⟩, ?_, fun d hd hended => ?_, fun hcomplete => ?_⟩
    · rw [happ₁, happ', happ]
    · rw [hstart₁, hstart', hstart]
    · rw [hprogress, hprogress']
      exact progressOf_before hrr' hknown hover hfinished
    · rw [hdetail] at hd
      rw [hdetail']
      obtain ⟨row, hrow, rfl⟩ := List.mem_map.1 hd
      have hmem := (shardsBySeed_perm r id).mem_iff.1 hrow
      exact List.mem_map_of_mem ((shardsBySeed_perm r' id).mem_iff.2
        (mem_shardsOf_advances hrr' hmem hended))
    · have hfinal : j.finishedAt.isSome = true := by
        have heq : v.progress.complete = (progressOf j r id).complete := by rw [hprogress]
        exact heq.symm.trans hcomplete
      refine ⟨fun d hd => ?_, ?_⟩
      · rw [hdetail] at hd
        obtain ⟨row, hrow, rfl⟩ := List.mem_map.1 hd
        obtain ⟨hget, hjob⟩ := mem_shardsOf.1 ((shardsBySeed_perm r id).mem_iff.1 hrow)
        exact (hover hfinal).done row.1 row.2 hget hjob
      · rw [hdetail, hdetail', shardsBySeed_congr (shardsOf_perm_of_over hrr' (hover hfinal))]
  · obtain ⟨j, hj, hlist⟩ := mem_listJobs hitem
    obtain ⟨j', hj', hlist'⟩ := mem_listJobs hitem'
    obtain ⟨j₁, hj₁, -, -, hfinished⟩ := hkept' item.id j hj
    rw [hid, hj₁, Option.some.injEq] at hj'
    subst hj'
    rw [hlist, hlist', hid, listItem_progress, listItem_progress]
    refine progressOf_before hrr' ?_ (hends'.finished org r hr item.id j hj) hfinished
    rw [Table.has, hj]
    rfl

/-- The shard of the job ends between the two reads of the first snapshot. -/
theorem job_reports_go_forward_solo :
    ∃ s t s' q r q' r' v v', Run (FleetStep .hosted) {} claimSolo s ∧
      Run (FleetStep .hosted) s [.result 0 {} { status := "finding", report := some "# fuzz" }] t ∧
      Run (FleetStep .hosted) t [.advance 0 {}, .advance 0 {}] s' ∧
      s.tenants.get? 1 = some q ∧ t.tenants.get? 1 = some r ∧
      s'.tenants.get? 1 = some q' ∧ s'.tenants.get? 1 = some r' ∧
      snapshot q r "job-a" = some v ∧ snapshot q' r' "job-a" = some v' ∧
      v.progress = ⟨1, 1, 1, false⟩ ∧ v'.progress = ⟨1, 1, 1, true⟩ ∧ v.GoesOn v' := by
  have hsome : ((runOf (stepFleet .hosted) {} claimSolo).bind fun s =>
      (runOf (stepFleet .hosted) s
        [.result 0 {} { status := "finding", report := some "# fuzz" }]).bind fun t =>
          (runOf (stepFleet .hosted) t [.advance 0 {}, .advance 0 {}]).map fun s' =>
            ((s.tenants.get? 1).bind fun q => (t.tenants.get? 1).bind fun r =>
                (snapshot q r "job-a").map JobSnapshot.progress,
              (s'.tenants.get? 1).bind fun q => (snapshot q q "job-a").map JobSnapshot.progress)) =
      some (some ⟨1, 1, 1, false⟩, some ⟨1, 1, 1, true⟩) := by decide
  obtain ⟨s, hs, hrest⟩ := Option.bind_eq_some_iff.1 hsome
  obtain ⟨t, ht, hrest⟩ := Option.bind_eq_some_iff.1 hrest
  obtain ⟨s', hs', hrest⟩ := Option.map_eq_some_iff.1 hrest
  rw [Prod.mk.injEq] at hrest
  obtain ⟨hfirst, hsecond⟩ := hrest
  obtain ⟨q, hq, hfirst⟩ := Option.bind_eq_some_iff.1 hfirst
  obtain ⟨r, hr, hfirst⟩ := Option.bind_eq_some_iff.1 hfirst
  obtain ⟨v, hv, hprogress⟩ := Option.map_eq_some_iff.1 hfirst
  obtain ⟨q', hq', hsecond⟩ := Option.bind_eq_some_iff.1 hsecond
  obtain ⟨v', hv', hprogress'⟩ := Option.map_eq_some_iff.1 hsecond
  obtain ⟨q₁, r₁, hq₁, hr₁, hforward, -⟩ := job_reports_go_forward (Run.of_runOf hs)
    (Run.of_runOf ht) (Run.of_runOf hs') (.nil s') hq hr
  rw [hq', Option.some.injEq] at hq₁ hr₁
  subst hq₁ hr₁
  obtain ⟨v₁, hv₁, hgoes⟩ := hforward "job-a" v hv
  rw [hv', Option.some.injEq] at hv₁
  subst hv₁
  exact ⟨s, t, s', q, r, q', q', v, v', Run.of_runOf hs, Run.of_runOf ht, Run.of_runOf hs', hq, hr,
    hq', hq', hv, hv', hprogress, hprogress', hgoes⟩

/-- A shard that a snapshot shows as over is shown with the state, the report and the duration that
were sent for a claim of it. -/
theorem ended_shards_were_reported {cfg : SchedulerConfig} {s : Fleet} {es : List FleetEvent}
    (h : Run (FleetStep cfg) {} es s) {org : Int64} {q r : QueueStore}
    (hr : s.tenants.get? org = some r) {id : String} {v : JobSnapshot}
    (hv : snapshot q r id = some v) :
    ∀ d ∈ v.shardDetail, d.state.terminal = true →
      ∃ i chance res e, FleetEvent.result i chance res ∈ es ∧ s.issued[i]? = some e ∧
        e.org = org ∧ e.shard.key = (id, d.seed) ∧ mapStatus res.status = some d.state ∧
        d.report = res.report ∧ d.durationS = res.durationS.getD 0 := by
  have hreported := endsReported_run h endsReported_empty workersReadable_empty
  rw [List.nil_append] at hreported
  intro d hd hended
  obtain ⟨-, -, -, -, -, -, -, -, -, hdetail⟩ := snapshot_eq_some.1 hv
  rw [hdetail] at hd
  obtain ⟨⟨k, row⟩, hrow, rfl⟩ := List.mem_map.1 hd
  obtain ⟨hget, rfl⟩ := mem_shardsOf.1 ((shardsBySeed_perm r id).mem_iff.1 hrow)
  obtain ⟨i, chance, res, e, hmem, he, horg, hkey, -, hstate, hreport, hduration⟩ :=
    hreported org r hr k row hget hended
  exact ⟨i, chance, res, e, hmem, he, horg, hkey, hstate, hreport, hduration⟩

theorem ended_shards_were_reported_solo :
    ∃ s r v, Run (FleetStep .hosted) {} finishSolo s ∧ s.tenants.get? 1 = some r ∧
      snapshot r r "job-a" = some v ∧ ⟨1, .clean, none, 0⟩ ∈ v.shardDetail ∧
      ∃ i chance res, FleetEvent.result i chance res ∈ finishSolo ∧
        mapStatus res.status = some .clean := by
  have hsome : (runOf (stepFleet .hosted) {} finishSolo).bind (fun s =>
      (s.tenants.get? 1).bind fun r => (snapshot r r "job-a").map JobSnapshot.shardDetail) =
      some [⟨1, .clean, none, 0⟩] := by decide
  obtain ⟨s, hs, hrest⟩ := Option.bind_eq_some_iff.1 hsome
  obtain ⟨r, hr, hrest⟩ := Option.bind_eq_some_iff.1 hrest
  obtain ⟨v, hv, hdetail⟩ := Option.map_eq_some_iff.1 hrest
  have hmem : ⟨1, .clean, none, 0⟩ ∈ v.shardDetail := by
    rw [hdetail]
    exact List.mem_singleton_self _
  obtain ⟨i, chance, res, -, hresult, -, -, -, hstate, -⟩ :=
    ended_shards_were_reported (Run.of_runOf hs) hr hv _ hmem rfl
  exact ⟨s, r, v, Run.of_runOf hs, hr, hv, hmem, i, chance, res, hresult, hstate⟩

end ReproitCloud
