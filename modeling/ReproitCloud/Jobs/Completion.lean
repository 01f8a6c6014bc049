import ReproitCloud.Jobs.Fencing

/-!
# The life of a shard and the end of a job

A shard is pending, running and then over, and nothing moves a shard that is over.
`QueueAdvances` is what a statement does to the shards there are, and
`FleetAdvances` is the same of a whole run, over all tenants.

A job ends in two more calls after the last result: `job_incomplete`, and
`finalize_job` when it said no.  `EndsSound` says that whoever is about to finalize
a job has seen all its shards over, which they remain.  So `finished_at` is never
set early (`shards_and_jobs_safe`).

It can be missed.  The two calls follow the last result and nothing repeats them:
the sweep looks at running shards only.  `EndAttended` says that a job without
`finished_at` has a shard to wait for or a handler under way, and a run keeps it as
long as no handler gives up a job that waits for nothing else
(`completed_job_is_finished`).
-/

namespace ReproitCloud

open Lib

/-! ## What a statement does to the shards there are -/

/-- Every shard is still there, with as many claims or more, and unchanged when it was
over.  No shard is added to a job that was there. -/
structure QueueAdvances (q q' : QueueStore) : Prop where
  shards : ∀ k r, q.shards.get? k = some r → ∃ r', q'.shards.get? k = some r' ∧
    r.attempts ≤ r'.attempts ∧ (r.state.terminal = true → r' = r)
  frame : QueueExtends q q'

/-- The job is there, and all its shards are over. -/
structure JobOver (q : QueueStore) (job : String) : Prop where
  known : q.jobs.has job = true
  done : ∀ k r, q.shards.get? k = some r → k.1 = job → r.state.terminal = true

section Queue

variable {q q' q'' : QueueStore}

theorem QueueAdvances.refl (q : QueueStore) : QueueAdvances q q :=
  ⟨fun _ r hr => ⟨r, hr, Nat.le_refl _, fun _ => rfl⟩, .refl q⟩

theorem QueueAdvances.trans (h : QueueAdvances q q') (h' : QueueAdvances q' q'') :
    QueueAdvances q q'' := by
  refine ⟨fun k r hr => ?_, fun j hj => h'.frame.jobs j (h.frame.jobs j hj), fun k r hr hk => ?_⟩
  · obtain ⟨r', hr', hle, hsame⟩ := h.shards k r hr
    obtain ⟨r'', hr'', hle', hsame'⟩ := h'.shards k r' hr'
    refine ⟨r'', hr'', hle.trans hle', fun hover => ?_⟩
    have heq : r' = r := hsame hover
    subst heq
    exact hsame' hover
  · obtain ⟨r', hr', hbackend'⟩ := h'.frame.shards k r hr (h.frame.jobs _ hk)
    obtain ⟨r0, hr0, hbackend⟩ := h.frame.shards k r' hr' hk
    exact ⟨r0, hr0, hbackend.trans hbackend'⟩

/-- An update of shards that are not over. -/
theorem queueAdvances_updateShards {p : ShardKey → ShardRow → Bool} {f : ShardRow → ShardRow}
    (hstep : QueueStep q (q.updateShards p f))
    (hopen : ∀ k r, q.shards.get? k = some r → p k r = true → r.state.terminal = false)
    (hattempts : ∀ r, r.attempts ≤ (f r).attempts) :
    QueueAdvances q (q.updateShards p f) := by
  refine ⟨fun k r hr => ?_, hstep.extends⟩
  rw [QueueStore.get?_updateShards, hr, Option.map_some]
  refine ⟨_, rfl, ?_⟩
  by_cases hp : p k r = true
  · rw [if_pos hp]
    refine ⟨hattempts r, fun hover => ?_⟩
    rw [hopen k r hr hp] at hover
    cases hover
  · rw [if_neg hp]
    exact ⟨Nat.le_refl _, fun _ => rfl⟩

theorem terminal_of_heldBy {key k : ShardKey} {worker : String} {r : ShardRow}
    (h : heldBy key worker k r = true) : r.state.terminal = false := by
  rw [(heldBy_iff.1 h).2.2]
  rfl

theorem QueueStep.advances (h : QueueStep q q') : QueueAdvances q q' := by
  have hstep := h
  cases h with
  | insert hins =>
    refine ⟨fun k r hr => ⟨r, ?_, Nat.le_refl _, fun _ => rfl⟩, hstep.extends⟩
    rw [Table.get?_eq_some_iff, (insertJob_spec hins).2.2]
    exact List.mem_append_left _ (Table.get?_eq_some_iff.1 hr)
  | claim hclaim =>
    obtain ⟨s, hs, hpending, -, -, -, -, rfl⟩ := claimShard_spec hclaim
    refine queueAdvances_updateShards hstep (fun k r hr hk => ?_) fun r => Nat.le_succ _
    rw [of_decide_eq_true hk, hs, Option.some.injEq] at hr
    rw [← hr, hpending]
    rfl
  | touch =>
    exact queueAdvances_updateShards hstep (fun _ _ _ hp => terminal_of_heldBy hp)
      fun _ => Nat.le_refl _
  | set =>
    exact queueAdvances_updateShards hstep (fun _ _ _ hp => terminal_of_heldBy hp)
      fun _ => Nat.le_refl _
  | requeue =>
    refine queueAdvances_updateShards hstep (fun k r _ hp => ?_) fun _ => Nat.le_refl _
    simp only [stranded, Bool.and_eq_true, decide_eq_true_eq] at hp
    rw [hp.1]
    rfl
  | finalize => exact ⟨fun _ r hr => ⟨r, hr, Nat.le_refl _, fun _ => rfl⟩, hstep.extends⟩

/-- A job that is over stays over. -/
theorem JobOver.advances {job : String} (h : JobOver q job) (hadv : QueueAdvances q q') :
    JobOver q' job := by
  refine ⟨hadv.frame.jobs job h.known, fun k r' hr' hk => ?_⟩
  obtain ⟨r, hr, -⟩ := hadv.frame.shards k r' hr' (hk ▸ h.known)
  have hover := h.done k r hr hk
  obtain ⟨r'', hr'', -, hsame⟩ := hadv.shards k r hr
  rw [hr', Option.some.injEq] at hr''
  rw [hr'', hsame hover]
  exact hover

/-- `job_incomplete` says no exactly when all shards of the job are over. -/
theorem jobIncomplete_eq_false_iff {job : String} :
    jobIncomplete q job = false ↔
      ∀ k r, q.shards.get? k = some r → k.1 = job → r.state.terminal = true := by
  rw [jobIncomplete, decide_eq_false_iff_not, Nat.not_lt, Nat.le_zero, Table.count_eq_zero_iff]
  simp

theorem jobIncomplete_eq_true_iff {job : String} :
    jobIncomplete q job = true ↔
      ∃ k r, q.shards.get? k = some r ∧ k.1 = job ∧ r.state.terminal = false := by
  rw [← not_iff_not, Bool.not_eq_true, jobIncomplete_eq_false_iff]
  push Not
  simp only [ne_eq, Bool.not_eq_false]

end Queue

/-! ## What a step does to the queues -/

/-- Every job that ends up finished was finished before. -/
def FinishesNone (q q' : QueueStore) : Prop :=
  ∀ job j', q'.jobs.get? job = some j' → j'.finishedAt.isSome = true →
    ∃ j, q.jobs.get? job = some j ∧ j.finishedAt.isSome = true

/-- A step of the fleet, by what it writes to the queues. -/
inductive FleetChange (s s' : Fleet) : Prop
  | same : s'.tenants = s.tenants → s'.issued = s.issued → FleetChange s s'
  | provision {org : Int64} : s.tenants.insert? org QueueStore.empty = some s'.tenants →
      s'.issued = s.issued → FleetChange s s'
  | write {org : Int64} {q q' : QueueStore} : s.tenants.get? org = some q → QueueStep q q' →
      FinishesNone q q' → s'.tenants = (s.setTenant org q').tenants → s'.issued = s.issued →
      FleetChange s s'
  | claim {org : Int64} {q q' : QueueStore} {locked : List ShardKey} {now : Micros}
      {worker : String} {capabilities : List String} {job : Option String} {c : ClaimedShard} :
      s.tenants.get? org = some q →
      claimShard q locked now worker capabilities job = some (c, q') →
      s'.tenants = (s.setTenant org q').tenants →
      s'.issued = s.issued ++ [⟨org, c, ((q.shards.get? c.key).elim 0 ShardRow.attempts) + 1⟩] →
      FleetChange s s'
  /-- Only who found a job complete finalizes it. -/
  | finish {org : Int64} {job : String} {q : QueueStore} {now : Micros} :
      s.tenants.get? org = some q → .finishing org job ∈ s.inFlight →
      s'.tenants = (s.setTenant org (finalizeJob q now job 0 0)).tenants → s'.issued = s.issued →
      FleetChange s s'

section Change

variable {cfg : SchedulerConfig} {s s' : Fleet}

theorem finishesNone_of_jobs {q q' : QueueStore} (h : q'.jobs = q.jobs) : FinishesNone q q' :=
  fun _ j' hj' hf => ⟨j', h ▸ hj', hf⟩

/-- A new job is not finished. -/
theorem finishesNone_insertJob {q q' : QueueStore} {job : Job} (h : insertJob q job = some q') :
    FinishesNone q q' := by
  intro k j' hj' hf
  rw [(insertJob_spec h).2.1] at hj'
  split at hj'
  · cases hj'
    cases hf
  · exact ⟨j', hj', hf⟩

theorem fleetChange_advance {i : Nat} {chance : Chance}
    (hstep : stepFleet cfg s (.advance i chance) = some s') : FleetChange s s' := by
  simp only [stepFleet, Option.map_eq_some_iff] at hstep
  obtain ⟨op, hop, rfl⟩ := hstep
  have heffect := operationEffect_step cfg s chance op
  generalize (stepOperation cfg s chance op).2 = next
  generalize (stepOperation cfg s chance op).1 = t at heffect ⊢
  cases heffect with
  | nothing => exact .same rfl rfl
  | mark => exact .same rfl rfl
  | clear => exact .same rfl rfl
  | requeue hq => exact .write hq (.requeue _ _ _) (finishesNone_of_jobs rfl) rfl rfl
  | claim hq hclaim => exact .claim hq hclaim rfl rfl
  | finish hq => exact .finish hq (List.mem_of_getElem? hop) rfl rfl

theorem fleetChange_step {e : FleetEvent} (hstep : stepFleet cfg s e = some s') :
    FleetChange s s' := by
  cases e with
  | provision org =>
    simp only [stepFleet, Option.map_eq_some_iff] at hstep
    obtain ⟨tenants, hins, rfl⟩ := hstep
    exact .provision hins rfl
  | submit org spec id now =>
    simp only [stepFleet] at hstep
    split at hstep
    · cases hstep
    · simp only [Option.bind_eq_some_iff, Option.map_eq_some_iff] at hstep
      obtain ⟨q, hq, q', hins, rfl⟩ := hstep
      exact .write hq (.insert hins) (finishesNone_insertJob hins) rfl rfl
  | poll workerId uuid capabilities =>
    simp only [stepFleet] at hstep
    split at hstep
    · cases hstep
      exact .same rfl rfl
    · cases hstep
  | sweep orgs =>
    cases hstep
    exact .same rfl rfl
  | advance i chance => exact fleetChange_advance hstep
  | abandon i =>
    simp only [stepFleet] at hstep
    split at hstep
    · cases hstep
      exact .same rfl rfl
    · cases hstep
  | heartbeat i chance =>
    simp only [stepFleet, Option.map_eq_some_iff] at hstep
    obtain ⟨e, -, rfl⟩ := hstep
    rcases heartbeat_cases s chance e.token with heq | ⟨org, job, seed, worker, q, -, hq, -, heq⟩
    · rw [heq]
      exact .same rfl rfl
    · rw [heq]
      exact .write hq (.touch _ _ _ _ _) (finishesNone_of_jobs rfl) rfl rfl
  | result i chance res =>
    simp only [stepFleet, Option.map_eq_some_iff] at hstep
    obtain ⟨e, -, rfl⟩ := hstep
    rcases result_cases s chance e.token res with
      heq | ⟨org, job, seed, worker, q, state, -, hq, hterminal, -, heq⟩
    · rw [heq]
      exact .same rfl rfl
    · rw [heq]
      have hset : state ≠ .pending := by
        rintro rfl
        cases hterminal
      exact .write hq (.set _ _ _ _ _ _ hset) (finishesNone_of_jobs rfl) rfl rfl
  | start i chance =>
    simp only [stepFleet, Option.map_eq_some_iff] at hstep
    obtain ⟨e, -, rfl⟩ := hstep
    rcases startEmbedded_cases s chance e.org e.shard with heq | ⟨q, hq, -, heq⟩
    · rw [heq]
      exact .same rfl rfl
    · rw [heq]
      have hset : ShardState.running ≠ .pending := by decide
      exact .write hq (.set _ _ _ _ _ _ hset) (finishesNone_of_jobs rfl) rfl rfl

end Change

/-! ## What a run does to the queues -/

/-- Every queue is still there, further on. -/
def FleetAdvances (s s' : Fleet) : Prop :=
  ∀ org q, s.tenants.get? org = some q → ∃ q', s'.tenants.get? org = some q' ∧ QueueAdvances q q'

section Advances

variable {cfg : SchedulerConfig} {s s' s'' : Fleet}

theorem FleetAdvances.refl (s : Fleet) : FleetAdvances s s := fun _ q hq => ⟨q, hq, .refl q⟩

theorem FleetAdvances.trans (h : FleetAdvances s s') (h' : FleetAdvances s' s'') :
    FleetAdvances s s'' := by
  intro org q hq
  obtain ⟨q', hq', hadv⟩ := h org q hq
  obtain ⟨q'', hq'', hadv'⟩ := h' org q' hq'
  exact ⟨q'', hq'', hadv.trans hadv'⟩

theorem fleetAdvances_setTenant {org : Int64} {q q' : QueueStore} (hq : s.tenants.get? org = some q)
    (hstep : QueueStep q q') (hs' : s'.tenants = (s.setTenant org q').tenants) :
    FleetAdvances s s' := by
  intro k r hr
  rw [hs', Fleet.get?_setTenant hq]
  by_cases hk : k = org
  · subst hk
    rw [hq, Option.some.injEq] at hr
    subst hr
    exact ⟨q', if_pos rfl, hstep.advances⟩
  · exact ⟨r, by rw [if_neg hk, hr], .refl r⟩

theorem FleetChange.advances (h : FleetChange s s') : FleetAdvances s s' := by
  cases h with
  | same htenants =>
    intro org q hq
    exact ⟨q, htenants ▸ hq, .refl q⟩
  | @provision org hins =>
    intro k q hq
    have hne : k ≠ org := by
      rintro rfl
      have hfresh := Table.has_of_insert? hins
      rw [Table.has, hq] at hfresh
      cases hfresh
    refine ⟨q, ?_, .refl q⟩
    rw [Table.get?_insert? hins, if_neg hne, hq]
  | write hq hstep _ htenants => exact fleetAdvances_setTenant hq hstep htenants
  | claim hq hclaim htenants => exact fleetAdvances_setTenant hq (.claim hclaim) htenants
  | finish hq _ htenants => exact fleetAdvances_setTenant hq (.finalize _ _ _ _ _) htenants

theorem fleetAdvances_run {es : List FleetEvent} (h : Run (FleetStep cfg) s es s') :
    FleetAdvances s s' := by
  induction h with
  | nil s => exact .refl s
  | cons hstep _ ih => exact (fleetChange_step hstep).advances.trans ih

end Advances

/-! ## A shard has one holder -/

/-- The worker's messages for the shard are accepted. -/
def Holds (q : QueueStore) (key : ShardKey) (worker : String) : Prop :=
  ∃ r, q.shards.get? key = some r ∧ r.claimedBy = some worker ∧ r.state = .running

/-- Every granted claim has its shard, which counts it, and its number is its own. -/
structure GrantsNumbered (s : Fleet) : Prop where
  counted : ∀ e ∈ s.issued, ∃ q r, s.tenants.get? e.org = some q ∧
    q.shards.get? e.shard.key = some r ∧ e.attempt ≤ r.attempts
  unique : ∀ e ∈ s.issued, ∀ e' ∈ s.issued, e.org = e'.org → e.shard.key = e'.shard.key →
    e.attempt = e'.attempt → e = e'

section Holders

variable {cfg : SchedulerConfig} {s s' : Fleet}

theorem grantsNumbered_of_issued (h : GrantsNumbered s) (hadv : FleetAdvances s s')
    (hissued : s'.issued = s.issued) : GrantsNumbered s' := by
  refine ⟨fun e he => ?_, ?_⟩
  · rw [hissued] at he
    obtain ⟨q, r, hq, hr, hle⟩ := h.counted e he
    obtain ⟨q', hq', hadv⟩ := hadv e.org q hq
    obtain ⟨r', hr', hle', -⟩ := hadv.shards e.shard.key r hr
    exact ⟨q', r', hq', hr', hle.trans hle'⟩
  · rw [hissued]
    exact h.unique

/-- A claim is numbered above all claims of its shard. -/
theorem grantsNumbered_claim {org : Int64} {q q' : QueueStore} {locked : List ShardKey}
    {now : Micros} {worker : String} {capabilities : List String} {job : Option String}
    {c : ClaimedShard} (h : GrantsNumbered s) (hadv : FleetAdvances s s')
    (hq : s.tenants.get? org = some q)
    (hclaim : claimShard q locked now worker capabilities job = some (c, q'))
    (htenants : s'.tenants = (s.setTenant org q').tenants)
    (hissued : s'.issued =
      s.issued ++ [⟨org, c, ((q.shards.get? c.key).elim 0 ShardRow.attempts) + 1⟩]) :
    GrantsNumbered s' := by
  obtain ⟨r, hr, -, -, -, -, -, rfl⟩ := claimShard_spec hclaim
  -- the claims of this shard have smaller numbers
  have hbelow : ∀ e ∈ s.issued, e.org = org → e.shard.key = c.key →
      e.attempt ≠ ((q.shards.get? c.key).elim 0 ShardRow.attempts) + 1 := by
    intro e he horg hkey
    obtain ⟨q0, r0, hq0, hr0, hle⟩ := h.counted e he
    rw [horg, hq, Option.some.injEq] at hq0
    subst hq0
    rw [hkey, hr, Option.some.injEq] at hr0
    subst hr0
    rw [hr, Option.elim_some]
    omega
  refine ⟨fun e he => ?_, fun e he e' he' horg hkey hattempt => ?_⟩
  · rw [hissued, List.mem_append, List.mem_singleton] at he
    rcases he with he | rfl
    · obtain ⟨q0, r0, hq0, hr0, hle⟩ := h.counted e he
      obtain ⟨q0', hq0', hadv⟩ := hadv e.org q0 hq0
      obtain ⟨r0', hr0', hle', -⟩ := hadv.shards e.shard.key r0 hr0
      exact ⟨q0', r0', hq0', hr0', hle.trans hle'⟩
    · refine ⟨q.updateShards (fun k _ => k = c.key) (ShardRow.claim now worker),
        ShardRow.claim now worker r, ?_, ?_, ?_⟩
      · rw [htenants, Fleet.get?_setTenant hq, if_pos rfl]
      · rw [QueueStore.get?_updateShards, hr, Option.map_some, if_pos (decide_eq_true rfl)]
      · rw [hr, Option.elim_some]
        exact Nat.le_refl _
  · rw [hissued, List.mem_append, List.mem_singleton] at he he'
    rcases he with he | rfl
    · rcases he' with he' | rfl
      · exact h.unique e he e' he' horg hkey hattempt
      · exact absurd hattempt (hbelow e he horg hkey)
    · rcases he' with he' | rfl
      · exact absurd hattempt.symm (hbelow e' he' horg.symm hkey.symm)
      · rfl

theorem GrantsNumbered.step {e : FleetEvent} (h : GrantsNumbered s)
    (hstep : stepFleet cfg s e = some s') : GrantsNumbered s' := by
  have hchange := fleetChange_step hstep
  have hadv := hchange.advances
  cases hchange with
  | same _ hissued => exact grantsNumbered_of_issued h hadv hissued
  | provision _ hissued => exact grantsNumbered_of_issued h hadv hissued
  | write _ _ _ _ hissued => exact grantsNumbered_of_issued h hadv hissued
  | claim hq hclaim htenants hissued =>
    exact grantsNumbered_claim h hadv hq hclaim htenants hissued
  | finish _ _ _ hissued => exact grantsNumbered_of_issued h hadv hissued

theorem grantsNumbered_empty : GrantsNumbered {} := by
  refine ⟨?_, ?_⟩
  · intro e he
    cases he
  · intro e he
    cases he

/-- Of the claims of one shard, one at most is current. -/
theorem GrantsNumbered.current_unique {e e' : Issued} (h : GrantsNumbered s) (he : e ∈ s.issued)
    (he' : e' ∈ s.issued) (horg : e.org = e'.org) (hkey : e.shard.key = e'.shard.key)
    (hcurrent : IsCurrent s e) (hcurrent' : IsCurrent s e') : e = e' := by
  obtain ⟨q, r, hq, hr, -, hattempt⟩ := hcurrent
  obtain ⟨q', r', hq', hr', -, hattempt'⟩ := hcurrent'
  rw [← horg, hq, Option.some.injEq] at hq'
  subst hq'
  rw [← hkey, hr, Option.some.injEq] at hr'
  subst hr'
  exact h.unique e he e' he' horg hkey (hattempt.symm.trans hattempt')

theorem Holds.unique {q : QueueStore} {key : ShardKey} {worker worker' : String}
    (h : Holds q key worker) (h' : Holds q key worker') : worker = worker' := by
  obtain ⟨r, hr, hby, -⟩ := h
  obtain ⟨r', hr', hby', -⟩ := h'
  rw [hr, Option.some.injEq] at hr'
  subst hr'
  rw [hby, Option.some.injEq] at hby'
  exact hby'

end Holders

/-! ## A finished job is over -/

/-- The job whose end an operation is seeing to. -/
def Operation.ends : Operation → Option (Int64 × String)
  | .reported org job | .finishing org job => some (org, job)
  | _ => none

/-- What an operation that sees to the end of a job knows of it. -/
def EndKnown (s : Fleet) : Operation → Prop
  | .reported org job => ∃ q, s.tenants.get? org = some q ∧ q.jobs.has job = true
  | .finishing org job => ∃ q, s.tenants.get? org = some q ∧ JobOver q job
  | _ => True

/-- Finished jobs are over, and so are those about to be finished. -/
structure EndsSound (s : Fleet) : Prop where
  finished : ∀ org q, s.tenants.get? org = some q → ∀ job j, q.jobs.get? job = some j →
    j.finishedAt.isSome = true → JobOver q job
  operations : ∀ op ∈ s.inFlight, EndKnown s op

section Ends

variable {cfg : SchedulerConfig} {s s' : Fleet}

theorem endKnown_of_ends {op : Operation} (h : op.ends = none) : EndKnown s op := by
  cases op with
  | reported org job => cases h
  | finishing org job => cases h
  | _ => trivial

theorem EndKnown.advances {op : Operation} (h : EndKnown s op) (hadv : FleetAdvances s s') :
    EndKnown s' op := by
  cases op with
  | reported org job =>
    obtain ⟨q, hq, hjob⟩ := h
    obtain ⟨q', hq', hqq'⟩ := hadv org q hq
    exact ⟨q', hq', hqq'.frame.jobs job hjob⟩
  | finishing org job =>
    obtain ⟨q, hq, hover⟩ := h
    obtain ⟨q', hq', hqq'⟩ := hadv org q hq
    exact ⟨q', hq', hover.advances hqq'⟩
  | _ => trivial

/-- An operation that turns to the end of a job was seeing to it, and found it over. -/
theorem ends_step {chance : Chance} {op next : Operation}
    (hnext : (stepOperation cfg s chance op).2 = some next) :
    next.ends = none ∨ ∃ org job q, op = .reported org job ∧ next = .finishing org job ∧
      s.tenants.get? org = some q ∧ jobIncomplete q job = false := by
  cases op with
  | reported org job =>
    simp only [stepOperation] at hnext
    split at hnext
    · cases hnext
    · rename_i q hq
      split at hnext
      · cases hnext
      · rename_i hincomplete
        cases hnext
        simp only [Bool.or_eq_true, not_or, Bool.not_eq_true] at hincomplete
        exact .inr ⟨org, job, q, rfl, rfl, hq, hincomplete.2⟩
  | submitted org => cases hnext
  | sweeping todo =>
    cases todo with
    | nil => cases hnext
    | cons org todo =>
      simp only [stepOperation] at hnext
      repeat' split at hnext
      all_goals cases hnext; exact .inl rfl
  | remarking org todo => cases hnext; exact .inl rfl
  | gathering poll todo seen =>
    cases todo with
    | nil => cases hnext; exact .inl rfl
    | cons org todo =>
      simp only [stepOperation] at hnext
      repeat' split at hnext
      all_goals cases hnext; exact .inl rfl
  | counting poll org todo seen =>
    simp only [stepOperation] at hnext
    repeat' split at hnext
    all_goals cases hnext; exact .inl rfl
  | clearing poll org todo seen => cases hnext; exact .inl rfl
  | loading poll org jobs todo seen => cases hnext; exact .inl rfl
  | claiming poll order =>
    cases order with
    | nil => cases hnext
    | cons first rest =>
      simp only [stepOperation] at hnext
      repeat' split at hnext
      all_goals first | cases hnext; exact .inl rfl | cases hnext
  | finishing org job =>
    simp only [stepOperation] at hnext
    split at hnext <;> cases hnext

/-- An operation that sees to the end of a job did so before, or has just recorded a
result, or has just found the job over. -/
theorem mem_inFlight_step {e : FleetEvent} {op : Operation} (hstep : stepFleet cfg s e = some s')
    (hop : op ∈ s'.inFlight) :
    op ∈ s.inFlight ∨ op.ends = none ∨
      (∃ org job q, op = .reported org job ∧ s'.tenants.get? org = some q ∧
        q.jobs.has job = true) ∨
      ∃ org job q, .reported org job ∈ s.inFlight ∧ op = .finishing org job ∧
        s.tenants.get? org = some q ∧ jobIncomplete q job = false := by
  cases e with
  | provision org =>
    simp only [stepFleet, Option.map_eq_some_iff] at hstep
    obtain ⟨tenants, -, rfl⟩ := hstep
    exact .inl hop
  | submit org spec id now =>
    simp only [stepFleet] at hstep
    split at hstep
    · cases hstep
    · simp only [Option.bind_eq_some_iff, Option.map_eq_some_iff] at hstep
      obtain ⟨q, -, q', -, rfl⟩ := hstep
      rcases List.mem_append.1 hop with hop | hop
      · exact .inl hop
      · rw [List.mem_singleton.1 hop]
        exact .inr (.inl rfl)
  | poll workerId uuid capabilities =>
    simp only [stepFleet] at hstep
    split at hstep
    · cases hstep
      rcases List.mem_append.1 hop with hop | hop
      · exact .inl hop
      · rw [List.mem_singleton.1 hop]
        exact .inr (.inl rfl)
    · cases hstep
  | sweep orgs =>
    cases hstep
    rcases List.mem_append.1 hop with hop | hop
    · exact .inl hop
    · rw [List.mem_singleton.1 hop]
      exact .inr (.inl rfl)
  | advance i chance =>
    simp only [stepFleet, Option.map_eq_some_iff] at hstep
    obtain ⟨op0, hop0, rfl⟩ := hstep
    rcases mem_replaceAt.1 hop with hop | hop
    · exact .inl ((mem_iff_replaceAt hop0).2 (.inl hop))
    · rcases ends_step hop with hnone | ⟨org, job, q, rfl, rfl, hq, hover⟩
      · exact .inr (.inl hnone)
      · exact .inr (.inr (.inr ⟨org, job, q, List.mem_of_getElem? hop0, rfl, hq, hover⟩))
  | abandon i =>
    simp only [stepFleet] at hstep
    split at hstep
    · rename_i hi
      cases hstep
      exact .inl ((mem_iff_replaceAt (List.getElem?_eq_getElem hi)).2 (.inl hop))
    · cases hstep
  | heartbeat i chance =>
    simp only [stepFleet, Option.map_eq_some_iff] at hstep
    obtain ⟨e, -, rfl⟩ := hstep
    rcases heartbeat_cases s chance e.token with heq | ⟨_, _, _, _, _, -, -, -, heq⟩
    · rw [heq] at hop
      exact .inl hop
    · rw [heq] at hop
      exact .inl hop
  | result i chance res =>
    simp only [stepFleet, Option.map_eq_some_iff] at hstep
    obtain ⟨e, -, rfl⟩ := hstep
    rcases result_cases s chance e.token res with
      heq | ⟨org, job, seed, worker, q, state, -, hq, -, hset, heq⟩
    · rw [heq] at hop
      exact .inl hop
    · rw [heq] at hop ⊢
      rcases List.mem_append.1 hop with hop | hop
      · exact .inl hop
      · obtain ⟨r, hr, -⟩ := count_heldBy.1 (of_decide_eq_true hset)
        refine .inr (.inr (.inl ⟨org, job,
          (setShard q job seed worker state res.report (res.durationS.getD 0)).2,
          List.mem_singleton.1 hop, ?_, ?_⟩))
        · exact (Fleet.get?_setTenant hq _).trans (if_pos rfl)
        · exact q.owned _ (Table.get?_eq_some_iff.1 hr)
  | start i chance =>
    simp only [stepFleet, Option.map_eq_some_iff] at hstep
    obtain ⟨e, -, rfl⟩ := hstep
    rcases startEmbedded_cases s chance e.org e.shard with heq | ⟨_, -, -, heq⟩
    · rw [heq] at hop
      exact .inl hop
    · rw [heq] at hop
      exact .inl hop

theorem EndsSound.step {e : FleetEvent} (h : EndsSound s) (hstep : stepFleet cfg s e = some s') :
    EndsSound s' := by
  have hchange := fleetChange_step hstep
  have hadv := hchange.advances
  constructor
  · intro org q' hq' job j' hj' hfinished
    -- a job that was finished stays over
    have hold : ∀ q, s.tenants.get? org = some q → QueueAdvances q q' →
        (∃ j, q.jobs.get? job = some j ∧ j.finishedAt.isSome = true) → JobOver q' job := by
      rintro q hq hqq' ⟨j, hj, hf⟩
      exact (h.finished org q hq job j hj hf).advances hqq'
    cases hchange with
    | same htenants =>
      rw [htenants] at hq'
      exact h.finished org q' hq' job j' hj' hfinished
    | provision hins =>
      rw [Table.get?_insert? hins] at hq'
      split at hq'
      · cases hq'
        cases hj'
      · exact h.finished org q' hq' job j' hj' hfinished
    | write hq hqq' hnone htenants =>
      rw [htenants, Fleet.get?_setTenant hq] at hq'
      split at hq'
      · rename_i horg
        subst horg
        cases hq'
        exact hold _ hq hqq'.advances (hnone job j' hj' hfinished)
      · exact h.finished org q' hq' job j' hj' hfinished
    | claim hq hclaim htenants =>
      rw [htenants, Fleet.get?_setTenant hq] at hq'
      split at hq'
      · rename_i horg
        subst horg
        cases hq'
        obtain ⟨-, -, -, -, -, -, -, rfl⟩ := claimShard_spec hclaim
        exact hold _ hq (QueueStep.claim hclaim).advances ⟨j', hj', hfinished⟩
      · exact h.finished org q' hq' job j' hj' hfinished
    | @finish org0 job0 q now hq hop htenants =>
      rw [htenants, Fleet.get?_setTenant hq] at hq'
      split at hq'
      · rename_i horg
        subst horg
        cases hq'
        by_cases hjob : job = job0
        · subst hjob
          obtain ⟨q0, hq0, hover⟩ := h.operations _ hop
          rw [hq, Option.some.injEq] at hq0
          subst hq0
          exact hover.advances (QueueStep.finalize q now job 0 0).advances
        · refine hold _ hq (QueueStep.finalize q now job0 0 0).advances ⟨j', ?_, hfinished⟩
          simpa [finalizeJob, Table.get?_update, hjob] using hj'
      · exact h.finished org q' hq' job j' hj' hfinished
  · intro op hop
    rcases mem_inFlight_step hstep hop with hold | hnone | ⟨org, job, q, rfl, hq, hjob⟩ |
      ⟨org, job, q, hreported, rfl, hq, hover⟩
    · exact (h.operations op hold).advances hadv
    · exact endKnown_of_ends hnone
    · exact ⟨q, hq, hjob⟩
    · obtain ⟨q0, hq0, hjob⟩ := h.operations _ hreported
      rw [hq, Option.some.injEq] at hq0
      subst hq0
      have hknown : EndKnown s (.finishing org job) :=
        ⟨q, hq, hjob, jobIncomplete_eq_false_iff.1 hover⟩
      exact hknown.advances hadv

theorem endsSound_empty : EndsSound {} := by
  refine ⟨?_, ?_⟩
  · intro org q hq
    cases hq
  · intro op hop
    cases hop

end Ends

/-- In a run, a shard has one holder and one current claim.  Whatever follows, a shard
that is over stays as it is, and all shards of a finished job are over. -/
theorem shards_and_jobs_safe {cfg : SchedulerConfig} {s s' : Fleet} {es es' : List FleetEvent}
    (h : Run (FleetStep cfg) {} es s) (h' : Run (FleetStep cfg) s es' s') :
    (∀ e ∈ s.issued, ∀ e' ∈ s.issued, e.org = e'.org → e.shard.key = e'.shard.key →
      IsCurrent s e → IsCurrent s e' → e = e') ∧
    ∀ org q, s.tenants.get? org = some q →
      (∀ key worker worker', Holds q key worker → Holds q key worker' → worker = worker') ∧
      ∃ q', s'.tenants.get? org = some q' ∧
        (∀ key r, q.shards.get? key = some r → r.state.terminal = true →
          q'.shards.get? key = some r) ∧
        ∀ job j, q.jobs.get? job = some j → j.finishedAt.isSome = true →
          ∀ key r, q'.shards.get? key = some r → key.1 = job → r.state.terminal = true := by
  have hgrants : GrantsNumbered s :=
    h.invariant GrantsNumbered (fun _ _ _ hi hstep => hi.step hstep) grantsNumbered_empty
  have hends : EndsSound s :=
    h.invariant EndsSound (fun _ _ _ hi hstep => hi.step hstep) endsSound_empty
  refine ⟨fun e he e' he' => hgrants.current_unique he he', fun org q hq => ?_⟩
  obtain ⟨q', hq', hadv⟩ := fleetAdvances_run h' org q hq
  refine ⟨fun key worker worker' => Holds.unique, q', hq', ?_, ?_⟩
  · intro key r hr hover
    obtain ⟨r', hr', -, hsame⟩ := hadv.shards key r hr
    rw [hr', hsame hover]
  · intro job j hj hfinished
    exact ((hends.finished org q hq job j hj hfinished).advances hadv).done

/-- A job of one shard is submitted, and its shard is claimed. -/
def claimSolo : List FleetEvent :=
  [.provision 1, .submit 1 soloShard "job-a" 0, .advance 0 {}, .poll (some "w1") "0" ["web"],
    .advance 0 {}, .advance 0 {}, .advance 0 {}, .advance 0 {}]

/-- The result of the shard is reported, and its job finished. -/
def finishSolo : List FleetEvent :=
  claimSolo ++ [.result 0 {} { status := "clean" }, .advance 0 {}, .advance 0 {}]

/-- A sweep of the tenant, long after. -/
def sweepSolo : List FleetEvent :=
  [.sweep [1], .advance 0 { now := 200000000 }, .advance 0 { now := 200000000 }]

/-- What is under way, whether the job is finished, and the state of its shard. -/
def soloEnd (s : Fleet) : List Operation × Option (Bool × Option ShardState) :=
  (s.inFlight, (s.tenants.get? 1).bind fun q => (q.jobs.get? "job-a").map fun j =>
    (j.finishedAt.isSome, (q.shards.get? ("job-a", 1)).map ShardRow.state))

theorem exists_solo_of_end {s : Fleet} {ops : List Operation} {finished : Bool} {state : ShardState}
    (h : soloEnd s = (ops, some (finished, some state))) :
    s.inFlight = ops ∧ ∃ q j r, s.tenants.get? 1 = some q ∧ q.jobs.get? "job-a" = some j ∧
      j.finishedAt.isSome = finished ∧ q.shards.get? ("job-a", 1) = some r ∧ r.state = state := by
  obtain ⟨hops, hrest⟩ := Prod.mk.inj h
  obtain ⟨q, hq, hrest⟩ := Option.bind_eq_some_iff.1 hrest
  obtain ⟨j, hj, hrest⟩ := Option.map_eq_some_iff.1 hrest
  obtain ⟨hfinished, hstate⟩ := Prod.mk.inj hrest
  obtain ⟨r, hr, hstate⟩ := Option.map_eq_some_iff.1 hstate
  exact ⟨hops, q, j, r, hq, hj, hfinished, hr, hstate⟩

theorem shards_and_jobs_safe_solo :
    ∃ s s', Run (FleetStep .hosted) {} finishSolo s ∧ Run (FleetStep .hosted) s sweepSolo s' ∧
      ∃ q' r, s'.tenants.get? 1 = some q' ∧ q'.shards.get? ("job-a", 1) = some r ∧
        r.state = .clean := by
  have hread : (runOf (stepFleet .hosted) {} finishSolo).map soloEnd =
      some ([], some (true, some .clean)) := by decide
  obtain ⟨s, hs, hread⟩ := Option.map_eq_some_iff.1 hread
  obtain ⟨-, q, j, r, hq, -, -, hr, hstate⟩ := exists_solo_of_end hread
  have hrun := Run.of_runOf hs
  have hgoes : (runOf (stepFleet .hosted) {} (finishSolo ++ sweepSolo)).isSome = true := by decide
  obtain ⟨s', hs'⟩ := Option.isSome_iff_exists.1 hgoes
  obtain ⟨t, ht, hrun'⟩ := (Run.of_runOf hs').of_append
  have hst : t = s := ht.deterministic hrun
  subst hst
  obtain ⟨-, q', hq', hkept, -⟩ := (shards_and_jobs_safe hrun hrun').2 1 q hq
  refine ⟨t, s', hrun, hrun', q', r, hq', hkept _ r hr ?_, hstate⟩
  rw [hstate]
  rfl

/-! ## A job that is over is finished -/

/-- The job is over, and `finished_at` is not set. -/
def Unended (q : QueueStore) (job : String) : Prop :=
  ∃ j, q.jobs.get? job = some j ∧ j.finishedAt = none ∧ jobIncomplete q job = false

/-- A job that waits for no shard has someone to finish it. -/
def EndAttended (s : Fleet) : Prop :=
  ∀ org q job, s.tenants.get? org = some q → Unended q job →
    ∃ op ∈ s.inFlight, op.ends = some (org, job)

/-- If the job is over and not finished, an operation besides the one at `i` will see to
its end. -/
def EndCovered (s : Fleet) (i : Nat) (org : Int64) (job : String) : Prop :=
  ∀ q, s.tenants.get? org = some q → Unended q job →
    ∃ op ∈ replaceAt s.inFlight i none, op.ends = some (org, job)

/-- Nobody who sees to the end of a job gives it up, unless it is covered. -/
def EndKept (s : Fleet) : FleetEvent → Fleet → Prop
  | .advance i chance, _ => chance.fails = true → ∀ org job,
      (s.inFlight[i]?).bind Operation.ends = some (org, job) → EndCovered s i org job
  | .abandon i, _ => ∀ org job,
      (s.inFlight[i]?).bind Operation.ends = some (org, job) → EndCovered s i org job
  | _, _ => True

section Unended

variable {q q' : QueueStore}

/-- An update that leaves every open shard open. -/
theorem unended_updateShards {p : ShardKey → ShardRow → Bool} {f : ShardRow → ShardRow}
    {job : String}
    (hopen : ∀ k r, k.1 = job → p k r = true → r.state.terminal = false →
      (f r).state.terminal = false)
    (h : Unended (q.updateShards p f) job) : Unended q job := by
  obtain ⟨j, hj, hnone, hdone⟩ := h
  refine ⟨j, hj, hnone, ?_⟩
  rw [← Bool.not_eq_true, jobIncomplete_eq_true_iff]
  rintro ⟨k, r, hr, hk, hterminal⟩
  have hr' := QueueStore.get?_updateShards q p f k
  rw [hr, Option.map_some] at hr'
  have hover := jobIncomplete_eq_false_iff.1 hdone k _ hr' hk
  split at hover
  · rename_i hp
    rw [hopen k r hk hp hterminal] at hover
    cases hover
  · rw [hterminal] at hover
    cases hover

theorem unended_touchShard {now : Micros} {job' job : String} {seed : UInt32} {worker : String}
    (h : Unended (touchShard q now job' seed worker).2 job) : Unended q job := by
  refine unended_updateShards (fun k r _ _ hopen => ?_) h
  exact hopen

theorem unended_requeueStranded {now : Micros} {stale : Int} {job : String}
    (h : Unended (requeueStranded q now stale).2 job) : Unended q job :=
  unended_updateShards (fun _ _ _ _ _ => rfl) h

theorem unended_claimShard {locked : List ShardKey} {now : Micros} {worker : String}
    {capabilities : List String} {target : Option String} {c : ClaimedShard} {job : String}
    (hclaim : claimShard q locked now worker capabilities target = some (c, q'))
    (h : Unended q' job) : Unended q job := by
  obtain ⟨-, -, -, -, -, -, -, rfl⟩ := claimShard_spec hclaim
  exact unended_updateShards (fun _ _ _ _ _ => rfl) h

/-- A result ends its own job at most, and a start ends none. -/
theorem unended_setShard {job' job : String} {seed : UInt32} {worker : String}
    {state : ShardState} {report : Option String} {durationS : UInt64}
    (h : Unended (setShard q job' seed worker state report durationS).2 job) :
    Unended q job ∨ (job = job' ∧ state.terminal = true) := by
  cases hstate : state.terminal with
  | false => exact .inl (unended_updateShards (fun _ _ _ _ _ => hstate) h)
  | true =>
    by_cases hjob : job = job'
    · exact .inr ⟨hjob, rfl⟩
    · refine .inl (unended_updateShards (fun k r hk hp _ => ?_) h)
      rw [(heldBy_iff.1 hp).1] at hk
      exact absurd hk.symm hjob

/-- A finalized job is not unended. -/
theorem unended_finalizeJob {now : Micros} {job' job : String} {states transitions : Nat}
    (h : Unended (finalizeJob q now job' states transitions) job) : Unended q job ∧ job ≠ job' := by
  obtain ⟨j, hj, hnone, hdone⟩ := h
  simp only [finalizeJob, Table.get?_update, Option.map_eq_some_iff] at hj
  obtain ⟨j0, hj0, rfl⟩ := hj
  by_cases hjob : job = job'
  · simp [hjob] at hnone
  · simp only [hjob, decide_false, Bool.false_eq_true, if_false] at hnone
    exact ⟨⟨j0, hj0, hnone, hdone⟩, hjob⟩

theorem exists_seed_new {spec : JobSpec} (h : ¬ spec.validate.isSome = true) (id : String)
    (now : Micros) : ∃ seed, seed ∈ (Job.new spec id now).seeds := by
  have hpos : 0 < spec.seeds.toNat := by
    by_contra hzero
    apply h
    rw [JobSpec.validate, if_pos]
    · rfl
    · rintro ⟨hle, -⟩
      have := UInt32.le_iff_toNat_le.1 hle
      have hone : (1 : UInt32).toNat = 1 := rfl
      omega
  exact ⟨_, List.mem_map.2 ⟨0, List.mem_range.2 hpos, rfl⟩⟩

/-- A new job waits for its shards. -/
theorem unended_insertJob {spec : JobSpec} {id : String} {now : Micros} {job : String}
    (hvalid : ¬ spec.validate.isSome = true)
    (hins : insertJob q (Job.new spec id now) = some q') (h : Unended q' job) :
    Unended q job := by
  obtain ⟨-, hjobs, hrows⟩ := insertJob_spec hins
  obtain ⟨j, hj, hnone, hdone⟩ := h
  have hover := jobIncomplete_eq_false_iff.1 hdone
  rw [hjobs] at hj
  split at hj
  · rename_i hid
    obtain ⟨seed, hseed⟩ := exists_seed_new hvalid id now
    have hrow : q'.shards.get? (id, seed) = some { state := .pending, backend := spec.backend } := by
      rw [Table.get?_eq_some_iff, hrows]
      exact List.mem_append_right _ (List.mem_map.2 ⟨seed, hseed, rfl⟩)
    cases hover _ _ hrow hid.symm
  · refine ⟨j, hj, hnone, jobIncomplete_eq_false_iff.2 fun k r hr hk => hover k r ?_ hk⟩
    rw [Table.get?_eq_some_iff, hrows]
    exact List.mem_append_left _ (Table.get?_eq_some_iff.1 hr)

end Unended

section Attended

variable {cfg : SchedulerConfig} {s s' : Fleet}

/-- A write that ends no job, with everyone who sees to the end of one still there. -/
theorem endAttended_setTenant {org : Int64} {q q' : QueueStore} (h : EndAttended s)
    (hq : s.tenants.get? org = some q) (hends : ∀ job, Unended q' job → Unended q job)
    (hs' : s'.tenants = (s.setTenant org q').tenants)
    (hops : ∀ op ∈ s.inFlight, op ∈ s'.inFlight) : EndAttended s' := by
  intro k r job hr hunended
  have hbefore : ∃ r0, s.tenants.get? k = some r0 ∧ Unended r0 job := by
    rw [hs', Fleet.get?_setTenant hq] at hr
    split at hr
    · rename_i hk
      cases hr
      exact ⟨q, hk ▸ hq, hends job hunended⟩
    · exact ⟨r, hr, hunended⟩
  obtain ⟨r0, hr0, hunended0⟩ := hbefore
  obtain ⟨op, hop, hop'⟩ := h k r0 job hr0 hunended0
  exact ⟨op, hops op hop, hop'⟩

/-- A change of the operations alone, with the same condition. -/
theorem endAttended_of_tenants (h : EndAttended s) (hs' : s'.tenants = s.tenants)
    (hops : ∀ op ∈ s.inFlight, op ∈ s'.inFlight) : EndAttended s' := by
  intro org q job hq hunended
  obtain ⟨op, hop, hends⟩ := h org q job (hs' ▸ hq) hunended
  exact ⟨op, hops op hop, hends⟩

/-- Whoever sees to the end of a job goes on with it while it is unended, unless the
call fails. -/
theorem ends_goes_on {chance : Chance} {op : Operation} {org : Int64} {job : String}
    {q' : QueueStore} (hends : op.ends = some (org, job)) (hfails : chance.fails = false)
    (hq' : (stepOperation cfg s chance op).1.tenants.get? org = some q')
    (hunended : Unended q' job) :
    ∃ next, (stepOperation cfg s chance op).2 = some next ∧ next.ends = some (org, job) := by
  cases op with
  | reported org' job' =>
    cases hends
    cases hq : s.tenants.get? org with
    | none =>
      simp only [stepOperation, hq] at hq'
      cases hq'
    | some q =>
      cases hincomplete : jobIncomplete q job with
      | false =>
        simp only [stepOperation, hq, hfails, hincomplete, Bool.or_self, Bool.false_eq_true,
          if_false]
        exact ⟨_, rfl, rfl⟩
      | true =>
        simp only [stepOperation, hq, hincomplete, Bool.or_true, if_true, Option.some.injEq] at hq'
        subst hq'
        obtain ⟨-, -, -, hdone⟩ := hunended
        rw [hincomplete] at hdone
        cases hdone
  | finishing org' job' =>
    cases hends
    cases hq : s.tenants.get? org with
    | none =>
      simp only [stepOperation, hq] at hq'
      cases hq'
    | some q =>
      simp only [stepOperation, hq, hfails, Bool.false_eq_true, if_false] at hq'
      rw [Fleet.get?_setTenant hq, if_pos rfl, Option.some.injEq] at hq'
      subst hq'
      exact absurd rfl (unended_finalizeJob hunended).2
  | _ => cases hends

/-- A call under way ends no job. -/
theorem unended_stepOperation {chance : Chance} {op : Operation} {org : Int64} {job : String}
    {q' : QueueStore} (hq' : (stepOperation cfg s chance op).1.tenants.get? org = some q')
    (hunended : Unended q' job) :
    ∃ q, s.tenants.get? org = some q ∧ Unended q job := by
  have hwrite : ∀ {k r r'}, s.tenants.get? k = some r → (Unended r' job → Unended r job) →
      (s.setTenant k r').tenants.get? org = some q' →
      ∃ q, s.tenants.get? org = some q ∧ Unended q job := by
    intro k r r' hr hback hget
    rw [Fleet.get?_setTenant hr] at hget
    split at hget
    · rename_i hk
      cases hget
      exact ⟨r, hk ▸ hr, hback hunended⟩
    · exact ⟨q', hget, hunended⟩
  have heffect := operationEffect_step cfg s chance op
  generalize (stepOperation cfg s chance op).1 = t at heffect hq'
  cases heffect with
  | nothing => exact ⟨q', hq', hunended⟩
  | mark => exact ⟨q', hq', hunended⟩
  | clear => exact ⟨q', hq', hunended⟩
  | requeue hq => exact hwrite hq unended_requeueStranded hq'
  | claim hq hclaim => exact hwrite hq (unended_claimShard hclaim) hq'
  | finish hq => exact hwrite hq (fun h => (unended_finalizeJob h).1) hq'

theorem endAttended_advance {i : Nat} {chance : Chance} (h : EndAttended s)
    (hstep : stepFleet cfg s (.advance i chance) = some s')
    (hkept : EndKept s (.advance i chance) s') : EndAttended s' := by
  simp only [stepFleet, Option.map_eq_some_iff] at hstep
  obtain ⟨op, hop, rfl⟩ := hstep
  intro org q' job hq' hunended'
  obtain ⟨q, hq, hunended⟩ := unended_stepOperation hq' hunended'
  obtain ⟨op', hop', hends⟩ := h org q job hq hunended
  rcases (mem_iff_replaceAt hop).1 hop' with hother | rfl
  · exact ⟨op', mem_replaceAt.2 (.inl hother), hends⟩
  -- the operation that steps was the one that saw to it
  cases hfails : chance.fails with
  | false =>
    obtain ⟨next, hnext, hends'⟩ := ends_goes_on hends hfails hq' hunended'
    exact ⟨next, mem_replaceAt.2 (.inr hnext), hends'⟩
  | true =>
    have hbind : (s.inFlight[i]?).bind Operation.ends = some (org, job) := by
      rw [hop, Option.bind_some, hends]
    obtain ⟨op'', hop'', hends''⟩ := hkept hfails org job hbind q hq hunended
    exact ⟨op'', mem_replaceAt.2 (.inl hop''), hends''⟩

theorem endAttended_step {e : FleetEvent} (h : EndAttended s)
    (hstep : stepFleet cfg s e = some s') (hkept : EndKept s e s') : EndAttended s' := by
  cases e with
  | provision org =>
    simp only [stepFleet, Option.map_eq_some_iff] at hstep
    obtain ⟨tenants, hins, rfl⟩ := hstep
    intro k q job hq hunended
    rw [Table.get?_insert? hins] at hq
    split at hq
    · cases hq
      obtain ⟨j, hj, -⟩ := hunended
      cases hj
    · exact h k q job hq hunended
  | submit org spec id now =>
    simp only [stepFleet] at hstep
    split at hstep
    · cases hstep
    · rename_i hvalid
      simp only [Option.bind_eq_some_iff, Option.map_eq_some_iff] at hstep
      obtain ⟨q, hq, q', hins, rfl⟩ := hstep
      exact endAttended_setTenant h hq (fun job => unended_insertJob hvalid hins) rfl
        fun op hop => List.mem_append_left _ hop
  | poll workerId uuid capabilities =>
    simp only [stepFleet] at hstep
    split at hstep
    · cases hstep
      exact endAttended_of_tenants h rfl fun op hop => List.mem_append_left _ hop
    · cases hstep
  | sweep orgs =>
    cases hstep
    exact endAttended_of_tenants h rfl fun op hop => List.mem_append_left _ hop
  | advance i chance => exact endAttended_advance h hstep hkept
  | abandon i =>
    simp only [stepFleet] at hstep
    split at hstep
    · rename_i hi
      cases hstep
      intro org q job hq hunended
      obtain ⟨op, hop, hends⟩ := h org q job hq hunended
      have hat := List.getElem?_eq_getElem hi
      rcases (mem_iff_replaceAt hat).1 hop with hother | rfl
      · exact ⟨op, hother, hends⟩
      · have hbind : (s.inFlight[i]?).bind Operation.ends = some (org, job) := by
          rw [hat, Option.bind_some, hends]
        exact hkept org job hbind q hq hunended
    · cases hstep
  | heartbeat i chance =>
    simp only [stepFleet, Option.map_eq_some_iff] at hstep
    obtain ⟨e, -, rfl⟩ := hstep
    rcases heartbeat_cases s chance e.token with heq | ⟨org, job, seed, worker, q, -, hq, -, heq⟩
    · rw [heq]
      exact h
    · rw [heq]
      exact endAttended_setTenant h hq (fun _ => unended_touchShard) rfl fun _ hop => hop
  | result i chance res =>
    simp only [stepFleet, Option.map_eq_some_iff] at hstep
    obtain ⟨e, -, rfl⟩ := hstep
    rcases result_cases s chance e.token res with
      heq | ⟨org, job, seed, worker, q, state, -, hq, -, -, heq⟩
    · rw [heq]
      exact h
    · rw [heq]
      intro k r job' hr hunended
      replace hr := (Fleet.get?_setTenant hq k).symm.trans hr
      -- the reporter sees to the end of the job its result may have ended
      have hbefore : (k, job') = (org, job) ∨
          ∃ r0, s.tenants.get? k = some r0 ∧ Unended r0 job' := by
        split at hr
        · rename_i hk
          cases hr
          rcases unended_setShard hunended with hback | ⟨hjob, -⟩
          · exact .inr ⟨q, hk ▸ hq, hback⟩
          · exact .inl (by rw [hk, hjob])
        · exact .inr ⟨r, hr, hunended⟩
      rcases hbefore with hthis | ⟨r0, hr0, hunended0⟩
      · exact ⟨.reported org job, List.mem_append_right _ (List.mem_singleton_self _),
          hthis ▸ rfl⟩
      · obtain ⟨op, hop, hends⟩ := h k r0 job' hr0 hunended0
        exact ⟨op, List.mem_append_left _ hop, hends⟩
  | start i chance =>
    simp only [stepFleet, Option.map_eq_some_iff] at hstep
    obtain ⟨e, -, rfl⟩ := hstep
    rcases startEmbedded_cases s chance e.org e.shard with heq | ⟨q, hq, -, heq⟩
    · rw [heq]
      exact h
    · rw [heq]
      refine endAttended_setTenant h hq (fun job hunended => ?_) rfl fun _ hop => hop
      rcases unended_setShard hunended with hback | ⟨-, hterminal⟩
      · exact hback
      · cases hterminal

theorem endAttended_empty : EndAttended {} := by
  intro org q job hq
  cases hq

end Attended

/-- When no handler gives up a job that has no one else to finish it, a job whose shards
are all over, with no handler under way for it, has `finished_at`. -/
theorem completed_job_is_finished {cfg : SchedulerConfig} {s : Fleet} {es : List FleetEvent}
    (h : Run (Guarded (FleetStep cfg) EndKept) {} es s) {org : Int64} {q : QueueStore}
    {job : String} {j : JobRow} (hq : s.tenants.get? org = some q)
    (hj : q.jobs.get? job = some j)
    (hover : ∀ key r, q.shards.get? key = some r → key.1 = job → r.state.terminal = true)
    (hidle : ∀ op ∈ s.inFlight, op.ends ≠ some (org, job)) : j.finishedAt.isSome = true := by
  have hattended : EndAttended s :=
    h.invariant_of_guarded EndAttended (fun _ _ _ hi hstep hkept => endAttended_step hi hstep hkept)
      endAttended_empty
  cases hfinished : j.finishedAt with
  | some at' => rfl
  | none =>
    have hunended : Unended q job := ⟨j, hj, hfinished, jobIncomplete_eq_false_iff.2 hover⟩
    obtain ⟨op, hop, hends⟩ := hattended org q job hq hunended
    exact absurd hends (hidle op hop)

/-- No call fails and no process dies. -/
def nothingFails : FleetEvent → Bool
  | .advance _ chance => !chance.fails
  | .abandon _ => false
  | _ => true

theorem endKept_of_nothingFails (s : Fleet) (e : FleetEvent) (s' : Fleet)
    (h : nothingFails e = true) : EndKept s e s' := by
  cases e with
  | advance i chance =>
    intro hfails
    rw [nothingFails, hfails] at h
    cases h
  | abandon i => cases h
  | _ => trivial

theorem completed_job_is_finished_solo :
    ∃ s q j, Run (Guarded (FleetStep .hosted) EndKept) {} finishSolo s ∧
      s.tenants.get? 1 = some q ∧ q.jobs.get? "job-a" = some j ∧ j.finishedAt.isSome = true := by
  have hread : (runOf (checked (stepFleet .hosted) fun _ => nothingFails) {} finishSolo).map
      (fun s => (s.inFlight, (s.tenants.get? 1).bind fun q =>
        (q.jobs.get? "job-a").map fun _ => jobIncomplete q "job-a")) =
      some ([], some false) := by decide
  obtain ⟨s, hs, hread⟩ := Option.map_eq_some_iff.1 hread
  obtain ⟨hidle, hread⟩ := Prod.mk.inj hread
  obtain ⟨q, hq, hread⟩ := Option.bind_eq_some_iff.1 hread
  obtain ⟨j, hj, hdone⟩ := Option.map_eq_some_iff.1 hread
  have hrun := Run.of_runOf_checked endKept_of_nothingFails hs
  refine ⟨s, q, j, hrun, hq, hj, ?_⟩
  refine completed_job_is_finished hrun hq hj (jobIncomplete_eq_false_iff.1 hdone) ?_
  rw [hidle]
  exact nofun

/-- The call after the last result fails, and a sweep of the tenant follows: the job is
over, nothing is under way, and it is not finished. -/
theorem failed_finalize_is_not_repaired :
    ¬ ∀ cfg es orgs es' s, Run (FleetStep cfg) {} (es ++ .sweep orgs :: es') s →
      (∀ i chance res, .result i chance res ∉ es') → s.inFlight = [] →
      ∀ org ∈ orgs, ∀ q job j, s.tenants.get? org = some q → q.jobs.get? job = some j →
        (∀ key r, q.shards.get? key = some r → key.1 = job → r.state.terminal = true) →
        j.finishedAt.isSome = true := by
  intro hall
  have hread : (runOf (stepFleet .hosted) {}
      (claimSolo ++ [.result 0 {} { status := "clean" }, .advance 0 { fails := true }] ++
        sweepSolo)).map (fun s => (s.inFlight, (s.tenants.get? 1).bind fun q =>
          (q.jobs.get? "job-a").map fun j => (jobIncomplete q "job-a", j.finishedAt))) =
      some ([], some (false, none)) := by decide
  obtain ⟨s, hs, hread⟩ := Option.map_eq_some_iff.1 hread
  obtain ⟨hidle, hread⟩ := Prod.mk.inj hread
  obtain ⟨q, hq, hread⟩ := Option.bind_eq_some_iff.1 hread
  obtain ⟨j, hj, hread⟩ := Option.map_eq_some_iff.1 hread
  obtain ⟨hdone, hnone⟩ := Prod.mk.inj hread
  have hfinished := hall .hosted _ [1] _ s (Run.of_runOf hs) (by simp) hidle 1
    (List.mem_singleton_self 1) q "job-a" j hq hj (jobIncomplete_eq_false_iff.1 hdone)
  rw [hnone] at hfinished
  cases hfinished

end ReproitCloud
