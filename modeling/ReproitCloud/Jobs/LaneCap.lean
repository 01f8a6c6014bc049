import ReproitCloud.Jobs.Fleet

/-!
# The Mac lane cap

The cap is checked by the policy, on the load a gather read, and the claim comes
later.  `macRunning` is the load itself.

`LaneKept` is what a run keeps: no tenant is over the cap, and the candidates of
every operation under way are what they should be.  A candidate names a job by its
id, so its tier has to stay the tier of that job's shards: all shards of a job are
on one backend, and no statement changes a backend (`QueueStep.extends`).

A claim of a Mac shard raises the load by one.  It keeps the cap when the load is
no more than what the gather read (`CountsFresh`), and `lane_cap_kept` is the result
for all runs whose claims are so.
-/

namespace ReproitCloud

open Lib

/-- The running shards of the Mac tier. -/
def macRunning (q : QueueStore) : Nat :=
  q.shards.count fun _ s => s.state = .running && tier s.backend = .mac

/-- A Mac claim finds no more load than its candidate was admitted with. -/
def CountsFresh (s : Fleet) : FleetEvent → Fleet → Prop
  | .advance i chance, _ => ∀ poll cand target rest q c q',
      s.inFlight[i]? = some (.claiming poll ((cand, target) :: rest)) →
      s.tenants.get? target.orgId = some q →
      claimShard q chance.locked chance.now poll.worker poll.capabilities (some target.jobId) =
        some (c, q') →
      cand.tier = .mac → macRunning q ≤ cand.tenantRunning.toNat
  | _, _ => True

/-! ## The load -/

section Load

variable {q q' : QueueStore}

/-- An update that starts nothing does not raise the load. -/
theorem macRunning_updateShards_le {p : ShardKey → ShardRow → Bool} {f : ShardRow → ShardRow}
    (hbackend : ∀ s, (f s).backend = s.backend)
    (hrunning : ∀ k s, p k s = true → (f s).state = .running → s.state = .running) :
    macRunning (q.updateShards p f) ≤ macRunning q := by
  refine count_updateShards_le (r := fun s => s.state = .running && tier s.backend = .mac)
    fun k s _ hp hf => ?_
  simp only [Bool.and_eq_true, decide_eq_true_eq, hbackend] at hf ⊢
  exact ⟨hrunning k s hp hf.1, hf.2⟩

/-- A claim raises the load by one at most. -/
theorem macRunning_claim_le {locked : List ShardKey} {now : Micros} {worker : String}
    {capabilities : List String} {job : Option String} {c : ClaimedShard}
    (h : claimShard q locked now worker capabilities job = some (c, q')) :
    macRunning q' ≤ macRunning q + 1 := by
  obtain ⟨s, -, -, -, -, -, -, rfl⟩ := claimShard_spec h
  exact Table.count_update_key_le q.shards c.key (fun _ => ShardRow.claim now worker) _

/-- A claim on another tier does not raise it. -/
theorem macRunning_claim_elastic_le {locked : List ShardKey} {now : Micros} {worker : String}
    {capabilities : List String} {job : Option String} {c : ClaimedShard}
    (h : claimShard q locked now worker capabilities job = some (c, q'))
    (htier : tier c.backend ≠ .mac) : macRunning q' ≤ macRunning q := by
  obtain ⟨s, hs, -, -, -, -, hbackend, rfl⟩ := claimShard_spec h
  refine count_updateShards_le (r := fun s => s.state = .running && tier s.backend = .mac)
    fun k r hr hp hf => ?_
  rw [decide_eq_true_eq] at hp
  subst hp
  rw [hs, Option.some.injEq] at hr
  subst hr
  simp only [ShardRow.claim, decide_true, Bool.true_and] at hf
  rw [hbackend] at htier
  exact absurd (of_decide_eq_true hf) htier

theorem macRunning_insertJob {job : Job} (h : insertJob q job = some q') :
    macRunning q' = macRunning q := by
  rw [macRunning, Table.count, (insertJob_spec h).2.2, List.countP_append, macRunning, Table.count,
    Nat.add_eq_left, List.countP_eq_zero]
  intro r hr
  obtain ⟨seed, -, rfl⟩ := List.mem_map.1 hr
  simp

theorem macRunning_empty : macRunning QueueStore.empty = 0 := rfl

end Load

/-! ## The invariant -/

/-- The target's tenant has the job, and its shards are in this tier. -/
def TargetOn (s : Fleet) (target : ClaimTarget) (t : Tier) : Prop :=
  ∃ q, s.tenants.get? target.orgId = some q ∧ q.jobs.has target.jobId = true ∧
    ∀ k r, q.shards.get? k = some r → k.1 = target.jobId → tier r.backend = t

/-- A candidate is of the tier of its job, under the configured cap. -/
def CandidateSound (cfg : SchedulerConfig) (s : Fleet) (c : Candidate × ClaimTarget) : Prop :=
  TargetOn s c.2 c.1.tier ∧ c.1.tenantLaneCap = cfg.laneCap

/-- The candidates an operation carries are sound, and those it will claim were
admitted. -/
def OperationSound (cfg : SchedulerConfig) (s : Fleet) : Operation → Prop
  | .gathering _ _ seen | .counting _ _ _ seen | .clearing _ _ _ seen =>
      ∀ c ∈ seen.cands, CandidateSound cfg s c
  | .loading _ org jobs _ seen =>
      (∀ c ∈ seen.cands, CandidateSound cfg s c) ∧
        ∀ job ∈ jobs, TargetOn s ⟨org, job.jobId⟩ (tier job.backend)
  | .claiming _ order => ∀ c ∈ order, CandidateSound cfg s c ∧ mayClaim c.1 = true
  | _ => True

/-- What a run with fresh counts keeps. -/
structure LaneKept (cfg : SchedulerConfig) (s : Fleet) : Prop where
  capped : ∀ org q, s.tenants.get? org = some q → macRunning q ≤ cfg.laneCap.toNat
  oneBackend : ∀ org q, s.tenants.get? org = some q → OneBackend q
  operations : ∀ op ∈ s.inFlight, OperationSound cfg s op

/-! ## Candidates stay sound -/

/-- Every tenant is still there, with the jobs and the backends it had. -/
def FleetExtends (s s' : Fleet) : Prop :=
  ∀ org q, s.tenants.get? org = some q → ∃ q', s'.tenants.get? org = some q' ∧ QueueExtends q q'

section Extends

variable {cfg : SchedulerConfig} {s s' : Fleet}

theorem fleetExtends_of_tenants (h : s'.tenants = s.tenants) : FleetExtends s s' := by
  intro org q hq
  exact ⟨q, h ▸ hq, .refl q⟩

theorem fleetExtends_setTenant {org : Int64} {q q' : QueueStore} (hq : s.tenants.get? org = some q)
    (hstep : QueueStep q q') (hs' : s'.tenants = (s.setTenant org q').tenants) :
    FleetExtends s s' := by
  intro k r hr
  rw [hs', Fleet.get?_setTenant hq]
  by_cases hk : k = org
  · subst hk
    rw [hq, Option.some.injEq] at hr
    subst hr
    exact ⟨q', if_pos rfl, hstep.extends⟩
  · exact ⟨r, by rw [if_neg hk, hr], .refl r⟩

theorem TargetOn.extends {target : ClaimTarget} {t : Tier} (hext : FleetExtends s s')
    (h : TargetOn s target t) : TargetOn s' target t := by
  obtain ⟨q, hq, hjob, htier⟩ := h
  obtain ⟨q', hq', hqq'⟩ := hext _ q hq
  refine ⟨q', hq', hqq'.jobs _ hjob, fun k r' hr' hk => ?_⟩
  obtain ⟨r, hr, hbackend⟩ := hqq'.shards k r' hr' (hk ▸ hjob)
  rw [← hbackend]
  exact htier k r hr hk

theorem CandidateSound.extends {c : Candidate × ClaimTarget} (hext : FleetExtends s s')
    (h : CandidateSound cfg s c) : CandidateSound cfg s' c :=
  ⟨h.1.extends hext, h.2⟩

theorem OperationSound.extends {op : Operation} (hext : FleetExtends s s')
    (h : OperationSound cfg s op) : OperationSound cfg s' op := by
  cases op with
  | gathering => exact fun c hc => (h c hc).extends hext
  | counting => exact fun c hc => (h c hc).extends hext
  | clearing => exact fun c hc => (h c hc).extends hext
  | loading => exact ⟨fun c hc => (h.1 c hc).extends hext, fun job hjob => (h.2 job hjob).extends hext⟩
  | claiming => exact fun c hc => ⟨(h c hc).1.extends hext, (h c hc).2⟩
  | _ => trivial

end Extends

/-! ## Gathering makes sound candidates -/

section Gathering

variable {cfg : SchedulerConfig} {s : Fleet} {q : QueueStore}

/-- A pending job is a job of the queue, and the tier of its backend is the tier of
all its shards. -/
theorem targetOn_pendingJobs {org : Int64} {capabilities : List String} {job : PendingJob}
    (hq : s.tenants.get? org = some q) (hone : OneBackend q)
    (h : job ∈ pendingJobs q capabilities) : TargetOn s ⟨org, job.jobId⟩ (tier job.backend) := by
  simp only [pendingJobs, List.mem_map] at h
  obtain ⟨r, hr, rfl⟩ := h
  replace hr := List.mem_of_mem_take hr
  simp only [List.mem_insertionSort, List.mem_filterMap, List.mem_dedup, List.mem_map,
    List.mem_filter, Option.map_eq_some_iff] at hr
  obtain ⟨p, ⟨⟨k, row⟩, ⟨hrow, -⟩, rfl⟩, j, hj, rfl⟩ := hr
  have hget : q.shards.get? k = some row := Table.get?_eq_some_iff.2 hrow
  refine ⟨q, hq, ?_, fun k' row' hrow' hk => ?_⟩
  · rw [Table.has, hj]
    rfl
  · rw [hone k' k row' row hrow' hget hk]

theorem candidateSound_addTenant {org : Int64} {nowUnix : Int} {rows : List (String × Nat)}
    {jobs : List PendingJob} {seen : Gathered} (hseen : ∀ c ∈ seen.cands, CandidateSound cfg s c)
    (hjobs : ∀ job ∈ jobs, TargetOn s ⟨org, job.jobId⟩ (tier job.backend)) :
    ∀ c ∈ (seen.addTenant cfg nowUnix org rows jobs).cands, CandidateSound cfg s c := by
  intro c hc
  rcases List.mem_append.1 hc with hc | hc
  · exact hseen c hc
  · obtain ⟨job, hjob, rfl⟩ := List.mem_map.1 hc
    exact ⟨hjobs job hjob, rfl⟩

/-- What is ranked was gathered, up to the fair share, and passed the gate. -/
theorem candidateSound_ranked {nowUnix : Int} {seen : Gathered}
    (hseen : ∀ c ∈ seen.cands, CandidateSound cfg s c) :
    ∀ c ∈ seen.ranked nowUnix, CandidateSound cfg s c ∧ mayClaim c.1 = true := by
  intro c hc
  simp only [Gathered.ranked, List.mem_filterMap] at hc
  obtain ⟨i, hi, hci⟩ := hc
  constructor
  · obtain ⟨c', hc', rfl⟩ := List.mem_map.1 (List.mem_of_getElem? hci)
    exact hseen c' hc'
  · obtain ⟨cand, hcand, hmay⟩ := mayClaim_of_mem_claimOrder hi
    rw [List.getElem?_map, hci, Option.map_some, Option.some.injEq] at hcand
    rw [hcand]
    exact hmay

/-- An operation goes on with sound candidates. -/
theorem operationSound_step {chance : Chance} {op next : Operation}
    (hone : ∀ org q, s.tenants.get? org = some q → OneBackend q) (h : OperationSound cfg s op)
    (hnext : (stepOperation cfg s chance op).2 = some next) : OperationSound cfg s next := by
  cases op with
  | submitted org => cases hnext
  | sweeping todo =>
    cases todo with
    | nil => cases hnext
    | cons org todo =>
      simp only [stepOperation] at hnext
      repeat' split at hnext
      all_goals cases hnext; trivial
  | remarking org todo => cases hnext; trivial
  | gathering poll todo seen =>
    cases todo with
    | nil =>
      cases hnext
      exact candidateSound_ranked h
    | cons org todo =>
      simp only [stepOperation] at hnext
      split at hnext
      · cases hnext
        exact h
      · rename_i q hq
        split at hnext
        · cases hnext
          exact h
        · split at hnext
          · cases hnext
            exact h
          · cases hnext
            exact ⟨h, fun job hjob => targetOn_pendingJobs hq (hone org q hq) hjob⟩
  | counting poll org todo seen =>
    simp only [stepOperation] at hnext
    repeat' split at hnext
    all_goals cases hnext; exact h
  | clearing poll org todo seen => cases hnext; exact h
  | loading poll org jobs todo seen =>
    cases hnext
    exact candidateSound_addTenant h.1 h.2
  | claiming poll order =>
    cases order with
    | nil => cases hnext
    | cons first rest =>
      have hrest : OperationSound cfg s (.claiming poll rest) := fun c hc =>
        h c (List.mem_cons_of_mem _ hc)
      obtain ⟨cand, target⟩ := first
      simp only [stepOperation] at hnext
      split at hnext
      · cases hnext
        exact hrest
      · split at hnext
        · cases hnext
          exact hrest
        · split at hnext
          · cases hnext
            exact hrest
          · cases hnext
  | reported org job =>
    simp only [stepOperation] at hnext
    split at hnext
    · cases hnext
    · split at hnext
      · cases hnext
      · cases hnext
        trivial
  | finishing org job =>
    simp only [stepOperation] at hnext
    split at hnext <;> cases hnext

end Gathering

/-! ## Steps keep the lane -/

section Steps

variable {cfg : SchedulerConfig} {s s' : Fleet}

/-- A write to one queue keeps the lane when it keeps the load of that queue under
the cap. -/
theorem laneKept_setTenant {org : Int64} {q q' : QueueStore} (h : LaneKept cfg s)
    (hq : s.tenants.get? org = some q) (hstep : QueueStep q q')
    (hs' : s'.tenants = (s.setTenant org q').tenants) (hcap : macRunning q' ≤ cfg.laneCap.toNat)
    (hops : ∀ op ∈ s'.inFlight, OperationSound cfg s op) : LaneKept cfg s' := by
  have hext : FleetExtends s s' := fleetExtends_setTenant hq hstep hs'
  have hread : ∀ k r, s'.tenants.get? k = some r → r = q' ∨ s.tenants.get? k = some r := by
    intro k r hr
    rw [hs', Fleet.get?_setTenant hq] at hr
    split at hr
    · cases hr
      exact .inl rfl
    · exact .inr hr
  refine ⟨fun k r hr => ?_, fun k r hr => ?_, fun op hop => (hops op hop).extends hext⟩
  · rcases hread k r hr with rfl | hr
    · exact hcap
    · exact h.capped k r hr
  · rcases hread k r hr with rfl | hr
    · exact hstep.oneBackend (h.oneBackend org q hq)
    · exact h.oneBackend k r hr

/-- A change of the operations alone. -/
theorem laneKept_of_tenants (h : LaneKept cfg s) (hs' : s'.tenants = s.tenants)
    (hops : ∀ op ∈ s'.inFlight, OperationSound cfg s op) : LaneKept cfg s' where
  capped k r hr := h.capped k r (hs' ▸ hr)
  oneBackend k r hr := h.oneBackend k r (hs' ▸ hr)
  operations op hop := (hops op hop).extends (fleetExtends_of_tenants hs')

theorem macRunning_touchShard_le (q : QueueStore) (now : Micros) (job : String) (seed : UInt32)
    (worker : String) : macRunning (touchShard q now job seed worker).2 ≤ macRunning q :=
  macRunning_updateShards_le (fun _ => rfl) fun _ _ _ hf => hf

theorem macRunning_setShard_le (q : QueueStore) (job : String) (seed : UInt32) (worker : String)
    (state : ShardState) (report : Option String) (durationS : UInt64) :
    macRunning (setShard q job seed worker state report durationS).2 ≤ macRunning q :=
  macRunning_updateShards_le (fun _ => rfl) fun _ _ hp _ => (heldBy_iff.1 hp).2.2

theorem macRunning_requeueStranded_le (q : QueueStore) (now : Micros) (stale : Int) :
    macRunning (requeueStranded q now stale).2 ≤ macRunning q :=
  macRunning_updateShards_le (fun _ => rfl) fun _ _ _ hf => by cases hf

/-- A claim of an admitted candidate, with fresh counts, keeps the cap. -/
theorem claim_under_cap {cand : Candidate} {target : ClaimTarget} {q q' : QueueStore}
    {locked : List ShardKey} {now : Micros} {worker : String} {capabilities : List String}
    {c : ClaimedShard} (h : LaneKept cfg s) (hsound : CandidateSound cfg s (cand, target))
    (hmay : mayClaim cand = true) (hq : s.tenants.get? target.orgId = some q)
    (hclaim : claimShard q locked now worker capabilities (some target.jobId) = some (c, q'))
    (hfresh : cand.tier = .mac → macRunning q ≤ cand.tenantRunning.toNat) :
    macRunning q' ≤ cfg.laneCap.toNat := by
  -- the claimed shard is of the candidate's tier
  have htier : tier c.backend = cand.tier := by
    obtain ⟨r, hr, -, -, hjob, -, hbackend, -⟩ := claimShard_spec hclaim
    obtain ⟨⟨q0, hq0, -, hshards⟩, -⟩ := hsound
    rw [hq, Option.some.injEq] at hq0
    subst hq0
    rw [hbackend]
    exact hshards c.key r hr (hjob _ rfl)
  by_cases hmac : cand.tier = .mac
  · have hadmitted : cand.tenantRunning < cand.tenantLaneCap := by
      simpa [mayClaim, hmac] using hmay
    have hlt : cand.tenantRunning.toNat < cfg.laneCap.toNat := by
      rw [← hsound.2]
      exact UInt32.lt_iff_toNat_lt.1 hadmitted
    have hraise := macRunning_claim_le hclaim
    have := hfresh hmac
    omega
  · have hsame := macRunning_claim_elastic_le hclaim (htier ▸ hmac)
    have := h.capped _ q hq
    omega

theorem laneKept_advance {i : Nat} {chance : Chance} (h : LaneKept cfg s)
    (hstep : stepFleet cfg s (.advance i chance) = some s')
    (hfresh : CountsFresh s (.advance i chance) s') : LaneKept cfg s' := by
  simp only [stepFleet, Option.map_eq_some_iff] at hstep
  obtain ⟨op, hop, rfl⟩ := hstep
  have hsound : OperationSound cfg s op := h.operations op (List.mem_of_getElem? hop)
  have hops : ∀ o ∈ replaceAt s.inFlight i (stepOperation cfg s chance op).2,
      OperationSound cfg s o := by
    intro o ho
    rcases mem_replaceAt.1 ho with ho | ho
    · exact h.operations o ((mem_iff_replaceAt hop).2 (.inl ho))
    · exact operationSound_step h.oneBackend hsound ho
  have heffect := operationEffect_step cfg s chance op
  generalize hnext : (stepOperation cfg s chance op).2 = next at hops
  generalize (stepOperation cfg s chance op).1 = t at heffect ⊢
  cases heffect with
  | nothing => exact laneKept_of_tenants h rfl hops
  | mark => exact laneKept_of_tenants h rfl hops
  | clear => exact laneKept_of_tenants h rfl hops
  | requeue hq =>
    exact laneKept_setTenant h hq (.requeue _ _ _) rfl
      (le_trans (macRunning_requeueStranded_le ..) (h.capped _ _ hq)) hops
  | claim hq hclaim =>
    have hcand := hsound _ List.mem_cons_self
    refine laneKept_setTenant h hq (.claim hclaim) rfl ?_ hops
    exact claim_under_cap h hcand.1 hcand.2 hq hclaim (hfresh _ _ _ _ _ _ _ hop hq hclaim)
  | @finish org job q hq =>
    have hcap : macRunning (finalizeJob q chance.now job 0 0) ≤ cfg.laneCap.toNat :=
      h.capped org q hq
    exact laneKept_setTenant h hq (.finalize _ _ _ _ _) rfl hcap hops

/-- A new tenant has nothing running. -/
theorem laneKept_provision {org : Int64} {tenants : Table Int64 QueueStore} (h : LaneKept cfg s)
    (hins : s.tenants.insert? org QueueStore.empty = some tenants) :
    LaneKept cfg { s with tenants := tenants } := by
  have hread : ∀ k r, tenants.get? k = some r →
      r = QueueStore.empty ∨ s.tenants.get? k = some r := by
    intro k r hr
    rw [Table.get?_insert? hins] at hr
    split at hr
    · cases hr
      exact .inl rfl
    · exact .inr hr
  have hext : FleetExtends s { s with tenants := tenants } := by
    intro k q hq
    have hne : k ≠ org := by
      rintro rfl
      have hfresh := Table.has_of_insert? hins
      rw [Table.has, hq] at hfresh
      cases hfresh
    refine ⟨q, ?_, .refl q⟩
    rw [Table.get?_insert? hins, if_neg hne, hq]
  refine ⟨fun k r hr => ?_, fun k r hr => ?_, fun op hop => (h.operations op hop).extends hext⟩
  · rcases hread k r hr with rfl | hr
    · rw [macRunning_empty]
      exact Nat.zero_le _
    · exact h.capped k r hr
  · rcases hread k r hr with rfl | hr
    · intro k k' s s' hs
      cases hs
    · exact h.oneBackend k r hr

theorem laneKept_step {e : FleetEvent} (h : LaneKept cfg s) (hstep : stepFleet cfg s e = some s')
    (hfresh : CountsFresh s e s') : LaneKept cfg s' := by
  cases e with
  | provision org =>
    simp only [stepFleet, Option.map_eq_some_iff] at hstep
    obtain ⟨tenants, hins, rfl⟩ := hstep
    exact laneKept_provision h hins
  | submit org spec id now =>
    simp only [stepFleet] at hstep
    split at hstep
    · cases hstep
    · simp only [Option.bind_eq_some_iff, Option.map_eq_some_iff] at hstep
      obtain ⟨q, hq, q', hins, rfl⟩ := hstep
      refine laneKept_setTenant h hq (.insert hins) rfl ?_ ?_
      · rw [macRunning_insertJob hins]
        exact h.capped org q hq
      · intro op hop
        rcases List.mem_append.1 hop with hop | hop
        · exact h.operations op hop
        · rw [List.mem_singleton] at hop
          subst hop
          trivial
  | poll workerId uuid capabilities =>
    simp only [stepFleet] at hstep
    split at hstep
    · cases hstep
      refine laneKept_of_tenants h rfl fun op hop => ?_
      rcases List.mem_append.1 hop with hop | hop
      · exact h.operations op hop
      · rw [List.mem_singleton] at hop
        subst hop
        exact nofun
    · cases hstep
  | sweep orgs =>
    cases hstep
    refine laneKept_of_tenants h rfl fun op hop => ?_
    rcases List.mem_append.1 hop with hop | hop
    · exact h.operations op hop
    · rw [List.mem_singleton] at hop
      subst hop
      trivial
  | advance i chance => exact laneKept_advance h hstep hfresh
  | abandon i =>
    simp only [stepFleet] at hstep
    split at hstep
    · rename_i hi
      cases hstep
      refine laneKept_of_tenants h rfl fun op hop => ?_
      exact h.operations op ((mem_iff_replaceAt (List.getElem?_eq_getElem hi)).2 (.inl hop))
    · cases hstep
  | heartbeat i chance =>
    simp only [stepFleet, Option.map_eq_some_iff] at hstep
    obtain ⟨e, -, rfl⟩ := hstep
    rcases heartbeat_cases s chance e.token with heq | ⟨org, job, seed, worker, q, -, hq, -, heq⟩
    · rw [heq]
      exact h
    · rw [heq]
      exact laneKept_setTenant h hq (.touch _ _ _ _ _) rfl
        (le_trans (macRunning_touchShard_le ..) (h.capped _ _ hq)) h.operations
  | result i chance res =>
    simp only [stepFleet, Option.map_eq_some_iff] at hstep
    obtain ⟨e, -, rfl⟩ := hstep
    rcases result_cases s chance e.token res with
      heq | ⟨org, job, seed, worker, q, state, -, hq, hterminal, -, heq⟩
    · rw [heq]
      exact h
    · have hstate : state ≠ .pending := by
        rintro rfl
        cases hterminal
      rw [heq]
      refine laneKept_setTenant h hq (.set _ _ _ _ _ _ hstate) rfl
        (le_trans (macRunning_setShard_le ..) (h.capped _ _ hq)) fun op hop => ?_
      rcases List.mem_append.1 hop with hop | hop
      · exact h.operations op hop
      · rw [List.mem_singleton] at hop
        subst hop
        trivial
  | start i chance =>
    simp only [stepFleet, Option.map_eq_some_iff] at hstep
    obtain ⟨e, -, rfl⟩ := hstep
    rcases startEmbedded_cases s chance e.org e.shard with heq | ⟨q, hq, -, heq⟩
    · rw [heq]
      exact h
    · have hstate : ShardState.running ≠ .pending := by decide
      rw [heq]
      exact laneKept_setTenant h hq (.set _ _ _ _ _ _ hstate) rfl
        (le_trans (macRunning_setShard_le ..) (h.capped _ _ hq)) h.operations

end Steps

/-! ## Runs -/

theorem laneKept_empty (cfg : SchedulerConfig) : LaneKept cfg {} := by
  refine ⟨?_, ?_, ?_⟩
  · intro org q hq
    cases hq
  · intro org q hq
    cases hq
  · intro op hop
    cases hop

/-- In every run whose Mac claims find no more load than the gather read, no tenant
ever runs more Mac shards than the configured cap. -/
theorem lane_cap_kept {cfg : SchedulerConfig} {s : Fleet} {es : List FleetEvent}
    (hrun : Run (Guarded (FleetStep cfg) CountsFresh) {} es s) :
    ∀ org q, s.tenants.get? org = some q → macRunning q ≤ cfg.laneCap.toNat :=
  (hrun.invariant_of_guarded (LaneKept cfg) (fun _ _ _ hi hs hf => laneKept_step hi hs hf)
    (laneKept_empty cfg)).capped

/-- A check of the counts at the first target of a claiming operation. -/
def findsFreshCounts (s : Fleet) : FleetEvent → Bool
  | .advance i _ => match s.inFlight[i]? with
      | some (.claiming _ ((cand, target) :: _)) =>
        (s.tenants.get? target.orgId).all fun q => macRunning q ≤ cand.tenantRunning.toNat
      | _ => true
  | _ => true

theorem countsFresh_of_check (s : Fleet) (e : FleetEvent) (s' : Fleet)
    (h : findsFreshCounts s e = true) : CountsFresh s e s' := by
  cases e with
  | advance i chance =>
    intro poll cand target rest q c q' hop hq _ _
    simp only [findsFreshCounts, hop, hq, Option.all_some, decide_eq_true_eq] at h
    exact h
  | _ => trivial

/-- An iOS job of two shards. -/
def twoSimulators : JobSpec := { appDir := "/srv/shop", seeds := 2, backend := "ios" }

/-- One worker claims an iOS shard. -/
def claimOne : List FleetEvent :=
  [.provision 1, .submit 1 twoSimulators "job-a" 0, .advance 0 {},
    .poll (some "mac1") "0" ["ios"], .advance 0 {}, .advance 0 {}, .advance 0 {}, .advance 0 {}]

theorem lane_cap_kept_claim_one :
    ∃ s q, Run (Guarded (FleetStep ⟨true, 1⟩) CountsFresh) {} claimOne s ∧
      s.tenants.get? 1 = some q ∧ macRunning q = 1 ∧
      macRunning q ≤ (SchedulerConfig.mk true 1).laneCap.toNat := by
  have hread : (runOf (checked (stepFleet ⟨true, 1⟩) findsFreshCounts) {} claimOne).map (fun s =>
      (s.tenants.get? 1).map macRunning) = some (some 1) := by decide
  obtain ⟨s, hs, hread⟩ := Option.map_eq_some_iff.1 hread
  obtain ⟨q, hq, hone⟩ := Option.map_eq_some_iff.1 hread
  have hrun := Run.of_runOf_checked countsFresh_of_check hs
  exact ⟨s, q, hrun, hq, hone, lane_cap_kept hrun 1 q hq⟩

/-- Two workers gather before either claims. -/
def twoGather : List FleetEvent :=
  [.provision 1, .submit 1 twoSimulators "job-a" 0, .advance 0 {},
    .poll (some "mac1") "0" ["ios"], .advance 0 {}, .advance 0 {}, .advance 0 {},
    .poll (some "mac2") "0" ["ios"], .advance 1 {}, .advance 1 {}, .advance 1 {},
    .advance 0 {}, .advance 0 {}]

/-- With a cap of one, both of them claim. -/
theorem lane_cap_exceeded :
    ¬ ∀ cfg es s, Run (FleetStep cfg) {} es s →
      ∀ org q, s.tenants.get? org = some q → macRunning q ≤ cfg.laneCap.toNat := by
  intro hall
  have hread : (runOf (stepFleet ⟨true, 1⟩) {} twoGather).map (fun s =>
      (s.tenants.get? 1).map macRunning) = some (some 2) := by decide
  obtain ⟨s, hs, hread⟩ := Option.map_eq_some_iff.1 hread
  obtain ⟨q, hq, htwo⟩ := Option.map_eq_some_iff.1 hread
  have hcap := hall ⟨true, 1⟩ twoGather s (.of_runOf hs) 1 q hq
  rw [htwo] at hcap
  revert hcap
  decide

end ReproitCloud
