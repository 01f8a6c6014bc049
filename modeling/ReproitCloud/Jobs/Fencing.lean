import ReproitCloud.Jobs.Fleet

/-!
# Messages for a claim that is over

A heartbeat or a result is sent for one claim of a shard and can arrive much later,
when the lease has run out, the shard was requeued and someone has claimed it
again.  The statements behind it name the holder, `claimed_by`, and not the claim.
So a late message does nothing when the new holder has another worker id, and it
acts on the new claim when the ids are equal.

`IsCurrent` says that a granted claim is the one the shard is running under, by the
number that `attempts` had.  `Fenced` is the invariant: a running shard has a granted
claim with its number and its holder, and the claims of a shard have different
holders.  The second part is what a run has to provide (`FreshWorker`), and
`late_messages_do_nothing` is the result.
-/

namespace ReproitCloud

open Lib

/-- The shard is running under this claim. -/
def IsCurrent (s : Fleet) (e : Issued) : Prop :=
  ∃ q r, s.tenants.get? e.org = some q ∧ q.shards.get? e.shard.key = some r ∧
    r.state = .running ∧ r.attempts = e.attempt

/-- No claim of a shard is granted under a worker id that had an earlier one. -/
def FreshWorker (s : Fleet) : FleetEvent → Fleet → Prop
  | .advance i chance, _ => ∀ poll cand target rest q c q',
      s.inFlight[i]? = some (.claiming poll ((cand, target) :: rest)) →
      s.tenants.get? target.orgId = some q →
      claimShard q chance.locked chance.now poll.worker poll.capabilities (some target.jobId) =
        some (c, q') →
      ∀ e ∈ s.issued, e.org = target.orgId → e.shard.key = c.key → e.shard.claimedBy ≠ poll.worker
  | _, _ => True

/-! ## The invariant -/

/-- The claim call an operation belongs to. -/
def Operation.poll? : Operation → Option Poll
  | .gathering poll _ _ | .counting poll _ _ _ | .clearing poll _ _ _ | .loading poll _ _ _ _
  | .claiming poll _ => some poll
  | _ => none

/-- A running shard of a queue was granted, under its number and its holder. -/
def HoldersIssued (issued : List Issued) (org : Int64) (q : QueueStore) : Prop :=
  ∀ k r, q.shards.get? k = some r → r.state = .running →
    ∃ e ∈ issued, e.org = org ∧ e.shard.key = k ∧ e.attempt = r.attempts ∧
      r.claimedBy = some e.shard.claimedBy

/-- What a run with fresh worker ids keeps. -/
structure Fenced (s : Fleet) : Prop where
  holders : ∀ org q, s.tenants.get? org = some q → HoldersIssued s.issued org q
  distinct : ∀ e ∈ s.issued, ∀ e' ∈ s.issued, e.org = e'.org → e.shard.key = e'.shard.key →
    e.shard.claimedBy = e'.shard.claimedBy → e.attempt = e'.attempt
  readable : ∀ e ∈ s.issued, ':' ∉ e.shard.claimedBy.toList
  polls : ∀ op ∈ s.inFlight, ∀ poll, op.poll? = some poll → ':' ∉ poll.worker.toList

/-! ## Statements that grant nothing -/

/-- Every shard that runs afterwards ran before, under the same claim. -/
def KeepsHolders (q q' : QueueStore) : Prop :=
  ∀ k r', q'.shards.get? k = some r' → r'.state = .running →
    ∃ r, q.shards.get? k = some r ∧ r.state = .running ∧ r.attempts = r'.attempts ∧
      r.claimedBy = r'.claimedBy

section KeepsHolders

variable {q q' : QueueStore}

theorem keepsHolders_updateShards {p : ShardKey → ShardRow → Bool} {f : ShardRow → ShardRow}
    (h : ∀ k r, p k r = true → (f r).state = .running →
      r.state = .running ∧ r.attempts = (f r).attempts ∧ r.claimedBy = (f r).claimedBy) :
    KeepsHolders q (q.updateShards p f) := by
  intro k r' hr' hrunning
  rw [QueueStore.get?_updateShards, Option.map_eq_some_iff] at hr'
  obtain ⟨r, hr, rfl⟩ := hr'
  refine ⟨r, hr, ?_⟩
  split at hrunning
  · rename_i hp
    rw [if_pos hp]
    exact h k r hp hrunning
  · rename_i hp
    rw [if_neg hp]
    exact ⟨hrunning, rfl, rfl⟩

theorem keepsHolders_insertJob {job : Job} (h : insertJob q job = some q') : KeepsHolders q q' := by
  intro k r' hr' hrunning
  rcases get?_insertJob h hr' with hr | ⟨-, rfl⟩
  · exact ⟨r', hr, hrunning, rfl, rfl⟩
  · cases hrunning

theorem keepsHolders_touchShard (q : QueueStore) (now : Micros) (job : String) (seed : UInt32)
    (worker : String) : KeepsHolders q (touchShard q now job seed worker).2 :=
  keepsHolders_updateShards fun _ _ _ hrunning => ⟨hrunning, rfl, rfl⟩

theorem keepsHolders_setShard (q : QueueStore) (job : String) (seed : UInt32) (worker : String)
    (state : ShardState) (report : Option String) (durationS : UInt64) :
    KeepsHolders q (setShard q job seed worker state report durationS).2 :=
  keepsHolders_updateShards fun _ _ hheld _ => ⟨(heldBy_iff.1 hheld).2.2, rfl, rfl⟩

theorem keepsHolders_requeueStranded (q : QueueStore) (now : Micros) (stale : Int) :
    KeepsHolders q (requeueStranded q now stale).2 :=
  keepsHolders_updateShards fun _ _ _ hrunning => by cases hrunning

theorem keepsHolders_finalizeJob (q : QueueStore) (now : Micros) (job : String)
    (states transitions : Nat) : KeepsHolders q (finalizeJob q now job states transitions) :=
  fun _ r' hr' hrunning => ⟨r', hr', hrunning, rfl, rfl⟩

theorem HoldersIssued.keeps {issued : List Issued} {org : Int64} (h : HoldersIssued issued org q)
    (hkeeps : KeepsHolders q q') : HoldersIssued issued org q' := by
  intro k r' hr' hrunning
  obtain ⟨r, hr, hrun, hattempts, hholder⟩ := hkeeps k r' hr' hrunning
  rw [← hattempts, ← hholder]
  exact h k r hr hrun

/-- A claim adds a holder, and its grant. -/
theorem HoldersIssued.claim {issued : List Issued} {org : Int64} {locked : List ShardKey}
    {now : Micros} {worker : String} {capabilities : List String} {job : Option String}
    {c : ClaimedShard} (h : HoldersIssued issued org q)
    (hclaim : claimShard q locked now worker capabilities job = some (c, q')) :
    HoldersIssued (issued ++ [⟨org, c, ((q.shards.get? c.key).elim 0 ShardRow.attempts) + 1⟩])
      org q' := by
  obtain ⟨r0, hr0, -, -, -, hworker, -, rfl⟩ := claimShard_spec hclaim
  intro k r' hr' hrunning
  rw [QueueStore.get?_updateShards, Option.map_eq_some_iff] at hr'
  obtain ⟨r, hr, rfl⟩ := hr'
  by_cases hk : k = c.key
  · subst hk
    rw [hr0, Option.some.injEq] at hr
    subst hr
    refine ⟨_, List.mem_append_right _ (List.mem_singleton_self _), rfl, rfl, ?_, ?_⟩
    · simp [ShardRow.claim, hr0]
    · simp [ShardRow.claim, hworker]
  · rw [if_neg (by simpa using hk)] at hrunning ⊢
    obtain ⟨e, he, hrest⟩ := h k r hr hrunning
    exact ⟨e, List.mem_append_left _ he, hrest⟩

end KeepsHolders

/-! ## Steps keep the fence -/

section Steps

variable {cfg : SchedulerConfig} {s s' : Fleet}

/-- An operation goes on for the same claim call. -/
theorem poll?_step {chance : Chance} {op next : Operation}
    (hnext : (stepOperation cfg s chance op).2 = some next) :
    next.poll? = none ∨ next.poll? = op.poll? := by
  cases op with
  | submitted org => cases hnext
  | sweeping todo =>
    cases todo with
    | nil => cases hnext
    | cons org todo =>
      simp only [stepOperation] at hnext
      repeat' split at hnext
      all_goals cases hnext; exact .inl rfl
  | remarking org todo => cases hnext; exact .inl rfl
  | gathering poll todo seen =>
    cases todo with
    | nil => cases hnext; exact .inr rfl
    | cons org todo =>
      simp only [stepOperation] at hnext
      repeat' split at hnext
      all_goals cases hnext; exact .inr rfl
  | counting poll org todo seen =>
    simp only [stepOperation] at hnext
    repeat' split at hnext
    all_goals cases hnext; exact .inr rfl
  | clearing poll org todo seen => cases hnext; exact .inr rfl
  | loading poll org jobs todo seen => cases hnext; exact .inr rfl
  | claiming poll order =>
    cases order with
    | nil => cases hnext
    | cons first rest =>
      simp only [stepOperation] at hnext
      split at hnext
      · cases hnext
        exact .inr rfl
      · split at hnext
        · cases hnext
          exact .inr rfl
        · split at hnext
          · cases hnext
            exact .inr rfl
          · cases hnext
  | reported org job =>
    simp only [stepOperation] at hnext
    split at hnext
    · cases hnext
    · split at hnext
      · cases hnext
      · cases hnext
        exact .inl rfl
  | finishing org job =>
    simp only [stepOperation] at hnext
    split at hnext <;> cases hnext

/-- A write that grants nothing. -/
theorem fenced_setTenant {org : Int64} {q q' : QueueStore} (h : Fenced s)
    (hq : s.tenants.get? org = some q) (hkeeps : KeepsHolders q q')
    (hs' : s'.tenants = (s.setTenant org q').tenants) (hissued : s'.issued = s.issued)
    (hpolls : ∀ op ∈ s'.inFlight, ∀ poll, op.poll? = some poll → ':' ∉ poll.worker.toList) :
    Fenced s' := by
  refine ⟨fun k r hr => ?_, ?_, ?_, hpolls⟩
  · rw [hs', Fleet.get?_setTenant hq] at hr
    rw [hissued]
    split at hr
    · rename_i hk
      subst hk
      cases hr
      exact (h.holders _ q hq).keeps hkeeps
    · exact h.holders k r hr
  · rw [hissued]
    exact h.distinct
  · rw [hissued]
    exact h.readable

/-- A change of the operations alone. -/
theorem fenced_of_tenants (h : Fenced s) (hs' : s'.tenants = s.tenants)
    (hissued : s'.issued = s.issued)
    (hpolls : ∀ op ∈ s'.inFlight, ∀ poll, op.poll? = some poll → ':' ∉ poll.worker.toList) :
    Fenced s' := by
  refine ⟨fun k r hr => ?_, ?_, ?_, hpolls⟩
  · rw [hissued]
    exact h.holders k r (hs' ▸ hr)
  · rw [hissued]
    exact h.distinct
  · rw [hissued]
    exact h.readable

/-- An operation that starts has a worker id without colons, if it has one. -/
theorem polls_append {new : Operation} (h : Fenced s)
    (hnew : ∀ poll, new.poll? = some poll → ':' ∉ poll.worker.toList) :
    ∀ op ∈ s.inFlight ++ [new], ∀ poll, op.poll? = some poll → ':' ∉ poll.worker.toList := by
  intro op hop
  rcases List.mem_append.1 hop with hop | hop
  · exact h.polls op hop
  · rw [List.mem_singleton] at hop
    subst hop
    exact hnew

theorem colon_not_mem_minted {uuid : String} (h : uuidText uuid = true) :
    ':' ∉ ("w-" ++ uuid).toList := by
  rw [String.toList_append, List.mem_append, not_or]
  refine ⟨by decide, fun hmem => ?_⟩
  have := List.all_eq_true.1 h ':' hmem
  revert this
  decide

/-- A claim under an id that had none of the shard's claims. -/
theorem fenced_claim {target : ClaimTarget} {q q' : QueueStore} {locked : List ShardKey}
    {now : Micros} {poll : Poll} {job : Option String} {c : ClaimedShard} {ops : List Operation}
    (h : Fenced s) (hq : s.tenants.get? target.orgId = some q)
    (hclaim : claimShard q locked now poll.worker poll.capabilities job = some (c, q'))
    (hworker : ':' ∉ poll.worker.toList)
    (hfresh : ∀ e ∈ s.issued, e.org = target.orgId → e.shard.key = c.key →
      e.shard.claimedBy ≠ poll.worker)
    (hpolls : ∀ op ∈ ops, ∀ poll, op.poll? = some poll → ':' ∉ poll.worker.toList) :
    Fenced { s.setTenant target.orgId q' with
      inFlight := ops
      issued := s.issued ++ [⟨target.orgId, c,
        ((q.shards.get? c.key).elim 0 ShardRow.attempts) + 1⟩] } := by
  have hclaimedBy : c.claimedBy = poll.worker := by
    obtain ⟨-, -, -, -, -, hby, -, -⟩ := claimShard_spec hclaim
    exact hby
  refine ⟨fun k r hr => ?_, ?_, ?_, hpolls⟩
  · have hr' : (s.setTenant target.orgId q').tenants.get? k = some r := hr
    rw [Fleet.get?_setTenant hq] at hr'
    split at hr'
    · rename_i hk
      subst hk
      cases hr'
      exact (h.holders _ q hq).claim hclaim
    · intro k' row hrow hrunning
      obtain ⟨e, he, hrest⟩ := h.holders k r hr' k' row hrow hrunning
      exact ⟨e, List.mem_append_left _ he, hrest⟩
  · intro e he e' he' horg hkey hby
    rcases List.mem_append.1 he with he | he
    · rcases List.mem_append.1 he' with he' | he'
      · exact h.distinct e he e' he' horg hkey hby
      · rw [List.mem_singleton] at he'
        subst he'
        exact absurd (hby.trans hclaimedBy) (hfresh e he horg hkey)
    · rw [List.mem_singleton] at he
      subst he
      rcases List.mem_append.1 he' with he' | he'
      · exact absurd (hby.symm.trans hclaimedBy) (hfresh e' he' horg.symm hkey.symm)
      · rw [List.mem_singleton] at he'
        subst he'
        rfl
  · intro e he
    rcases List.mem_append.1 he with he | he
    · exact h.readable e he
    · rw [List.mem_singleton] at he
      subst he
      rw [hclaimedBy]
      exact hworker

theorem fenced_advance {i : Nat} {chance : Chance} (h : Fenced s)
    (hstep : stepFleet cfg s (.advance i chance) = some s')
    (hfresh : FreshWorker s (.advance i chance) s') : Fenced s' := by
  simp only [stepFleet, Option.map_eq_some_iff] at hstep
  obtain ⟨op, hop, rfl⟩ := hstep
  have hmem := List.mem_of_getElem? hop
  have hpolls : ∀ o ∈ replaceAt s.inFlight i (stepOperation cfg s chance op).2,
      ∀ poll, o.poll? = some poll → ':' ∉ poll.worker.toList := by
    intro o ho poll hpoll
    rcases mem_replaceAt.1 ho with ho | ho
    · exact h.polls o ((mem_iff_replaceAt hop).2 (.inl ho)) poll hpoll
    · rcases poll?_step ho with hnone | hsame
      · rw [hnone] at hpoll
        cases hpoll
      · exact h.polls op hmem poll (hsame ▸ hpoll)
  have heffect := operationEffect_step cfg s chance op
  generalize (stepOperation cfg s chance op).2 = next at hpolls
  generalize (stepOperation cfg s chance op).1 = t at heffect ⊢
  cases heffect with
  | nothing => exact fenced_of_tenants h rfl rfl hpolls
  | mark => exact fenced_of_tenants h rfl rfl hpolls
  | clear => exact fenced_of_tenants h rfl rfl hpolls
  | requeue hq => exact fenced_setTenant h hq (keepsHolders_requeueStranded _ _ _) rfl rfl hpolls
  | claim hq hclaim =>
    exact fenced_claim h hq hclaim (h.polls _ hmem _ rfl) (hfresh _ _ _ _ _ _ _ hop hq hclaim) hpolls
  | finish hq => exact fenced_setTenant h hq (keepsHolders_finalizeJob _ _ _ _ _) rfl rfl hpolls

theorem fenced_step {e : FleetEvent} (h : Fenced s) (hstep : stepFleet cfg s e = some s')
    (hfresh : FreshWorker s e s') : Fenced s' := by
  cases e with
  | provision org =>
    simp only [stepFleet, Option.map_eq_some_iff] at hstep
    obtain ⟨tenants, hins, rfl⟩ := hstep
    refine ⟨fun k r hr => ?_, h.distinct, h.readable, h.polls⟩
    rw [Table.get?_insert? hins] at hr
    split at hr
    · cases hr
      intro k row hrow
      cases hrow
    · exact h.holders k r hr
  | submit org spec id now =>
    simp only [stepFleet] at hstep
    split at hstep
    · cases hstep
    · simp only [Option.bind_eq_some_iff, Option.map_eq_some_iff] at hstep
      obtain ⟨q, hq, q', hins, rfl⟩ := hstep
      refine fenced_setTenant h hq (keepsHolders_insertJob hins) rfl rfl ?_
      exact polls_append h nofun
  | poll workerId uuid capabilities =>
    simp only [stepFleet] at hstep
    split at hstep
    · rename_i huuid
      cases hstep
      refine fenced_of_tenants h rfl rfl (polls_append h ?_)
      intro poll hpoll
      cases hpoll
      exact colon_not_mem_sanitizeWorkerId _ (colon_not_mem_minted huuid)
    · cases hstep
  | sweep orgs =>
    cases hstep
    exact fenced_of_tenants h rfl rfl (polls_append h nofun)
  | advance i chance => exact fenced_advance h hstep hfresh
  | abandon i =>
    simp only [stepFleet] at hstep
    split at hstep
    · rename_i hi
      cases hstep
      refine fenced_of_tenants h rfl rfl fun op hop => ?_
      exact h.polls op ((mem_iff_replaceAt (List.getElem?_eq_getElem hi)).2 (.inl hop))
    · cases hstep
  | heartbeat i chance =>
    simp only [stepFleet, Option.map_eq_some_iff] at hstep
    obtain ⟨e, -, rfl⟩ := hstep
    rcases heartbeat_cases s chance e.token with heq | ⟨org, job, seed, worker, q, -, hq, -, heq⟩
    · rw [heq]
      exact h
    · rw [heq]
      exact fenced_setTenant h hq (keepsHolders_touchShard _ _ _ _ _) rfl rfl h.polls
  | result i chance res =>
    simp only [stepFleet, Option.map_eq_some_iff] at hstep
    obtain ⟨e, -, rfl⟩ := hstep
    rcases result_cases s chance e.token res with
      heq | ⟨org, job, seed, worker, q, state, -, hq, -, -, heq⟩
    · rw [heq]
      exact h
    · rw [heq]
      refine fenced_setTenant h hq (keepsHolders_setShard _ _ _ _ _ _ _) rfl rfl ?_
      exact polls_append h nofun
  | start i chance =>
    simp only [stepFleet, Option.map_eq_some_iff] at hstep
    obtain ⟨e, -, rfl⟩ := hstep
    rcases startEmbedded_cases s chance e.org e.shard with heq | ⟨q, hq, -, heq⟩
    · rw [heq]
      exact h
    · rw [heq]
      exact fenced_setTenant h hq (keepsHolders_setShard _ _ _ _ _ _ _) rfl rfl h.polls

end Steps

/-! ## Runs -/

theorem fenced_empty : Fenced {} := by
  refine ⟨?_, ?_, ?_, ?_⟩
  · intro org q hq
    cases hq
  · intro e he
    cases he
  · intro e he
    cases he
  · intro op hop
    cases hop

/-- The holder that a granted claim's messages name is the running one only while the
claim is the current one. -/
theorem Fenced.isCurrent {s : Fleet} {e : Issued} {q : QueueStore} {r : ShardRow} (h : Fenced s)
    (he : e ∈ s.issued) (hq : s.tenants.get? e.org = some q)
    (hr : q.shards.get? e.shard.key = some r) (hholder : r.claimedBy = some e.shard.claimedBy)
    (hrunning : r.state = .running) : IsCurrent s e := by
  obtain ⟨e', he', horg, hkey, hattempt, hby⟩ := h.holders _ q hq _ r hr hrunning
  rw [hby, Option.some.injEq] at hholder
  have hsame : e'.attempt = e.attempt := h.distinct e' he' e he horg hkey hholder
  exact ⟨q, r, hq, hr, hrunning, hattempt.symm.trans hsame⟩

/-- A statement that names the holder of a claim finds no row once the claim is over. -/
theorem Fenced.count_heldBy_ne {s : Fleet} {e : Issued} {q : QueueStore} (h : Fenced s)
    (he : e ∈ s.issued) (hover : ¬ IsCurrent s e) (hq : s.tenants.get? e.org = some q) :
    q.shards.count (heldBy (e.shard.jobId, e.shard.seed) e.shard.claimedBy) ≠ 1 := by
  intro hone
  obtain ⟨r, hr, hholder, hrunning⟩ := count_heldBy.1 hone
  exact hover (h.isCurrent he hq hr hholder hrunning)

/-- In every run that grants no claim of a shard under a worker id that had an
earlier one, a message for a claim that is over changes nothing. -/
theorem late_messages_do_nothing {cfg : SchedulerConfig} {s : Fleet} {es : List FleetEvent}
    (hrun : Run (Guarded (FleetStep cfg) FreshWorker) {} es s) :
    ∀ e ∈ s.issued, ¬ IsCurrent s e → ∀ chance res,
      (heartbeat s chance e.token).2 = s ∧ (result s chance e.token res).2 = s ∧
        startEmbedded s chance e.org e.shard = s := by
  have hfenced : Fenced s :=
    hrun.invariant_of_guarded Fenced (fun _ _ _ hi hs hf => fenced_step hi hs hf) fenced_empty
  intro e he hover chance res
  have hreadable := hfenced.readable e he
  refine ⟨?_, ?_, ?_⟩
  · rcases heartbeat_cases s chance e.token with
      heq | ⟨org, job, seed, worker, q, hparse, hq, htouched, -⟩
    · exact heq
    · obtain ⟨rfl, rfl, rfl, rfl⟩ := eq_of_parseShardId hreadable hparse
      exact absurd (of_decide_eq_true htouched) (hfenced.count_heldBy_ne he hover hq)
  · rcases result_cases s chance e.token res with
      heq | ⟨org, job, seed, worker, q, state, hparse, hq, -, hset, -⟩
    · exact heq
    · obtain ⟨rfl, rfl, rfl, rfl⟩ := eq_of_parseShardId hreadable hparse
      exact absurd (of_decide_eq_true hset) (hfenced.count_heldBy_ne he hover hq)
  · rcases startEmbedded_cases s chance e.org e.shard with heq | ⟨q, hq, hset, -⟩
    · exact heq
    · exact absurd (of_decide_eq_true hset) (hfenced.count_heldBy_ne he hover hq)

/-- A worker id that had no claim of the tenant so far. -/
def claimsUnderNewId (s : Fleet) : FleetEvent → Bool
  | .advance i _ => match s.inFlight[i]? with
      | some (.claiming poll _) => s.issued.all fun e => e.shard.claimedBy ≠ poll.worker
      | _ => true
  | _ => true

theorem freshWorker_of_check (s : Fleet) (e : FleetEvent) (s' : Fleet)
    (h : claimsUnderNewId s e = true) : FreshWorker s e s' := by
  cases e with
  | advance i chance =>
    intro poll cand target rest q c q' hop _ _ e he _ _
    simp only [claimsUnderNewId, hop] at h
    exact of_decide_eq_true (List.all_eq_true.1 h e he)
  | _ => trivial

/-- A job of one shard. -/
def soloShard : JobSpec := { appDir := "/srv/shop", seeds := 1 }

/-- A shard is claimed, its lease runs out, and it is claimed again. -/
def claimTwice (first second : String) : List FleetEvent :=
  let late : Chance := { now := 200000000 }
  [.provision 1, .submit 1 soloShard "job-a" 0, .advance 0 {},
    .poll (some first) "0" ["web"], .advance 0 {}, .advance 0 {}, .advance 0 {}, .advance 0 {},
    .sweep [1], .advance 0 late, .advance 0 late, .advance 0 late,
    .poll (some second) "0" ["web"],
    .advance 0 late, .advance 0 late, .advance 0 late, .advance 0 late]

/-- The running shard of the tenant, by state and number. -/
def soloRow (s : Fleet) : Option (ShardState × Nat) :=
  (s.tenants.get? 1).bind fun q => (q.shards.get? ("job-a", 1)).map fun r => (r.state, r.attempts)

theorem not_isCurrent_of_soloRow {s : Fleet} {e : Issued} (horg : e.org = 1)
    (hkey : e.shard.key = ("job-a", 1)) (hattempt : e.attempt = 1)
    (hrow : soloRow s = some (.running, 2)) : ¬ IsCurrent s e := by
  rintro ⟨q, r, hq, hr, -, hsame⟩
  rw [horg] at hq
  rw [hkey] at hr
  rw [soloRow, hq, Option.bind_some, hr, Option.map_some, hsame, hattempt] at hrow
  simp at hrow

theorem late_messages_do_nothing_two_workers :
    ∃ s e, Run (Guarded (FleetStep .hosted) FreshWorker) {} (claimTwice "w1" "w2") s ∧
      e ∈ s.issued ∧ ¬ IsCurrent s e ∧
      (heartbeat s {} e.token).2 = s ∧ (result s {} e.token { status := "clean" }).2 = s := by
  have hread : (runOf (checked (stepFleet .hosted) claimsUnderNewId) {} (claimTwice "w1" "w2")).map
      (fun s => (s.issued.head?, soloRow s)) =
      some (some ⟨1, ⟨"job-a", 1, "w1", "web", "/srv/shop", 24⟩, 1⟩, some (.running, 2)) := by
    decide
  obtain ⟨s, hs, hread⟩ := Option.map_eq_some_iff.1 hread
  obtain ⟨hissued, hrow⟩ := Prod.mk.inj hread
  have hrun := Run.of_runOf_checked freshWorker_of_check hs
  have hmem := List.mem_of_head? hissued
  have hover : ¬ IsCurrent s ⟨1, ⟨"job-a", 1, "w1", "web", "/srv/shop", 24⟩, 1⟩ :=
    not_isCurrent_of_soloRow rfl rfl rfl hrow
  have hnothing := late_messages_do_nothing hrun _ hmem hover {} { status := "clean" }
  exact ⟨s, _, hrun, hmem, hover, hnothing.1, hnothing.2.1⟩

/-- With one worker id for both claims, the result of the first ends the second. -/
theorem late_result_ends_reclaimed_shard :
    ¬ ∀ cfg es s, Run (FleetStep cfg) {} es s → ∀ e ∈ s.issued, ¬ IsCurrent s e →
      ∀ chance res, (heartbeat s chance e.token).2 = s ∧ (result s chance e.token res).2 = s := by
  intro hall
  have hread : (runOf (stepFleet .hosted) {} (claimTwice "embedded-0" "embedded-0")).map (fun s =>
      (s.issued.head?, soloRow s, soloRow (result s {} "1:job-a:1:embedded-0"
        { status := "clean" }).2)) =
      some (some ⟨1, ⟨"job-a", 1, "embedded-0", "web", "/srv/shop", 24⟩, 1⟩,
        some (.running, 2), some (.clean, 2)) := by
    decide
  obtain ⟨s, hs, hread⟩ := Option.map_eq_some_iff.1 hread
  simp only [Prod.mk.injEq] at hread
  obtain ⟨hissued, hrow, hafter⟩ := hread
  have hover : ¬ IsCurrent s ⟨1, ⟨"job-a", 1, "embedded-0", "web", "/srv/shop", 24⟩, 1⟩ :=
    not_isCurrent_of_soloRow rfl rfl rfl hrow
  have hsame := (hall .hosted _ s (.of_runOf hs) _ (List.mem_of_head? hissued) hover {}
    { status := "clean" }).2
  have htoken : Issued.token ⟨1, ⟨"job-a", 1, "embedded-0", "web", "/srv/shop", 24⟩, 1⟩ =
      "1:job-a:1:embedded-0" := by decide
  rw [htoken] at hsame
  rw [hsame, hrow] at hafter
  cases hafter

end ReproitCloud
