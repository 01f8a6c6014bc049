import ReproitCloud.Jobs.Fleet

/-!
# The routing hint names every tenant with pending work

A claim call visits only the tenants of the hint, so a tenant with a pending shard
that is not in it is never served.  The hint and the queues are different
databases.  A shard becomes pending in one of them and the mark follows in the
other, and the clear of a gather follows a count that may be old by then.

`HintComplete` is the invariant: a tenant with a pending shard is in the hint, or an
operation under way has its mark ahead.  Two kinds of step can break it.

* A clear takes a tenant out whose queue has filled since the count.
* A mark is not made: it fails, and the code only logs that, or the process dies.
  The requeue sweep does not repair this, since it marks a tenant only when it
  moved a shard itself.

`HintKept` excludes those, and `pending_tenant_is_hinted` is the result for all runs
without them.
-/

namespace ReproitCloud

open Lib

/-! ## The invariant -/

namespace Fleet

/-- The tenant has a pending shard. -/
def HasPending (s : Fleet) (org : Int64) : Prop :=
  ∃ q, s.tenants.get? org = some q ∧ 0 < pendingShardCount q

/-- One of the operations is about to mark the tenant. -/
def MarkAhead (ops : List Operation) (org : Int64) : Prop :=
  ∃ op ∈ ops, op.markAhead = some org

/-- Every tenant with a pending shard is in the hint, or about to be marked. -/
def HintComplete (s : Fleet) : Prop :=
  ∀ org, s.HasPending org → s.pendingHint.has org = true ∨ MarkAhead s.inFlight org

end Fleet

open Fleet

/-- A clear that takes effect finds nothing pending, or an operation that will mark
the tenant again. -/
def ClearsUnderCover (s : Fleet) (org : Int64) : Prop :=
  s.HasPending org → MarkAhead s.inFlight org

/-- Giving up the mark of an operation leaves nothing pending unmarked. -/
def GivesUpUnderCover (s : Fleet) (i : Nat) (org : Int64) : Prop :=
  s.HasPending org →
    s.pendingHint.has org = true ∨ MarkAhead (replaceAt s.inFlight i none) org

/-- Clears happen under cover, and so do marks that are not made. -/
def HintKept (s : Fleet) : FleetEvent → Fleet → Prop
  | .advance i chance, _ => ∀ op, s.inFlight[i]? = some op →
      (∀ poll org todo seen, op = .clearing poll org todo seen → chance.fails = false →
        ClearsUnderCover s org) ∧
      (∀ org, op.markAhead = some org → chance.fails = true → GivesUpUnderCover s i org)
  | .abandon i, _ => ∀ op org, s.inFlight[i]? = some op → op.markAhead = some org →
      GivesUpUnderCover s i org
  | _, _ => True

/-! ## What keeps a queue from filling -/

section Pending

variable {s s' : Fleet} {q q' : QueueStore} {org : Int64}

theorem hasPending_of_tenants (h : s'.tenants = s.tenants) (hp : s'.HasPending org) :
    s.HasPending org := by
  obtain ⟨q, hq, hpos⟩ := hp
  exact ⟨q, h ▸ hq, hpos⟩

/-- A write that leaves no more pending shards makes no tenant pending. -/
theorem hasPending_of_setTenant {k : Int64} (hq : s.tenants.get? k = some q)
    (hle : pendingShardCount q' ≤ pendingShardCount q) (hs' : s'.tenants = (s.setTenant k q').tenants)
    (hp : s'.HasPending org) : s.HasPending org := by
  obtain ⟨r, hr, hpos⟩ := hp
  rw [hs', get?_setTenant hq] at hr
  split at hr
  · rename_i hk
    subst hk
    cases hr
    exact ⟨q, hq, by omega⟩
  · exact ⟨r, hr, hpos⟩

theorem pending_claimShard_le {locked : List ShardKey} {now : Micros} {worker : String}
    {capabilities : List String} {job : Option String} {c : ClaimedShard}
    (h : claimShard q locked now worker capabilities job = some (c, q')) :
    pendingShardCount q' ≤ pendingShardCount q := by
  obtain ⟨s, -, -, -, -, -, -, rfl⟩ := claimShard_spec h
  exact pendingShardCount_updateShards_le fun _ _ _ _ hf => by cases hf

theorem pending_touchShard_le (q : QueueStore) (now : Micros) (job : String) (seed : UInt32)
    (worker : String) :
    pendingShardCount (touchShard q now job seed worker).2 ≤ pendingShardCount q :=
  pendingShardCount_updateShards_le fun _ _ _ _ hf => hf

theorem pending_setShard_le (q : QueueStore) (job : String) (seed : UInt32) (worker : String)
    {state : ShardState} (hstate : state ≠ .pending) (report : Option String) (durationS : UInt64) :
    pendingShardCount (setShard q job seed worker state report durationS).2 ≤
      pendingShardCount q :=
  pendingShardCount_updateShards_le fun _ _ _ _ hf => absurd hf hstate

end Pending

/-! ## Steps keep the hint complete -/

section Steps

variable {cfg : SchedulerConfig} {s s' : Fleet}

/-- A tenant that is pending after a call of an operation was so before, or the
operation goes on to mark it. -/
theorem hasPending_stepOperation {chance : Chance} {op : Operation} {org : Int64}
    (h : (stepOperation cfg s chance op).1.HasPending org) :
    s.HasPending org ∨
      ∃ next, (stepOperation cfg s chance op).2 = some next ∧ next.markAhead = some org := by
  have heffect := operationEffect_step cfg s chance op
  generalize (stepOperation cfg s chance op).1 = t at heffect h
  cases heffect with
  | nothing => exact .inl h
  | mark => exact .inl (hasPending_of_tenants rfl h)
  | clear => exact .inl (hasPending_of_tenants rfl h)
  | @requeue k todo q hq hfails hmoved =>
    by_cases hk : org = k
    · subst hk
      exact .inr ⟨_, stepOperation_requeue cfg hq hfails hmoved, rfl⟩
    · obtain ⟨r, hr, hpos⟩ := h
      rw [get?_setTenant hq, if_neg hk] at hr
      exact .inl ⟨r, hr, hpos⟩
  | claim hq hclaim =>
    exact .inl (hasPending_of_setTenant hq (pending_claimShard_le hclaim) rfl h)
  | @finish k job q hq =>
    have hle : pendingShardCount (finalizeJob q chance.now job 0 0) ≤ pendingShardCount q :=
      Nat.le_refl _
    exact .inl (hasPending_of_setTenant hq hle rfl h)

/-- A tenant of the hint stays in it, unless a clear takes it out. -/
theorem has_stepOperation (cfg : SchedulerConfig) (chance : Chance) (op : Operation) {org : Int64}
    (h : s.pendingHint.has org = true) :
    (stepOperation cfg s chance op).1.pendingHint.has org = true ∨
      ∃ poll todo seen, op = .clearing poll org todo seen ∧ chance.fails = false := by
  have heffect := operationEffect_step cfg s chance op
  generalize (stepOperation cfg s chance op).1 = t at heffect ⊢
  cases heffect with
  | nothing => exact .inl h
  | mark =>
    left
    rw [has_markTenantPending, h, ite_self]
  | @clear poll k todo seen hfails =>
    by_cases hk : org = k
    · subst hk
      exact .inr ⟨poll, todo, seen, rfl, hfails⟩
    · left
      rw [has_clearTenantPending, if_neg hk, h]
  | requeue => exact .inl h
  | claim => exact .inl h
  | finish => exact .inl h

/-- A mark that is made puts its tenant in the hint. -/
theorem has_stepOperation_of_mark {chance : Chance} {op : Operation} {org : Int64}
    (hmark : op.markAhead = some org) (hfails : chance.fails = false) :
    (stepOperation cfg s chance op).1.pendingHint.has org = true := by
  have hstep : (stepOperation cfg s chance op).1 = s.markTenantPending chance.now org := by
    cases op with
    | submitted k =>
      cases hmark
      simp [stepOperation, hfails]
    | remarking k todo =>
      cases hmark
      simp [stepOperation, hfails]
    | _ => cases hmark
  rw [hstep, has_markTenantPending, if_pos rfl]

theorem markAhead_append {ops more : List Operation} {org : Int64} (h : MarkAhead ops org) :
    MarkAhead (ops ++ more) org := by
  obtain ⟨op, hop, hmark⟩ := h
  exact ⟨op, List.mem_append_left _ hop, hmark⟩

/-- A change of the queues that makes no tenant pending, with no operation gone. -/
theorem hintComplete_of_frame (h : s.HintComplete) (hhint : s'.pendingHint = s.pendingHint)
    (hops : ∃ more, s'.inFlight = s.inFlight ++ more)
    (hpending : ∀ org, s'.HasPending org → s.HasPending org) : s'.HintComplete := by
  intro org hp
  obtain ⟨more, hmore⟩ := hops
  rw [hhint, hmore]
  rcases h org (hpending org hp) with hhas | hmark
  · exact .inl hhas
  · exact .inr (markAhead_append hmark)

theorem hintComplete_advance {i : Nat} {chance : Chance} (h : s.HintComplete)
    (hstep : stepFleet cfg s (.advance i chance) = some s')
    (hkept : HintKept s (.advance i chance) s') : s'.HintComplete := by
  simp only [stepFleet, Option.map_eq_some_iff] at hstep
  obtain ⟨op, hop, rfl⟩ := hstep
  obtain ⟨hclear, hgive⟩ := hkept op hop
  intro org hp
  -- the operations that go on as they are, and the one that moved
  have hothers : ∀ k, MarkAhead (replaceAt s.inFlight i none) k →
      MarkAhead (replaceAt s.inFlight i (stepOperation cfg s chance op).2) k := by
    rintro k ⟨o, ho, hmark⟩
    exact ⟨o, mem_replaceAt.2 (.inl ho), hmark⟩
  have hp' : (stepOperation cfg s chance op).1.HasPending org := hasPending_of_tenants rfl hp
  clear hp
  rcases hasPending_stepOperation hp' with hp | ⟨next, hnext, hmark⟩
  · rcases h org hp with hhas | ⟨o, ho, hmark⟩
    · rcases has_stepOperation cfg chance op hhas with
        hhas | ⟨poll, todo, seen, rfl, hfails⟩
      · exact .inl hhas
      · obtain ⟨o, ho, hmark⟩ := hclear poll org todo seen rfl hfails hp
        rcases (mem_iff_replaceAt hop).1 ho with ho | rfl
        · exact .inr (hothers org ⟨o, ho, hmark⟩)
        · cases hmark
    · rcases (mem_iff_replaceAt hop).1 ho with ho | rfl
      · exact .inr (hothers org ⟨o, ho, hmark⟩)
      · cases hfails : chance.fails with
        | false => exact .inl (has_stepOperation_of_mark hmark hfails)
        | true =>
          rcases hgive org hmark hfails hp with hhas | hmark'
          · rcases has_stepOperation cfg chance o hhas with
              hhas | ⟨-, -, -, -, hnot⟩
            · exact .inl hhas
            · rw [hfails] at hnot
              cases hnot
          · exact .inr (hothers org hmark')
  · exact .inr ⟨next, mem_replaceAt.2 (.inr hnext), hmark⟩

theorem hintComplete_step {e : FleetEvent} (h : s.HintComplete)
    (hstep : stepFleet cfg s e = some s') (hkept : HintKept s e s') : s'.HintComplete := by
  cases e with
  | provision k =>
    simp only [stepFleet, Option.map_eq_some_iff] at hstep
    obtain ⟨tenants, hins, rfl⟩ := hstep
    refine hintComplete_of_frame h rfl ⟨[], (List.append_nil _).symm⟩ ?_
    rintro org ⟨q, hq, hpos⟩
    rw [Table.get?_insert? hins] at hq
    split at hq
    · cases hq
      exact absurd hpos (by decide)
    · exact ⟨q, hq, hpos⟩
  | submit k spec id now =>
    simp only [stepFleet] at hstep
    split at hstep
    · cases hstep
    · simp only [Option.bind_eq_some_iff, Option.map_eq_some_iff] at hstep
      obtain ⟨q, hq, q', -, rfl⟩ := hstep
      rintro org ⟨r, hr, hpos⟩
      by_cases hk : org = k
      · subst hk
        exact .inr ⟨_, List.mem_append_right _ (List.mem_singleton_self _), rfl⟩
      · have hr' : (s.setTenant k q').tenants.get? org = some r := hr
        rw [get?_setTenant hq, if_neg hk] at hr'
        rcases h org ⟨r, hr', hpos⟩ with hhas | hmark
        · exact .inl hhas
        · exact .inr (markAhead_append hmark)
  | poll workerId uuid capabilities =>
    simp only [stepFleet] at hstep
    split at hstep
    · cases hstep
      exact hintComplete_of_frame h rfl ⟨_, rfl⟩ fun org hp => hp
    · cases hstep
  | sweep orgs =>
    cases hstep
    exact hintComplete_of_frame h rfl ⟨_, rfl⟩ fun org hp => hp
  | advance i chance => exact hintComplete_advance h hstep hkept
  | abandon i =>
    simp only [stepFleet] at hstep
    split at hstep
    · rename_i hi
      cases hstep
      have hop := List.getElem?_eq_getElem hi
      intro org hp
      rcases h org hp with hhas | ⟨o, ho, hmark⟩
      · exact .inl hhas
      · rcases (mem_iff_replaceAt hop).1 ho with ho | rfl
        · exact .inr ⟨o, ho, hmark⟩
        · exact hkept _ org hop hmark hp
    · cases hstep
  | heartbeat i chance =>
    simp only [stepFleet, Option.map_eq_some_iff] at hstep
    obtain ⟨e, -, rfl⟩ := hstep
    rcases heartbeat_cases s chance e.token with
      heq | ⟨org, job, seed, worker, q, -, hq, -, heq⟩
    · rw [heq]
      exact h
    · rw [heq]
      exact hintComplete_of_frame h rfl ⟨[], (List.append_nil _).symm⟩ fun org hp =>
        hasPending_of_setTenant hq (pending_touchShard_le ..) rfl hp
  | result i chance res =>
    simp only [stepFleet, Option.map_eq_some_iff] at hstep
    obtain ⟨e, -, rfl⟩ := hstep
    rcases result_cases s chance e.token res with
      heq | ⟨org, job, seed, worker, q, state, -, hq, hterminal, -, heq⟩
    · rw [heq]
      exact h
    · have hstate : state ≠ .pending := by
        rintro rfl
        cases hterminal
      rw [heq]
      exact hintComplete_of_frame h rfl ⟨_, rfl⟩ fun org hp =>
        hasPending_of_setTenant hq (pending_setShard_le _ _ _ _ hstate _ _) rfl hp
  | start i chance =>
    simp only [stepFleet, Option.map_eq_some_iff] at hstep
    obtain ⟨e, -, rfl⟩ := hstep
    rcases startEmbedded_cases s chance e.org e.shard with
      heq | ⟨q, hq, -, heq⟩
    · rw [heq]
      exact h
    · have hstate : ShardState.running ≠ .pending := by decide
      rw [heq]
      exact hintComplete_of_frame h rfl ⟨[], (List.append_nil _).symm⟩ fun org hp =>
        hasPending_of_setTenant hq (pending_setShard_le _ _ _ _ hstate _ _) rfl hp

end Steps

/-! ## Runs -/

theorem hintComplete_empty : HintComplete {} := by
  rintro org ⟨q, hq, -⟩
  cases hq

/-- In every run whose clears and lost marks happen under cover, whenever no
operation is under way every tenant with a pending shard is in the hint. -/
theorem pending_tenant_is_hinted {cfg : SchedulerConfig} {s : Fleet} {es : List FleetEvent}
    (hrun : Run (Guarded (FleetStep cfg) HintKept) {} es s) (hquiet : s.inFlight = []) :
    ∀ org, s.HasPending org → s.pendingHint.has org = true := by
  have hcomplete : s.HintComplete :=
    hrun.invariant_of_guarded HintComplete (fun _ _ _ hi hs hk => hintComplete_step hi hs hk)
      hintComplete_empty
  intro org hp
  rcases hcomplete org hp with hhas | ⟨op, hop, -⟩
  · exact hhas
  · rw [hquiet] at hop
    cases hop

/-- A job of one shard. -/
def oneSeed : JobSpec := { appDir := "/srv/shop", seeds := 1 }

/-- A submission with both of its steps. -/
def submitAndMark : List FleetEvent :=
  [.provision 1, .submit 1 oneSeed "job-a" 0, .advance 0 {}]

/-- A step that neither clears nor gives up a mark. -/
def keepsMarks (s : Fleet) : FleetEvent → Bool
  | .advance i chance => !chance.fails && match s.inFlight[i]? with
      | some (.clearing ..) => false
      | _ => true
  | .abandon _ => false
  | _ => true

theorem hintKept_of_keepsMarks (s : Fleet) (e : FleetEvent) (s' : Fleet)
    (h : keepsMarks s e = true) : HintKept s e s' := by
  cases e with
  | advance i chance =>
    intro op hop
    simp only [keepsMarks, hop, Bool.and_eq_true, Bool.not_eq_true'] at h
    refine ⟨?_, fun org _ hfails => ?_⟩
    · rintro poll org todo seen rfl
      cases h.2
    · rw [h.1] at hfails
      cases hfails
  | abandon i => cases h
  | _ => trivial

theorem pending_tenant_is_hinted_after_submit :
    ∃ s, Run (Guarded (FleetStep .hosted) HintKept) {} submitAndMark s ∧ s.HasPending 1 ∧
      s.pendingHint.has 1 = true := by
  have hread : (runOf (checked (stepFleet .hosted) keepsMarks) {} submitAndMark).map (fun s =>
      (s.inFlight, (s.tenants.get? 1).map pendingShardCount)) = some ([], some 1) := by decide
  obtain ⟨s, hs, hread⟩ := Option.map_eq_some_iff.1 hread
  rw [Prod.mk.injEq] at hread
  obtain ⟨q, hq, hone⟩ := Option.map_eq_some_iff.1 hread.2
  have hpending : s.HasPending 1 := ⟨q, hq, by omega⟩
  have hrun := Run.of_runOf_checked hintKept_of_keepsMarks hs
  exact ⟨s, hrun, hpending, pending_tenant_is_hinted hrun hread.1 1 hpending⟩

/-- A gather that counts zero, a whole submission, then the clear of the gather. -/
def staleClear : List FleetEvent :=
  [.provision 1, .submit 1 oneSeed "job-a" 0, .advance 0 {},
    .poll (some "w1") "0" ["web"], .advance 0 {}, .advance 0 {}, .advance 0 {}, .advance 0 {},
    .poll (some "w2") "0" ["web"], .advance 0 {}, .advance 0 {},
    .submit 1 oneSeed "job-b" 0, .advance 1 {},
    .advance 0 {}, .advance 0 {}, .advance 0 {}]

/-- After it nothing is under way, a shard is pending and the hint is empty. -/
theorem stale_clear_strands_job :
    ¬ ∀ cfg es s, Run (FleetStep cfg) {} es s → s.inFlight = [] →
      ∀ org, s.HasPending org → s.pendingHint.has org = true := by
  intro hall
  have hread : (runOf (stepFleet .hosted) {} staleClear).map (fun s =>
      (s.inFlight, (s.tenants.get? 1).map pendingShardCount, s.pendingHint.has 1)) =
      some ([], some 1, false) := by decide
  obtain ⟨s, hs, hread⟩ := Option.map_eq_some_iff.1 hread
  simp only [Prod.mk.injEq] at hread
  obtain ⟨hquiet, hcount, hhint⟩ := hread
  obtain ⟨q, hq, hone⟩ := Option.map_eq_some_iff.1 hcount
  have hhas := hall .hosted staleClear s (.of_runOf hs) hquiet 1 ⟨q, hq, by omega⟩
  rw [hhint] at hhas
  cases hhas

end ReproitCloud
