import ReproitCloud.Telemetry.Storable

/-!
# The traffic of a build

`build_traffic` counts the batches of each deployed build, and the resolution engine asks it
whether a fix has seen enough real use.  A batch without errors is real use as well.

A batch is counted where it is written, and a batch that leaves nothing to write is answered
before that.  `traffic_counts_iff` says when the counter has every accepted batch: when those of
the build leave something, be it an edge, a finding or an evidence graph.
-/

namespace ReproitCloud

open Lib Protocol

/-! ## Posted batches -/

/-- A request of `post_events`. -/
structure Post where
  now : Micros
  batch : EventBatch
  /-- The key may write to the app, and the quota is not used up. -/
  allowed : Bool := true
  fault : Option Nat := none
  errorSerials : Nat := 0
  outboxSerials : Nat := 0

/-- The call of `ingest_batch` that a request comes to. -/
def Post.call (p : Post) : IngestCall :=
  ⟨p.now, p.batch.toIngest, p.fault, p.errorSerials, p.outboxSerials⟩

/-- The checks before that call let the request through. -/
def Post.reaches (A : Artifacts) (p : Post) : Bool := p.batch.validate A = .ok () && p.allowed

/-- A request, or the pruning of consumed ids. -/
inductive PostEvent where
  | post (p : Post)
  | prune (now : Micros)

def PostEvent.ingest? (A : Artifacts) : PostEvent → Option IngestEvent
  | post p => if p.reaches A then some (.call p.call) else none
  | prune now => some (.prune now)

/-- What the requests come to. -/
def received (A : Artifacts) (events : List PostEvent) : List IngestEvent :=
  events.filterMap (PostEvent.ingest? A)

/-- The requests that come to a call, with what it answered. -/
def postAnswers (A : Artifacts) (P : Platform) (t : TenantStore) :
    List PostEvent → List (Post × IngestResult)
  | [] => []
  | .post p :: rest =>
    if p.reaches A then
      (p, (ingestCall P t p.call).1) :: postAnswers A P (ingestCall P t p.call).2 rest
    else postAnswers A P t rest
  | .prune now :: rest => postAnswers A P (t.pruneProcessed now) rest

/-! ## The count -/

/-- `build_traffic.count`, nothing where there is no row. -/
def traffic (t : TenantStore) (app build : String) : Int :=
  (t.buildTraffic.get? (app, build)).elim 0 BuildTraffic.count

/-- The batch is one of a build of an app. -/
def IngestBatch.ofBuild (app build : String) (b : IngestBatch) : Bool :=
  b.appId = app && b.deployment = some build

/-- The batch has no edge, no finding and no evidence. -/
def Protocol.EventBatch.LeavesNothing (b : EventBatch) : Prop :=
  (∀ f ∈ b.frames, f.event.edge? = none ∧ f.event.error? = none) ∧ b.evidence = []

def Post.key (p : Post) : String × String := (p.batch.appId, p.batch.batchId)

/-- The request was accepted, with a batch of the build. -/
def acceptedFor (app build : String) (a : Post × IngestResult) : Bool :=
  a.2 = .accepted && a.1.batch.toIngest.ofBuild app build

/-- The ids of the accepted batches of a build. -/
def acceptedIds (A : Artifacts) (P : Platform) (t : TenantStore) (app build : String)
    (events : List PostEvent) : Finset (String × String) :=
  (((postAnswers A P t events).filter (acceptedFor app build)).map fun a => a.1.key).toFinset

section Counting

variable {A : Artifacts} {P : Platform} {t u : TenantStore} {now : Micros} {app build : String}

theorem isEmpty_toIngest {b : EventBatch} : b.toIngest.isEmpty = true ↔ b.LeavesNothing := by
  simp only [IngestBatch.isEmpty, EventBatch.toIngest, Bool.and_eq_true, List.isEmpty_iff,
    EventBatch.LeavesNothing, edges_eq_nil_iff, errors_eq_nil_iff, List.map_eq_nil_iff,
    forall_and]

theorem answers_received (events : List PostEvent) :
    answers P t (received A events) =
      (postAnswers A P t events).map fun a => (a.1.call, a.2) := by
  induction events generalizing t with
  | nil => rfl
  | cons e rest ih =>
    cases e with
    | prune now => exact ih
    | post p =>
      rw [received, List.filterMap_cons, PostEvent.ingest?, postAnswers]
      cases p.reaches A with
      | true => exact congrArg (List.cons _) ih
      | false => exact ih

theorem traffic_recordTraffic (t : TenantStore) (now : Micros) (b : IngestBatch) :
    traffic (recordTraffic t now b.appId b.deployment) app build =
      traffic t app build + if b.ofBuild app build then 1 else 0 := by
  cases hdeployment : b.deployment with
  | none => simp [recordTraffic, IngestBatch.ofBuild, hdeployment]
  | some deployed =>
    simp only [traffic, recordTraffic, Table.get?_upsert, IngestBatch.ofBuild, hdeployment]
    by_cases hkey : b.appId = app ∧ deployed = build
    · obtain ⟨rfl, rfl⟩ := hkey
      cases t.buildTraffic.get? (b.appId, deployed) <;> simp
    · have hother : ¬ (app, build) = (b.appId, deployed) := by
        rintro ⟨rfl, rfl⟩
        exact hkey ⟨rfl, rfl⟩
      simp [hkey, hother]

/-- Applying a batch counts it for its build. -/
theorem traffic_applyBatch {b : IngestBatch} (h : applyBatch P now b t = .ok u) :
    traffic u app build = traffic t app build + if b.ofBuild app build then 1 else 0 := by
  rw [← traffic_recordTraffic t now b]
  simp only [applyBatch, bind, Except.bind] at h
  split at h
  · cases h
  rename_i t1 hedges
  have hbefore := (sameReads_upsertEdges hedges).traffic
  have hafter := (sameReads_storeGraphs h).traffic
  have herrors : (if b.errors.isEmpty then t1 else insertErrors P t1 now b).buildTraffic =
      t1.buildTraffic := by
    split
    · rfl
    · exact (errorsInserted_insertErrors P t1 now b).traffic
  rw [traffic, hafter, herrors, hbefore, traffic]

/-- The committed batches of a build are what its counter has gained. -/
theorem traffic_applyCommits {cs : List IngestCommit} (h : applyCommits P t cs = .ok u) :
    traffic u app build =
      traffic t app build + (cs.filter fun c => c.batch.ofBuild app build).length := by
  induction cs generalizing t with
  | nil =>
    cases h
    simp
  | cons c cs ih =>
    change (applyCommit P t c >>= fun v => applyCommits P v cs) = .ok u at h
    cases hone : applyCommit P t c with
    | error e =>
      rw [hone] at h
      cases h
    | ok t1 =>
      rw [hone] at h
      have hfirst : traffic t1 app build =
          traffic (t.atSerials c.errorSerial c.outboxSerial) app build +
            if c.batch.ofBuild app build then 1 else 0 := traffic_applyBatch hone
      have hserials : traffic (t.atSerials c.errorSerial c.outboxSerial) app build =
          traffic t app build := rfl
      rw [ih h, hfirst, hserials, List.filter_cons]
      split
      · rw [List.length_cons]
        push_cast
        ring
      · ring

/-- The requests for a build that were written. -/
def written (a : Post × IngestResult) : Bool := !a.1.batch.toIngest.isEmpty

/-- What the counter of a build gains in a run. -/
theorem traffic_run (A : Artifacts) (P : Platform) (t : TenantStore) (app build : String)
    (events : List PostEvent) :
    traffic (storeAfter P t (received A events)) app build = traffic t app build +
      (((postAnswers A P t events).filter (acceptedFor app build)).filter written).length := by
  obtain ⟨u, hu, hfollows⟩ := exists_applyCommits (P := P) (Follows.refl t) (received A events)
  have hsame : traffic (storeAfter P t (received A events)) app build = traffic u app build := by
    rw [traffic, hfollows.same.others, traffic]
  have hcommits : ((commits P t (received A events)).filter fun c =>
      c.batch.ofBuild app build).length =
      (((postAnswers A P t events).filter (acceptedFor app build)).filter written).length := by
    have hlog := congrArg (fun l => (l.filter fun c => c.2.ofBuild app build).length)
      (commits_answers (P := P) (t := t) (received A events))
    simp only [answers_received, List.filter_map, List.filter_filter, List.length_map,
      Function.comp_def] at hlog
    rw [hlog, List.filter_filter]
    congr 2
    funext a
    cases hbuild : a.1.batch.toIngest.ofBuild app build <;>
      cases hempty : a.1.batch.toIngest.isEmpty <;>
      simp [acceptedFor, written, isCommit, Post.call, hbuild, hempty]
  rw [hsame, traffic_applyCommits hu, hcommits]

/-- No id was written twice. -/
theorem written_nodup {events : List PostEvent} (h : WithinHorizon t (received A events)) :
    ((((postAnswers A P t events).filter (acceptedFor app build)).filter written).map
      fun a => a.1.key).Nodup := by
  have hkeys : (((commits P t (received A events)).map IngestCommit.key)) =
      (((answers P t (received A events)).filter fun a => isCommit a.1 a.2).map
        fun a => a.1.key) := by
    have hlog := congrArg (List.map fun c : Micros × IngestBatch => (c.2.appId, c.2.batchId))
      (commits_answers (P := P) (t := t) (received A events))
    rw [List.map_map, List.map_map] at hlog
    exact hlog
  have hnodup := commits_nodup (P := P) h
  rw [hkeys, answers_received, List.filter_map, List.map_map] at hnodup
  refine hnodup.sublist (List.Sublist.map _ ?_)
  rw [List.filter_filter]
  refine List.monotone_filter_right _ fun a ha => ?_
  simp only [acceptedFor, written, Bool.and_eq_true] at ha
  simp only [Function.comp_apply, isCommit, Post.call, Bool.and_eq_true]
  exact ⟨ha.2.1, ha.1⟩

end Counting

/-! ## Every accepted batch is counted -/

/-- The counter of a build gains one for each accepted batch of it exactly when every accepted
batch left something to write, or its id did with another batch. -/
theorem traffic_counts_iff (A : Artifacts) (P : Platform) (t : TenantStore) (app build : String)
    (events : List PostEvent) (hhorizon : WithinHorizon t (received A events)) :
    traffic (storeAfter P t (received A events)) app build =
        traffic t app build + (acceptedIds A P t app build events).card ↔
      ∀ a ∈ postAnswers A P t events, acceptedFor app build a = true →
        a.1.batch.LeavesNothing → ∃ a' ∈ postAnswers A P t events,
          acceptedFor app build a' = true ∧ ¬ a'.1.batch.LeavesNothing ∧ a'.1.key = a.1.key := by
  let accepted := (postAnswers A P t events).filter (acceptedFor app build)
  have hnodup : ((accepted.filter written).map fun a => a.1.key).Nodup := written_nodup hhorizon
  have hsub : ((accepted.filter written).map fun a => a.1.key).toFinset ⊆
      acceptedIds A P t app build events := by
    intro key hkey
    rw [List.mem_toFinset] at hkey
    exact List.mem_toFinset.2 ((List.filter_sublist.map _).subset hkey)
  have hcard : ((accepted.filter written).map fun a => a.1.key).toFinset.card =
      (accepted.filter written).length := by
    rw [List.toFinset_card_of_nodup hnodup, List.length_map]
  have hwritten (a : Post × IngestResult) : written a = true ↔ ¬ a.1.batch.LeavesNothing := by
    rw [written, ← isEmpty_toIngest]
    simp
  have hmem (key : String × String) :
      key ∈ ((accepted.filter written).map fun a => a.1.key).toFinset ↔
        ∃ a' ∈ postAnswers A P t events, acceptedFor app build a' = true ∧
          ¬ a'.1.batch.LeavesNothing ∧ a'.1.key = key := by
    simp only [List.mem_toFinset, List.mem_map, List.mem_filter, accepted, hwritten, and_assoc]
  rw [traffic_run, add_right_inj, Nat.cast_inj, ← hcard]
  constructor
  · intro heq a ha hfor hnothing
    have hall := Finset.eq_of_subset_of_card_le hsub heq.ge
    refine (hmem a.1.key).1 ?_
    rw [hall]
    exact List.mem_toFinset.2 (List.mem_map.2 ⟨a, List.mem_filter.2 ⟨ha, hfor⟩, rfl⟩)
  · intro hall
    refine congrArg Finset.card (Finset.Subset.antisymm hsub fun key hkey => ?_)
    obtain ⟨a, ha, rfl⟩ := List.mem_map.1 (List.mem_toFinset.1 hkey)
    obtain ⟨ha, hfor⟩ := List.mem_filter.1 ha
    rw [hmem]
    by_cases hnothing : a.1.batch.LeavesNothing
    · exact hall a ha hfor hnothing
    · exact ⟨a, ha, hfor, hnothing, rfl⟩

/-- A session of build `v2` in which something was done and nothing failed. -/
def cleanSession : EventBatch where
  batchId := "batch-1"
  appId := "shop"
  deployment := some { version := some "v2" }
  frames := [{ runId := "run-1", sequence := 1, event := .action none "tap" }]

/-- A session of build `v2` that moved from one state to another, sent twice. -/
def tapTwice : List PostEvent :=
  [.post { now := 0, batch := { cleanSession with
      frames := [{ runId := "run-1", sequence := 1, event := .graphEdge "home" "tap" "cart" }] } },
   .post { now := 1, batch := { cleanSession with
      frames := [{ runId := "run-1", sequence := 1, event := .graphEdge "home" "tap" "cart" }] } }]

theorem traffic_counts_iff_tap :
    WithinHorizon .empty (received oneHash tapTwice) ∧
      traffic (storeAfter oneBucket .empty (received oneHash tapTwice)) "shop" "v2" =
        traffic .empty "shop" "v2" +
          (acceptedIds oneHash oneBucket .empty "shop" "v2" tapTwice).card := by
  have hreceived : (received oneHash tapTwice).map IngestEvent.now = [0, 1] := by decide
  have hhorizon : WithinHorizon .empty (received oneHash tapTwice) := by
    refine ⟨fun now d createdAt _ hget => ?_, fun c now d hsub _ => ?_⟩
    · simp [TenantStore.empty] at hget
    · have hlength := hsub.length_le
      have htwo : (received oneHash tapTwice).length = 2 := by
        rw [← List.length_map IngestEvent.now, hreceived]
        rfl
      rw [htwo] at hlength
      exact absurd hlength (Nat.not_succ_le_self 2)
  refine ⟨hhorizon,
    (traffic_counts_iff oneHash oneBucket .empty "shop" "v2" tapTwice hhorizon).2 ?_⟩
  intro a ha _ hnothing
  have hedges : ∀ a ∈ postAnswers oneHash oneBucket .empty tapTwice,
      a.1.batch.toIngest.isEmpty = false := by decide
  exact absurd (isEmpty_toIngest.2 hnothing) (Bool.eq_false_iff.1 (hedges a ha))

/-- A clean session is accepted and not counted. -/
theorem clean_session_is_not_counted :
    cleanSession.validate oneHash = .ok () ∧
      (postAnswers oneHash oneBucket .empty [.post { now := 0, batch := cleanSession }]).map
        Prod.snd = [.accepted] ∧
      acceptedIds oneHash oneBucket .empty "shop" "v2"
        [.post { now := 0, batch := cleanSession }] = {("shop", "batch-1")} ∧
      traffic (storeAfter oneBucket .empty (received oneHash
        [.post { now := 0, batch := cleanSession }])) "shop" "v2" = 0 := by
  refine ⟨by decide, by decide, by decide, by decide⟩

end ReproitCloud
