import ReproitCloud.Lib.Transaction
import ReproitCloud.Telemetry.Consistency

/-!
# A batch is applied once

`ingest_batch` sends its statements in one transaction.  `ingestStatements` lists them in the
order they are sent, each with what it writes, and a call may fail at any of them.  Two things
outlive a call that fails: the serials its statements drew are gone.  They are in no row, so
they are left out of `SameTelemetry`, which compares everything else that a batch writes.

A call is committed when its transaction is, whether or not its caller hears of it.  A caller
that does not hear repeats a committed batch, and its next call finds the batch id consumed.

The ids are kept for a time.  `prune` forgets those that were consumed longer ago than
`retryHorizon`, and `WithinHorizon` says that nobody repeats a batch after that.
-/

namespace ReproitCloud

open Lib

/-! ## The statements -/

/-- What `enqueueIssues` makes of the outbox and its serial. -/
def enqueuedIssues (now : Micros) (app : String) (buckets : List String)
    (outbox : Table (String × String × String) OutboxRow × Nat) :
    Table (String × String × String) OutboxRow × Nat :=
  (buckets.dedup.insertionSort (· ≤ ·)).foldl
    (fun o bucket => (o.1.insertIgnore (app, bucket, "file-issue") ⟨o.2, 0, now⟩, o.2 + 1)) outbox

/-- The node rows of `store_graphs`. -/
def insertNodes (t : TenantStore) (app : String) (evidence : List EvidenceGraph) : TenantStore :=
  { t with
    artifactNodes := (evidence.flatMap EvidenceGraph.nodes).foldl
      (fun ns n => ns.insertIgnore (app, n.id) n) t.artifactNodes }

/-- The root rows of `store_graphs`. -/
def insertRoots (app : String) (evidence : List EvidenceGraph) :
    Statement SqlError TenantStore := fun t =>
  if evidence.all fun g => t.artifactNodes.has (app, g.root) then
    .ok { t with
      artifactRoots := evidence.foldl (fun rs g => rs.insertIgnore (app, g.runId, g.root) ())
        t.artifactRoots }
  else .error (.foreignKey "artifact_roots")

/-- The id of a batch is consumed. -/
def consumeBatch (now : Micros) (b : IngestBatch) (t : TenantStore) : TenantStore :=
  { t with processedBatches := t.processedBatches.insertIgnore (b.appId, b.batchId) now }

/-- The error rows and the summaries, which are one statement. -/
def insertErrorRows (P : Platform) (now : Micros) (b : IngestBatch) (t : TenantStore) :
    TenantStore :=
  let new := b.errors.map (newError P now b.appId)
  { t with
    errors := t.errors.insert new
    bucketSummaries := upsertSummaries t.bucketSummaries b.appId (batchBuckets P b)
      (numbered t.errors.nextId new) }

/-- The traffic statement, for a batch of a known deployment. -/
def trafficStatements (now : Micros) (b : IngestBatch) : List (Statement SqlError TenantStore) :=
  if b.deployment.isSome then [fun t => .ok (recordTraffic t now b.appId b.deployment)] else []

/-- The edge statement, for a batch with edges. -/
def edgeStatements (b : IngestBatch) : List (Statement SqlError TenantStore) :=
  if b.edges.isEmpty then [] else [fun t => upsertEdges t b.appId b.edges]

/-- The statements of a batch with errors. -/
def errorStatements (P : Platform) (now : Micros) (b : IngestBatch) :
    List (Statement SqlError TenantStore) :=
  [fun t => .ok (insertErrorRows P now b t)] ++
  (if (batchAppDimensions P b).isEmpty then [] else
    [fun t => .ok { t with
      appContextCounts := t.appContextCounts.bumpGroups (batchAppDimensions P b) },
     fun t => .ok { t with
      bucketContextCounts := t.bucketContextCounts.bumpGroups (batchBucketDimensions P b) }]) ++
  [fun t => .ok (enqueueIssues t now b.appId (batchBuckets P b)),
   fun t => .ok { t with bucketWindows := t.bucketWindows.bumpGroups (batchWindows P now b) }]

/-- The statements of `store_graphs`, for a batch with nodes. -/
def graphStatements (b : IngestBatch) : List (Statement SqlError TenantStore) :=
  if (b.evidence.flatMap EvidenceGraph.nodes).isEmpty then [] else
    [fun t => .ok (insertNodes t b.appId b.evidence), insertRoots b.appId b.evidence]

/-- What a new batch writes after its id is consumed. -/
def batchStatements (P : Platform) (now : Micros) (b : IngestBatch) :
    List (Statement SqlError TenantStore) :=
  trafficStatements now b ++ edgeStatements b ++
    (if b.errors.isEmpty then [] else errorStatements P now b) ++ graphStatements b

/-- The statements of a call, from `BEGIN` to `COMMIT`, or to the `ROLLBACK` of a duplicate. -/
def ingestStatements (P : Platform) (t : TenantStore) (now : Micros) (b : IngestBatch) :
    List (Statement SqlError TenantStore) :=
  if t.processedBatches.has (b.appId, b.batchId) then [.ok, .ok, .ok]
  else [.ok, fun t => .ok (consumeBatch now b t)] ++ batchStatements P now b ++ [.ok]

/-! ## Applying a batch -/

/-- The whole effect of a batch, whatever ids were consumed. -/
def applyBatch (P : Platform) (now : Micros) (b : IngestBatch) :
    Statement SqlError TenantStore := fun t => do
  let t := recordTraffic t now b.appId b.deployment
  let t ← upsertEdges t b.appId b.edges
  let t := if b.errors.isEmpty then t else insertErrors P t now b
  storeGraphs t b.appId b.evidence

section Applying

variable (P : Platform) (now : Micros) (b : IngestBatch) (t : TenantStore)

theorem enqueueIssues_eq (app : String) (buckets : List String) :
    enqueueIssues t now app buckets =
      { t with
        integrationOutbox :=
          (enqueuedIssues now app buckets (t.integrationOutbox, t.nextOutboxId)).1
        nextOutboxId :=
          (enqueuedIssues now app buckets (t.integrationOutbox, t.nextOutboxId)).2 } := by
  unfold enqueueIssues enqueuedIssues
  generalize buckets.dedup.insertionSort (· ≤ ·) = bs
  induction bs generalizing t with
  | nil => rfl
  | cons bucket bs ih =>
    rw [List.foldl_cons, ih]
    rfl

/-- Without dimensions there is nothing to count. -/
theorem batchBucketDimensions_eq_nil (h : batchAppDimensions P b = []) :
    batchBucketDimensions P b = [] := by
  rw [batchAppDimensions, List.flatMap_eq_nil_iff] at h
  rw [batchBucketDimensions, List.flatMap_eq_nil_iff]
  intro record hrecord
  rw [List.map_eq_nil_iff]
  exact List.map_eq_nil_iff.1 (h record hrecord)

theorem runAll_errorStatements :
    runAll (errorStatements P now b) t = .ok (insertErrors P t now b) := by
  simp only [insertErrors, enqueueIssues_eq]
  by_cases hdims : batchAppDimensions P b = []
  · have hbucket := batchBucketDimensions_eq_nil P b hdims
    simp only [errorStatements, hdims, hbucket, enqueueIssues_eq]
    rfl
  · simp only [errorStatements, List.isEmpty_iff, hdims, enqueueIssues_eq]
    rfl

theorem runAll_trafficStatements :
    runAll (trafficStatements now b) t = .ok (recordTraffic t now b.appId b.deployment) := by
  rw [trafficStatements]
  cases b.deployment <;> rfl

theorem runAll_edgeStatements : runAll (edgeStatements b) t = upsertEdges t b.appId b.edges := by
  rw [edgeStatements]
  cases b.edges with
  | nil => rfl
  | cons e es => exact runAll_singleton

theorem runAll_graphStatements :
    runAll (graphStatements b) t = storeGraphs t b.appId b.evidence := by
  rw [graphStatements, storeGraphs]
  by_cases hnone : (b.evidence.flatMap EvidenceGraph.nodes).isEmpty
  · rw [if_pos hnone, if_pos hnone, runAll_nil]
  · rw [if_neg hnone, if_neg hnone, runAll_write, runAll_singleton]
    rfl

/-- The statements of a batch apply it. -/
theorem runAll_batchStatements : runAll (batchStatements P now b) t = applyBatch P now b t := by
  have herrors (u : TenantStore) :
      runAll (if b.errors.isEmpty then [] else errorStatements P now b) u =
        .ok (if b.errors.isEmpty then u else insertErrors P u now b) := by
    split
    · rfl
    · exact runAll_errorStatements P now b u
  rw [batchStatements, runAll_append, runAll_append, runAll_append, runAll_trafficStatements]
  show (runAll (edgeStatements b) _ >>= _) >>= _ = _
  rw [runAll_edgeStatements, applyBatch]
  cases upsertEdges (recordTraffic t now b.appId b.deployment) b.appId b.edges with
  | error e => rfl
  | ok u =>
    show (runAll _ u >>= _) = _
    rw [herrors]
    exact runAll_graphStatements b _

end Applying

/-! ## Calls -/

/-- A call of `ingest_batch`. -/
structure IngestCall where
  now : Micros
  batch : IngestBatch
  /-- The number of the statement that fails, if one does. -/
  fault : Option Nat := none
  /-- The serials that are gone when the call is rolled back. -/
  errorSerials : Nat := 0
  outboxSerials : Nat := 0

def IngestCall.key (c : IngestCall) : String × String := (c.batch.appId, c.batch.batchId)

/-- What a call answers: `Ok(false)`, `Ok(true)` or an error. -/
inductive IngestResult where
  | accepted
  | deduped
  | failed
deriving DecidableEq, Repr

/-- A batch that writes nothing, not even its id. -/
def IngestBatch.isEmpty (b : IngestBatch) : Bool :=
  b.edges.isEmpty && b.errors.isEmpty && b.evidence.isEmpty

/-- The serial of the errors moved on. -/
def ErrorTable.skip (t : ErrorTable) (n : Nat) : ErrorTable where
  rows := t.rows
  nextId := t.nextId + n
  sorted := t.sorted
  bounded := fun r hr => Nat.lt_of_lt_of_le (t.bounded r hr) (Nat.le_add_right _ _)

/-- The serials of the store moved on. -/
def TenantStore.skipSerials (t : TenantStore) (errors outbox : Nat) : TenantStore :=
  { t with errors := t.errors.skip errors, nextOutboxId := t.nextOutboxId + outbox }

/-- `ingest_batch` with the answer it gives. -/
def ingestCall (P : Platform) (t : TenantStore) (c : IngestCall) : IngestResult × TenantStore :=
  if c.batch.isEmpty then (.accepted, t)
  else match transact (ingestStatements P t c.now c.batch) c.fault t with
    | some t' => (if t.processedBatches.has c.key then .deduped else .accepted, t')
    | none => (.failed, t.skipSerials c.errorSerials c.outboxSerials)

/-- What a call can do to the store. -/
inductive Called (P : Platform) (t : TenantStore) (c : IngestCall) :
    IngestResult → TenantStore → Prop where
  | nothing (hempty : c.batch.isEmpty = true) : Called P t c .accepted t
  | duplicate (hbatch : c.batch.isEmpty = false) (hknown : t.processedBatches.has c.key = true) :
      Called P t c .deduped t
  | committed (hbatch : c.batch.isEmpty = false) (hfresh : t.processedBatches.has c.key = false)
      {t' : TenantStore}
      (happlied : applyBatch P c.now c.batch (consumeBatch c.now c.batch t) = .ok t') :
      Called P t c .accepted t'
  | rolledBack (hbatch : c.batch.isEmpty = false) :
      Called P t c .failed (t.skipSerials c.errorSerials c.outboxSerials)

section Calls

variable {P : Platform} {t t' : TenantStore} {now : Micros} {b : IngestBatch} {c : IngestCall}

theorem runAll_ingestStatements_known (hknown : t.processedBatches.has (b.appId, b.batchId) = true) :
    runAll (ingestStatements P t now b) t = .ok t := by
  rw [ingestStatements, if_pos hknown]
  rfl

theorem runAll_ingestStatements_fresh
    (hfresh : t.processedBatches.has (b.appId, b.batchId) = false) :
    runAll (ingestStatements P t now b) t = applyBatch P now b (consumeBatch now b t) := by
  rw [ingestStatements, if_neg (by simp [hfresh]), runAll_append, runAll_append]
  show runAll (batchStatements P now b) (consumeBatch now b t) >>= _ = _
  rw [runAll_batchStatements]
  cases applyBatch P now b (consumeBatch now b t) <;> rfl

theorem ingestCall_cases (P : Platform) (t : TenantStore) (c : IngestCall) :
    Called P t c (ingestCall P t c).1 (ingestCall P t c).2 := by
  unfold ingestCall
  split
  · rename_i hempty
    exact .nothing hempty
  · rename_i hbatch
    rw [Bool.not_eq_true] at hbatch
    split
    · rename_i t' hcommitted
      have hrun := runAll_of_transact hcommitted
      cases hknown : t.processedBatches.has c.key with
      | true =>
        rw [runAll_ingestStatements_known hknown] at hrun
        cases hrun
        exact .duplicate hbatch hknown
      | false =>
        rw [runAll_ingestStatements_fresh hknown] at hrun
        exact .committed hbatch hknown hrun
    · exact .rolledBack hbatch

/-- The transaction of `ingestBatch`, with the part that applies the batch named. -/
theorem ingestBatch_eq : ingestBatch P t now b =
    if b.isEmpty then .ok (false, t)
    else if t.processedBatches.has (b.appId, b.batchId) then .ok (true, t)
    else (applyBatch P now b (consumeBatch now b t)).map (false, ·) := by
  unfold ingestBatch
  split
  · rename_i hempty
    rw [if_pos (show b.isEmpty = true from hempty)]
    rfl
  · rename_i hbatch
    rw [if_neg (show ¬ b.isEmpty = true from hbatch)]
    split
    · rfl
    · rw [applyBatch]
      simp only [consumeBatch]
      cases upsertEdges _ b.appId b.edges with
      | error e => rfl
      | ok u =>
        show (storeGraphs _ b.appId b.evidence >>= _) = (storeGraphs _ b.appId b.evidence).map _
        cases storeGraphs _ b.appId b.evidence <;> rfl

/-- A call at which nothing fails is `ingestBatch`. -/
theorem ingestCall_eq (hfault : c.fault = none) :
    ingestCall P t c = match ingestBatch P t c.now c.batch with
      | .ok (dup, t') => (if dup then .deduped else .accepted, t')
      | .error _ => (.failed, t.skipSerials c.errorSerials c.outboxSerials) := by
  rw [ingestCall, ingestBatch_eq, hfault, transact_none]
  cases c.batch.isEmpty with
  | true => rfl
  | false =>
    cases hknown : t.processedBatches.has c.key with
    | true =>
      have hkey : t.processedBatches.has (c.batch.appId, c.batch.batchId) = true := hknown
      rw [runAll_ingestStatements_known hkey, hkey]
      rfl
    | false =>
      have hkey : t.processedBatches.has (c.batch.appId, c.batch.batchId) = false := hknown
      rw [runAll_ingestStatements_fresh hkey, hkey]
      cases applyBatch P c.now c.batch (consumeBatch c.now c.batch t) <;> rfl

end Calls

/-! ## Runs -/

/-- The time for which a consumed id is kept. -/
def retryHorizon : Int := 48 * microsPerHour

/-- What happens to a tenant's ids: a call, or `prune_processed_batches`. -/
inductive IngestEvent where
  | call (c : IngestCall)
  | prune (now : Micros)

def IngestEvent.now : IngestEvent → Micros
  | call c => c.now
  | prune now => now

/-- `prune_processed_batches`. -/
def TenantStore.pruneProcessed (t : TenantStore) (now : Micros) : TenantStore :=
  { t with processedBatches :=
      t.processedBatches.delete fun _ createdAt => createdAt < now - retryHorizon }

def ingestEvent (P : Platform) (t : TenantStore) : IngestEvent → TenantStore
  | .call c => (ingestCall P t c).2
  | .prune now => t.pruneProcessed now

/-- The store after a sequence of calls. -/
def storeAfter (P : Platform) (t : TenantStore) (events : List IngestEvent) : TenantStore :=
  events.foldl (ingestEvent P) t

/-- The calls of a sequence with what they answered. -/
def answers (P : Platform) (t : TenantStore) : List IngestEvent → List (IngestCall × IngestResult)
  | [] => []
  | .call c :: rest =>
    (c, (ingestCall P t c).1) :: answers P (ingestEvent P t (.call c)) rest
  | .prune now :: rest => answers P (ingestEvent P t (.prune now)) rest

/-- A batch that was committed, with the instant of its transaction and the serials it began at. -/
structure IngestCommit where
  now : Micros
  batch : IngestBatch
  errorSerial : Nat
  outboxSerial : Nat

def IngestCommit.key (c : IngestCommit) : String × String := (c.batch.appId, c.batch.batchId)

/-- The call was answered as accepted and had something to write. -/
def isCommit (c : IngestCall) (answer : IngestResult) : Bool :=
  answer = .accepted && !c.batch.isEmpty

/-- The batches that a sequence committed, in the order of their transactions. -/
def commits (P : Platform) (t : TenantStore) : List IngestEvent → List IngestCommit
  | [] => []
  | .call c :: rest =>
    (if isCommit c (ingestCall P t c).1 then
      [⟨c.now, c.batch, t.errors.nextId, t.nextOutboxId⟩] else []) ++
    commits P (ingestEvent P t (.call c)) rest
  | .prune now :: rest => commits P (ingestEvent P t (.prune now)) rest

/-- The serials of the store, where these are further on. -/
def TenantStore.atSerials (t : TenantStore) (errors outbox : Nat) : TenantStore :=
  t.skipSerials (errors - t.errors.nextId) (outbox - t.nextOutboxId)

/-- A committed batch is applied at its serials. -/
def applyCommit (P : Platform) (t : TenantStore) (c : IngestCommit) :
    Except SqlError TenantStore :=
  applyBatch P c.now c.batch (t.atSerials c.errorSerial c.outboxSerial)

/-- The committed batches are applied one after the other. -/
def applyCommits (P : Platform) (t : TenantStore) (cs : List IngestCommit) :
    Except SqlError TenantStore :=
  cs.foldlM (applyCommit P) t

/-- Two stores with the same tables, but for the consumed ids and the serials. -/
structure SameTelemetry (t u : TenantStore) : Prop where
  rows : t.errors.rows = u.errors.rows
  others : t = { u with
    errors := t.errors
    processedBatches := t.processedBatches
    nextOutboxId := t.nextOutboxId }

/-- Nobody repeats a batch whose id was forgotten.  When a prune comes before a call, the id of the
call was consumed within the horizon of the prune, or not at all. -/
structure WithinHorizon (t : TenantStore) (events : List IngestEvent) : Prop where
  known : ∀ now d createdAt, [.prune now, .call d].Sublist events →
    t.processedBatches.get? d.key = some createdAt → now ≤ createdAt + retryHorizon
  repeated : ∀ c now d, [.call c, .prune now, .call d].Sublist events → d.key = c.key →
    now ≤ c.now + retryHorizon

/-! ## What applying a batch reads -/

section Reads

variable {P : Platform} {t u : TenantStore} {now : Micros} {b : IngestBatch}

variable (P t now b) in
/-- The consumed ids have no part in it. -/
theorem applyBatch_memory (processed : Table (String × String) Micros) :
    applyBatch P now b { t with processedBatches := processed } =
      (applyBatch P now b t).map fun u => { u with processedBatches := processed } := by
  have htraffic : recordTraffic { t with processedBatches := processed } now b.appId b.deployment =
      { recordTraffic t now b.appId b.deployment with processedBatches := processed } := by
    cases b.deployment <;> rfl
  have herrors (u : TenantStore) :
      (if b.errors.isEmpty then { u with processedBatches := processed }
        else insertErrors P { u with processedBatches := processed } now b) =
      { (if b.errors.isEmpty then u else insertErrors P u now b) with
        processedBatches := processed } := by
    split
    · rfl
    · simp only [insertErrors, enqueueIssues_eq]
  have hgraphs (u : TenantStore) :
      storeGraphs { u with processedBatches := processed } b.appId b.evidence =
        (storeGraphs u b.appId b.evidence).map fun v =>
          { v with processedBatches := processed } := by
    simp only [storeGraphs]
    split
    · rfl
    · split <;> rfl
  simp only [applyBatch, htraffic]
  by_cases hnodup : (b.edges.map Prod.fst).Nodup
  · simp only [upsertEdges, if_pos hnodup, bind, Except.bind]
    rw [← hgraphs, ← herrors]
  · simp only [upsertEdges, if_neg hnodup]
    rfl

theorem processed_applyBatch (h : applyBatch P now b t = .ok u) :
    u.processedBatches = t.processedBatches := by
  have hmemory := applyBatch_memory P t now b t.processedBatches
  rw [h] at hmemory
  have hself : u = { u with processedBatches := t.processedBatches } := Except.ok.inj hmemory
  have hprocessed := congrArg TenantStore.processedBatches hself
  exact hprocessed

/-- The database takes the batch: no edge is named twice, and the roots name nodes. -/
def IngestBatch.Admitted (b : IngestBatch) (nodes : Table (String × String) ArtifactNode) : Prop :=
  (b.edges.map Prod.fst).Nodup ∧
  ((b.evidence.flatMap EvidenceGraph.nodes).isEmpty = true ∨
    ∀ g ∈ b.evidence, ((b.evidence.flatMap EvidenceGraph.nodes).foldl
      (fun ns n => ns.insertIgnore (b.appId, n.id) n) nodes).has (b.appId, g.root) = true)

theorem exists_storeGraphs_iff :
    (∃ u, storeGraphs t b.appId b.evidence = .ok u) ↔
      ((b.evidence.flatMap EvidenceGraph.nodes).isEmpty = true ∨
        ∀ g ∈ b.evidence, ((b.evidence.flatMap EvidenceGraph.nodes).foldl
          (fun ns n => ns.insertIgnore (b.appId, n.id) n) t.artifactNodes).has
            (b.appId, g.root) = true) := by
  rw [storeGraphs, ← List.all_eq_true]
  simp only
  split
  · rename_i hnone
    exact iff_of_true ⟨t, rfl⟩ (.inl hnone)
  · rename_i hsome
    split
    · rename_i hroots
      exact iff_of_true ⟨_, rfl⟩ (.inr hroots)
    · rename_i hroots
      refine iff_of_false ?_ (not_or.2 ⟨hsome, hroots⟩)
      rintro ⟨u, hu⟩
      cases hu

variable (P t now b) in
/-- Whether a batch can be applied is a matter of its edges and of the stored nodes. -/
theorem exists_applyBatch_iff :
    (∃ u, applyBatch P now b t = .ok u) ↔ b.Admitted t.artifactNodes := by
  rw [applyBatch, IngestBatch.Admitted]
  by_cases hnodup : (b.edges.map Prod.fst).Nodup
  · simp only [upsertEdges, true_and, hnodup]
    have hnodes (v : TenantStore) : (if b.errors.isEmpty then v else
        insertErrors P v now b).artifactNodes = v.artifactNodes := by
      split
      · rfl
      · simp only [insertErrors, enqueueIssues_eq]
    have htraffic : (recordTraffic t now b.appId b.deployment).artifactNodes = t.artifactNodes := by
      cases b.deployment <;> rfl
    show (∃ u, storeGraphs _ b.appId b.evidence = .ok u) ↔ _
    rw [exists_storeGraphs_iff, hnodes, htraffic]
  · refine iff_of_false ?_ fun h => hnodup h.1
    rintro ⟨u, hu⟩
    rw [upsertEdges, if_neg hnodup] at hu
    cases hu

end Reads

/-! ## The committed batches make the store -/

section Following

variable {P : Platform} {s u : TenantStore}

theorem ErrorTable.ext_rows {t u : ErrorTable} (hrows : t.rows = u.rows)
    (hnext : t.nextId = u.nextId) : t = u := by
  cases t
  cases u
  cases hrows
  cases hnext
  rfl

theorem SameTelemetry.refl (t : TenantStore) : SameTelemetry t t := ⟨rfl, rfl⟩

theorem sameTelemetry_skipSerials (t : TenantStore) (errors outbox : Nat) :
    SameTelemetry (t.skipSerials errors outbox) t := ⟨rfl, rfl⟩

/-- The store of a run and one made of its committed batches: the serials of the first may be
further on, and only it has the consumed ids. -/
structure Follows (s u : TenantStore) : Prop where
  same : SameTelemetry s u
  errorSerial : u.errors.nextId ≤ s.errors.nextId
  outboxSerial : u.nextOutboxId ≤ s.nextOutboxId

theorem Follows.refl (t : TenantStore) : Follows t t := ⟨.refl t, le_rfl, le_rfl⟩

theorem Follows.skip (h : Follows s u) (errors outbox : Nat) :
    Follows (s.skipSerials errors outbox) u where
  same := by
    obtain ⟨hrows, hothers⟩ := h.same
    refine ⟨hrows, ?_⟩
    rw [hothers]
    rfl
  errorSerial := Nat.le_add_right_of_le h.errorSerial
  outboxSerial := Nat.le_add_right_of_le h.outboxSerial

theorem Follows.prune (h : Follows s u) (now : Micros) : Follows (s.pruneProcessed now) u where
  same := by
    obtain ⟨hrows, hothers⟩ := h.same
    refine ⟨hrows, ?_⟩
    rw [hothers]
    rfl
  errorSerial := h.errorSerial
  outboxSerial := h.outboxSerial

/-- At the serials of the run, the two stores differ in the consumed ids alone. -/
theorem Follows.atSerials (h : Follows s u) :
    u.atSerials s.errors.nextId s.nextOutboxId =
      { s with processedBatches := u.processedBatches } := by
  have herrors : (u.atSerials s.errors.nextId s.nextOutboxId).errors = s.errors := by
    refine ErrorTable.ext_rows h.same.rows.symm ?_
    exact Nat.add_sub_cancel' h.errorSerial
  have houtbox : (u.atSerials s.errors.nextId s.nextOutboxId).nextOutboxId = s.nextOutboxId :=
    Nat.add_sub_cancel' h.outboxSerial
  calc u.atSerials s.errors.nextId s.nextOutboxId
      = { u with
          errors := (u.atSerials s.errors.nextId s.nextOutboxId).errors
          nextOutboxId := (u.atSerials s.errors.nextId s.nextOutboxId).nextOutboxId } := rfl
    _ = { u with errors := s.errors, nextOutboxId := s.nextOutboxId } := by rw [herrors, houtbox]
    _ = { s with processedBatches := u.processedBatches } := by rw [h.same.others]

/-- A batch that the run commits can be applied to the other store, with the same effect. -/
theorem Follows.commit (h : Follows s u) {s' : TenantStore} {c : IngestCall}
    (happlied : applyBatch P c.now c.batch (consumeBatch c.now c.batch s) = .ok s') :
    ∃ u', applyCommit P u ⟨c.now, c.batch, s.errors.nextId, s.nextOutboxId⟩ = .ok u' ∧
      Follows s' u' := by
  refine ⟨{ s' with processedBatches := u.processedBatches }, ?_, ⟨rfl, rfl⟩, le_rfl, le_rfl⟩
  rw [applyCommit, h.atSerials]
  have hmemory := applyBatch_memory P (consumeBatch c.now c.batch s) c.now c.batch
    u.processedBatches
  rw [happlied] at hmemory
  exact hmemory

/-- The committed batches of a run, applied in order, make its store. -/
theorem exists_applyCommits (h : Follows s u) (events : List IngestEvent) :
    ∃ u', applyCommits P u (commits P s events) = .ok u' ∧ Follows (storeAfter P s events) u' := by
  induction events generalizing s u with
  | nil => exact ⟨u, rfl, h⟩
  | cons e rest ih =>
    cases e with
    | prune now => exact ih (h.prune now)
    | call c =>
      show ∃ u', applyCommits P u ((if isCommit c (ingestCall P s c).1 then _ else []) ++
        commits P (ingestCall P s c).2 rest) = .ok u' ∧
          Follows (storeAfter P (ingestCall P s c).2 rest) u'
      generalize hanswer : (ingestCall P s c).1 = answer
      generalize hstore : (ingestCall P s c).2 = s'
      have hcalled := ingestCall_cases P s c
      rw [hanswer, hstore] at hcalled
      cases hcalled with
      | nothing hempty =>
        rw [if_neg (by simp [isCommit, hempty])]
        exact ih h
      | duplicate hbatch hknown =>
        rw [if_neg (by simp [isCommit])]
        exact ih h
      | rolledBack hbatch =>
        rw [if_neg (by simp [isCommit])]
        exact ih (h.skip c.errorSerials c.outboxSerials)
      | committed hbatch hfresh happlied =>
        rw [if_pos (by simp [isCommit, hbatch])]
        obtain ⟨u1, hu1, hfollows⟩ := h.commit happlied
        obtain ⟨u', hu', hfollows'⟩ := ih hfollows
        refine ⟨u', ?_, hfollows'⟩
        show (applyCommit P u _ >>= fun v => applyCommits P v _) = _
        rw [hu1]
        exact hu'

end Following

/-! ## No batch twice -/

section Once

variable {P : Platform} {t : TenantStore}

/-- The events after the first are within the horizon of the store that it leaves. -/
theorem WithinHorizon.tail {e : IngestEvent} {rest : List IngestEvent}
    (h : WithinHorizon t (e :: rest)) : WithinHorizon (ingestEvent P t e) rest where
  repeated := fun c now d hsub => h.repeated c now d (hsub.cons e)
  known := by
    intro now d createdAt hsub hget
    have hknown := h.known now d createdAt (hsub.cons e)
    cases e with
    | prune earlier => exact hknown (Table.get?_of_delete hget).1
    | call c =>
      change (ingestCall P t c).2.processedBatches.get? d.key = some createdAt at hget
      have hcalled := ingestCall_cases P t c
      generalize (ingestCall P t c).1 = answer at hcalled
      generalize (ingestCall P t c).2 = t' at hcalled hget
      cases hcalled with
      | nothing hempty => exact hknown hget
      | duplicate hbatch hin => exact hknown hget
      | rolledBack hbatch => exact hknown hget
      | committed hbatch hfresh happlied =>
        rw [processed_applyBatch happlied, consumeBatch, Table.get?_insertIgnore] at hget
        split at hget
        · rename_i hkey
          rw [Table.has_eq_false_iff] at hfresh
          have hnow : some c.now = some createdAt := by
            rw [← hget]
            exact congrArg some (congrArg (Option.getD · c.now) hfresh).symm
          rw [← Option.some.inj hnow]
          exact h.repeated c now d (hsub.cons_cons _) hkey
        · exact hknown hget

/-- A call keeps the ids that were consumed. -/
theorem has_ingestCall {c : IngestCall} {key : String × String}
    (h : t.processedBatches.has key = true) :
    (ingestCall P t c).2.processedBatches.has key = true := by
  have hcalled := ingestCall_cases P t c
  generalize (ingestCall P t c).1 = answer at hcalled
  generalize (ingestCall P t c).2 = t' at hcalled
  cases hcalled with
  | nothing hempty => exact h
  | duplicate hbatch hin => exact h
  | rolledBack hbatch => exact h
  | committed hbatch hfresh happlied =>
    rw [processed_applyBatch happlied, consumeBatch, Table.has, Table.get?_insertIgnore]
    split
    · rfl
    · exact h

/-- A committed batch was called. -/
theorem call_of_mem_commits {events : List IngestEvent} {k : IngestCommit}
    (h : k ∈ commits P t events) : ∃ c, .call c ∈ events ∧ c.key = k.key := by
  induction events generalizing t with
  | nil => cases h
  | cons e rest ih =>
    have htail {t' : TenantStore} (hk : k ∈ commits P t' rest) :
        ∃ c, .call c ∈ e :: rest ∧ c.key = k.key := by
      obtain ⟨c, hc, hkey⟩ := ih hk
      exact ⟨c, List.mem_cons_of_mem _ hc, hkey⟩
    cases e with
    | prune now => exact htail h
    | call c =>
      rcases List.mem_append.1 h with hk | hk
      · split at hk
        · rw [List.mem_singleton] at hk
          subst hk
          exact ⟨c, List.mem_cons_self, rfl⟩
        · cases hk
      · exact htail hk

/-- A batch that is committed was not consumed before, however far back. -/
theorem fresh_of_mem_commits {events : List IngestEvent} (h : WithinHorizon t events)
    {k : IngestCommit} (hk : k ∈ commits P t events) : t.processedBatches.has k.key = false := by
  induction events generalizing t with
  | nil => cases hk
  | cons e rest ih =>
    cases e with
    | prune now =>
      change k ∈ commits P (t.pruneProcessed now) rest at hk
      have hfresh : (t.pruneProcessed now).processedBatches.has k.key = false :=
        ih (h.tail (P := P)) hk
      obtain ⟨c, hc, hkey⟩ := call_of_mem_commits hk
      rw [Table.has_eq_false_iff] at hfresh ⊢
      rw [Option.eq_none_iff_forall_ne_some]
      intro createdAt hget
      -- a row of an id that is called later is not old enough to be forgotten
      have hkept : decide (createdAt < now - retryHorizon) = false := by
        have hsub : [IngestEvent.prune now, .call c].Sublist (.prune now :: rest) :=
          (List.singleton_sublist.2 hc).cons_cons _
        have hlater := h.known now c createdAt hsub (hkey ▸ hget)
        rw [decide_eq_false_iff_not, not_lt]
        exact sub_le_iff_le_add.2 hlater
      have hrow : (t.pruneProcessed now).processedBatches.get? k.key = some createdAt := by
        rw [TenantStore.pruneProcessed, Table.get?_delete, hget]
        simp [hkept]
      rw [hrow] at hfresh
      cases hfresh
    | call c =>
      rcases List.mem_append.1 hk with hhere | hlater
      · generalize hanswer : (ingestCall P t c).1 = answer at hhere
        have hcalled := ingestCall_cases P t c
        rw [hanswer] at hcalled
        split at hhere
        · rename_i hcommit
          rw [List.mem_singleton] at hhere
          subst hhere
          generalize (ingestCall P t c).2 = t' at hcalled
          cases hcalled with
          | nothing hempty => simp [isCommit, hempty] at hcommit
          | duplicate hbatch hknown => simp [isCommit] at hcommit
          | rolledBack hbatch => simp [isCommit] at hcommit
          | committed hbatch hfresh happlied => exact hfresh
        · cases hhere
      · have hfresh := ih h.tail hlater
        rw [Bool.eq_false_iff] at hfresh ⊢
        exact fun hin => hfresh (has_ingestCall hin)

/-- A committed batch consumes its id. -/
theorem has_of_isCommit {c : IngestCall} (h : isCommit c (ingestCall P t c).1 = true) :
    (ingestCall P t c).2.processedBatches.has c.key = true := by
  have hcalled := ingestCall_cases P t c
  generalize (ingestCall P t c).1 = answer at hcalled h
  generalize (ingestCall P t c).2 = t' at hcalled
  cases hcalled with
  | nothing hempty => simp [isCommit, hempty] at h
  | duplicate hbatch hknown => exact hknown
  | rolledBack hbatch => simp [isCommit] at h
  | committed hbatch hfresh happlied =>
    have hkey : c.key = (c.batch.appId, c.batch.batchId) := rfl
    rw [processed_applyBatch happlied, consumeBatch, Table.has, Table.get?_insertIgnore,
      if_pos hkey]
    rfl

/-- No batch is committed twice. -/
theorem commits_nodup {events : List IngestEvent} (h : WithinHorizon t events) :
    ((commits P t events).map IngestCommit.key).Nodup := by
  induction events generalizing t with
  | nil => exact List.nodup_nil
  | cons e rest ih =>
    cases e with
    | prune now => exact ih h.tail
    | call c =>
      show (((if isCommit c (ingestCall P t c).1 then _ else []) ++
        commits P (ingestEvent P t (.call c)) rest).map IngestCommit.key).Nodup
      split
      · rename_i hcommit
        rw [List.map_append, List.map_singleton, List.singleton_append, List.nodup_cons]
        refine ⟨fun hmem => ?_, ih h.tail⟩
        obtain ⟨k, hk, hkey⟩ := List.mem_map.1 hmem
        have hfresh := fresh_of_mem_commits h.tail hk
        rw [hkey] at hfresh
        have hin := has_of_isCommit hcommit
        exact Bool.false_ne_true (hfresh.symm.trans hin)
      · exact ih h.tail

/-- The committed batches are those of the calls that were answered as accepted. -/
theorem commits_answers (events : List IngestEvent) :
    (commits P t events).map (fun k => (k.now, k.batch)) =
      ((answers P t events).filter fun a => isCommit a.1 a.2).map
        fun a => (a.1.now, a.1.batch) := by
  induction events generalizing t with
  | nil => rfl
  | cons e rest ih =>
    cases e with
    | prune now => exact ih
    | call c =>
      rw [commits, answers, List.filter_cons, List.map_append, ih]
      split
      · rfl
      · rfl

end Once

/-! ## A failed call -/

/-- Nothing of a call is left: the tables and the ids are as they were, and a retry at which
nothing fails does what it would have done without the call. -/
structure LeftNothing (P : Platform) (s s' : TenantStore) (b : IngestBatch) : Prop where
  tables : SameTelemetry s' s
  ids : s'.processedBatches = s.processedBatches
  answered : ∀ retry : IngestCall, retry.batch = b → retry.fault = none →
    (ingestCall P s' retry).1 = (ingestCall P s retry).1
  applied : ∀ retry : IngestCall, retry.batch = b → retry.fault = none →
    s.processedBatches.has retry.key = false → b.Admitted s.artifactNodes →
    ∃ u, applyBatch P retry.now b s' = .ok u ∧ (ingestCall P s' retry).1 = .accepted ∧
      SameTelemetry (ingestCall P s' retry).2 u

section Failing

variable {P : Platform} {t : TenantStore} {c : IngestCall}

/-- At which nothing fails, a call of a new batch is accepted when the database takes it. -/
theorem ingestCall_fresh (hfault : c.fault = none) (hbatch : c.batch.isEmpty = false)
    (hfresh : t.processedBatches.has c.key = false) :
    ingestCall P t c = match applyBatch P c.now c.batch (consumeBatch c.now c.batch t) with
      | .ok t' => (.accepted, t')
      | .error _ => (.failed, t.skipSerials c.errorSerials c.outboxSerials) := by
  have hkey : t.processedBatches.has (c.batch.appId, c.batch.batchId) = false := hfresh
  rw [ingestCall_eq hfault, ingestBatch_eq, hbatch, hkey]
  cases applyBatch P c.now c.batch (consumeBatch c.now c.batch t) <;> rfl

theorem ingestCall_known (hfault : c.fault = none) (hbatch : c.batch.isEmpty = false)
    (hknown : t.processedBatches.has c.key = true) : ingestCall P t c = (.deduped, t) := by
  have hkey : t.processedBatches.has (c.batch.appId, c.batch.batchId) = true := hknown
  rw [ingestCall_eq hfault, ingestBatch_eq, hbatch, hkey]
  rfl

/-- The answer to a new batch at which nothing fails. -/
theorem ingestCall_fresh_answer (hfault : c.fault = none) (hbatch : c.batch.isEmpty = false)
    (hfresh : t.processedBatches.has c.key = false) :
    (ingestCall P t c).1 = .accepted ↔ c.batch.Admitted t.artifactNodes := by
  have hadmitted := exists_applyBatch_iff P (consumeBatch c.now c.batch t) c.now c.batch
  rw [ingestCall_fresh hfault hbatch hfresh]
  refine Iff.trans ?_ hadmitted
  cases applyBatch P c.now c.batch (consumeBatch c.now c.batch t) with
  | ok t' => exact iff_of_true rfl ⟨t', rfl⟩
  | error e =>
    refine iff_of_false ?_ ?_
    · rintro ⟨⟩
    · rintro ⟨u, hu⟩
      cases hu

/-- An answer to a new batch at which nothing fails is not that of a duplicate. -/
theorem ingestCall_fresh_ne (hfault : c.fault = none) (hbatch : c.batch.isEmpty = false)
    (hfresh : t.processedBatches.has c.key = false) : (ingestCall P t c).1 ≠ .deduped := by
  rw [ingestCall_fresh hfault hbatch hfresh]
  cases applyBatch P c.now c.batch (consumeBatch c.now c.batch t) <;> rintro ⟨⟩

/-- A call that fails leaves nothing behind. -/
theorem leftNothing_of_failed (hfailed : (ingestCall P t c).1 = .failed) :
    LeftNothing P t (ingestCall P t c).2 c.batch := by
  have hcalled := ingestCall_cases P t c
  rw [hfailed] at hcalled
  generalize (ingestCall P t c).2 = t' at hcalled
  cases hcalled with
  | rolledBack hbatch =>
    let t' := t.skipSerials c.errorSerials c.outboxSerials
    refine ⟨sameTelemetry_skipSerials t _ _, rfl, fun retry hretry hfault => ?_,
      fun retry hretry hfault hfresh hadmitted => ?_⟩
    · rw [← hretry] at hbatch
      cases hknown : t.processedBatches.has retry.key with
      | true =>
        have hknown' : t'.processedBatches.has retry.key = true := hknown
        rw [ingestCall_known hfault hbatch hknown, ingestCall_known hfault hbatch hknown']
      | false =>
        have hknown' : t'.processedBatches.has retry.key = false := hknown
        have hanswer := ingestCall_fresh_answer (P := P) hfault hbatch hknown
        have hanswer' := ingestCall_fresh_answer (P := P) hfault hbatch hknown'
        have hsame : (ingestCall P t' retry).1 = .accepted ↔
            (ingestCall P t retry).1 = .accepted := hanswer'.trans hanswer.symm
        have hne := ingestCall_fresh_ne (P := P) hfault hbatch hknown
        have hne' := ingestCall_fresh_ne (P := P) hfault hbatch hknown'
        revert hsame hne hne'
        generalize (ingestCall P t' retry).1 = answer'
        generalize (ingestCall P t retry).1 = answer
        cases answer <;> cases answer' <;> simp
    · rw [← hretry] at hbatch hadmitted ⊢
      have hfresh' : t'.processedBatches.has retry.key = false := hfresh
      obtain ⟨u, hu⟩ := (exists_applyBatch_iff P t' retry.now retry.batch).2 hadmitted
      have happlied : applyBatch P retry.now retry.batch (consumeBatch retry.now retry.batch t') =
          .ok { u with processedBatches :=
            (consumeBatch retry.now retry.batch t').processedBatches } := by
        have hmemory := applyBatch_memory P t' retry.now retry.batch
          (consumeBatch retry.now retry.batch t').processedBatches
        rw [hu] at hmemory
        exact hmemory
      refine ⟨u, hu, ?_, ?_⟩
      · rw [ingestCall_fresh hfault hbatch hfresh', happlied]
      · rw [ingestCall_fresh hfault hbatch hfresh', happlied]
        exact ⟨rfl, rfl⟩

end Failing

/-! ## Ingest is exactly once -/

/-- The tables of a sequence of calls are those of its committed batches, each applied once in
the order of their transactions, and a call that fails leaves nothing behind. -/
theorem ingest_exactly_once (P : Platform) (t : TenantStore) (events : List IngestEvent)
    (hhorizon : WithinHorizon t events) :
    (∃ u, applyCommits P t (commits P t events) = .ok u ∧
      SameTelemetry (storeAfter P t events) u) ∧
    (commits P t events).map (fun k => (k.now, k.batch)) =
      ((answers P t events).filter fun a => isCommit a.1 a.2).map (fun a => (a.1.now, a.1.batch)) ∧
    ((commits P t events).map IngestCommit.key).Nodup ∧
    (∀ k ∈ commits P t events, t.processedBatches.has k.key = false) ∧
    ∀ before c after, events = before ++ .call c :: after →
      (ingestCall P (storeAfter P t before) c).1 = .failed →
      LeftNothing P (storeAfter P t before) (storeAfter P t (before ++ [.call c])) c.batch := by
  obtain ⟨u, hu, hfollows⟩ := exists_applyCommits (P := P) (Follows.refl t) events
  refine ⟨⟨u, hu, hfollows.same⟩, commits_answers events, commits_nodup hhorizon,
    fun k hk => fresh_of_mem_commits hhorizon hk, fun before c after _ hfailed => ?_⟩
  have hstep : storeAfter P t (before ++ [.call c]) =
      (ingestCall P (storeAfter P t before) c).2 := by
    rw [storeAfter, List.foldl_append]
    rfl
  rw [hstep]
  exact leftNothing_of_failed hfailed

/-- Two crashes that are sent three times, the first time with the connection lost at the fifth
statement. -/
def crashesThrice : List IngestEvent :=
  [.call ⟨0, twoCrashes (some "v2"), some 4, 2, 1⟩, .call ⟨1, twoCrashes (some "v2"), none, 0, 0⟩,
    .call ⟨2, twoCrashes (some "v2"), none, 0, 0⟩, .prune 3]

theorem ingest_exactly_once_crashes :
    WithinHorizon .empty crashesThrice ∧
      (answers oneBucket .empty crashesThrice).map Prod.snd = [.failed, .accepted, .deduped] ∧
      ∃ u, applyCommits oneBucket .empty (commits oneBucket .empty crashesThrice) = .ok u ∧
        SameTelemetry (storeAfter oneBucket .empty crashesThrice) u := by
  have hhorizon : WithinHorizon .empty crashesThrice := by
    refine ⟨fun now d createdAt _ hget => ?_, fun c now d hsub _ => ?_⟩
    · simp [TenantStore.empty] at hget
    · simp [crashesThrice, List.cons_sublist_cons'] at hsub
  exact ⟨hhorizon, by decide, (ingest_exactly_once oneBucket .empty crashesThrice hhorizon).1⟩

end ReproitCloud
