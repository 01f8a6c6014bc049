import ReproitCloud.Lib.CountView
import ReproitCloud.Telemetry.Cohorts

/-!
# Ingest of one event batch

`ingestBatch` is the transaction behind `POST /v1/events`.  It consumes the
batch id, counts the batch for its deployment, adds the edge deltas, appends
the errors and brings the read models up to date, and stores the evidence
graphs.  A batch id that was consumed before makes the call write nothing.

The transaction is a chain of statements on the store.  Each is one definition
here, named for what it writes, and `insertErrors` is the chain of those that
run when the batch has errors.  `now` is the transaction's `now()`, so all rows
of a batch carry one instant.

A statement that the database refuses aborts the whole call, which is an
`Except` here.  The bucket id of a record is a hash computed elsewhere in the
service, and it is a field of `Platform` along with the text renderings.
-/

namespace ReproitCloud

open Lib

/-- What the telemetry statements take from outside the modelled code. -/
structure Platform extends Renderings where
  /-- `buckets::bucket_id`: the content-addressed bucket of a record. -/
  bucketId : ErrorRec → String

/-- A statement refused by the database. -/
inductive SqlError where
  /-- A NULL in a NOT NULL column. -/
  | notNull (table column : String)
  /-- A row without the row its foreign key names. -/
  | foreignKey (table : String)
  /-- An upsert whose batch names one key twice. -/
  | cardinality (table : String)
deriving DecidableEq, Repr

/-- A rooted evidence graph of a batch. -/
structure EvidenceGraph where
  runId : String
  root : String
  nodes : List ArtifactNode

/-- The arguments of `ingest_batch`. -/
structure IngestBatch where
  appId : String
  edges : List (String × Int) := []
  errors : List ErrorRec := []
  evidence : List EvidenceGraph := []
  batchId : String
  deployment : Option String := none

/-! ## Aggregates -/

/-- `COUNT(*), MIN(id), MAX(id), MIN(created_at), MAX(created_at)` of a group of
rows.  Over no rows the minima and maxima are NULL. -/
def summarize (rows : List ErrorRow) : Option BucketSummary :=
  match (rows.map ErrorRow.id).min?, (rows.map ErrorRow.id).max?,
    (rows.map ErrorRow.createdAt).min?, (rows.map ErrorRow.createdAt).max? with
  | some firstId, some lastId, some firstSeen, some lastSeen =>
    some ⟨rows.length, firstId, lastId, firstSeen, lastSeen⟩
  | _, _, _, _ => none

/-- The `DO UPDATE` of a summary: counts add, the ends take `LEAST` and `GREATEST`. -/
def BucketSummary.merge (new old : BucketSummary) : BucketSummary where
  count := old.count + new.count
  firstErrorId := min old.firstErrorId new.firstErrorId
  lastErrorId := max old.lastErrorId new.lastErrorId
  firstSeen := min old.firstSeen new.firstSeen
  lastSeen := max old.lastSeen new.lastSeen

/-! ## The statements -/

/-- The traffic upsert: one batch more for the deployment, last seen now. -/
def recordTraffic (t : TenantStore) (now : Micros) (app : String) :
    Option String → TenantStore
  | none => t
  | some build =>
    { t with buildTraffic := t.buildTraffic.upsert (app, build) ⟨1, now, now⟩ fun old =>
        { old with count := old.count + 1, lastSeen := now } }

/-- Counting the traffic writes no other table. -/
theorem recordTraffic_eq (t : TenantStore) (now : Micros) (app : String)
    (deployment : Option String) :
    ∃ traffic, recordTraffic t now app deployment = { t with buildTraffic := traffic } := by
  cases deployment with
  | none => exact ⟨t.buildTraffic, rfl⟩
  | some build => exact ⟨_, rfl⟩

/-- The edge upsert, which refuses a batch that names an edge twice. -/
def upsertEdges (t : TenantStore) (app : String) (edges : List (String × Int)) :
    Except SqlError TenantStore :=
  if (edges.map Prod.fst).Nodup then
    .ok { t with edges := edges.foldl (fun es e => es.upsert (app, e.1) e.2 (· + e.2)) t.edges }
  else .error (.cardinality "edges")

/-- The row an ingested error becomes. -/
def newError (P : Platform) (now : Micros) (app : String) (record : ErrorRec) : NewError :=
  ⟨app, record, some (P.bucketId record), now⟩

/-- The bucket ids of a batch, in the order of its errors. -/
def batchBuckets (P : Platform) (b : IngestBatch) : List String := b.errors.map P.bucketId

/-- The summary upsert of one bucket of the inserted rows. -/
def upsertSummary (app : String) (inserted : List ErrorRow)
    (s : Table (String × String) BucketSummary) (bucket : String) :
    Table (String × String) BucketSummary :=
  match summarize (inserted.filter (ErrorRow.inBucket app bucket)) with
  | some new => s.upsert (app, bucket) new (BucketSummary.merge new)
  | none => s

/-- The upsert of the summaries of the inserted rows, grouped by bucket. -/
def upsertSummaries (s : Table (String × String) BucketSummary) (app : String)
    (buckets : List String) (inserted : List ErrorRow) :
    Table (String × String) BucketSummary :=
  buckets.dedup.foldl (upsertSummary app inserted) s

/-- The app dimensions of a batch, one for each value of each error. -/
def batchAppDimensions (P : Platform) (b : IngestBatch) : List AppDimension :=
  b.errors.flatMap fun record =>
    (dimensionValues P.toRenderings record.context).map fun d => ⟨b.appId, d.1, d.2⟩

/-- The bucket dimensions of a batch. -/
def batchBucketDimensions (P : Platform) (b : IngestBatch) : List BucketDimension :=
  b.errors.flatMap fun record =>
    (dimensionValues P.toRenderings record.context).map fun d =>
      ⟨b.appId, P.bucketId record, d.1, d.2⟩

/-- The window keys of a batch: the hour of the transaction and the DEPLOYMENT. -/
def batchWindows (P : Platform) (now : Micros) (b : IngestBatch) : List WindowKey :=
  (batchBuckets P b).map fun bucket => ⟨b.appId, bucket, hourStart now, b.deployment.getD ""⟩

/-- One `file-issue` row for each bucket of the batch that has none yet.  The
serial advances for a row that is ignored as well. -/
def enqueueIssues (t : TenantStore) (now : Micros) (app : String) (buckets : List String) :
    TenantStore :=
  (buckets.dedup.insertionSort (· ≤ ·)).foldl
    (fun t bucket =>
      { t with
        integrationOutbox :=
          t.integrationOutbox.insertIgnore (app, bucket, "file-issue") ⟨t.nextOutboxId, 0, now⟩
        nextOutboxId := t.nextOutboxId + 1 })
    t

/-- The statements that run when the batch has errors. -/
def insertErrors (P : Platform) (t : TenantStore) (now : Micros) (b : IngestBatch) :
    TenantStore :=
  let new := b.errors.map (newError P now b.appId)
  let inserted := numbered t.errors.nextId new
  let t := { t with
    errors := t.errors.insert new
    bucketSummaries := upsertSummaries t.bucketSummaries b.appId (batchBuckets P b) inserted
    appContextCounts := t.appContextCounts.bumpGroups (batchAppDimensions P b)
    bucketContextCounts := t.bucketContextCounts.bumpGroups (batchBucketDimensions P b)
    bucketWindows := t.bucketWindows.bumpGroups (batchWindows P now b) }
  enqueueIssues t now b.appId (batchBuckets P b)

/-- `store_graphs`: nodes are kept once by id, roots must name a stored node. -/
def storeGraphs (t : TenantStore) (app : String) (evidence : List EvidenceGraph) :
    Except SqlError TenantStore :=
  let nodes := evidence.flatMap EvidenceGraph.nodes
  if nodes.isEmpty then .ok t
  else
    let stored := nodes.foldl (fun ns n => ns.insertIgnore (app, n.id) n) t.artifactNodes
    if evidence.all fun g => stored.has (app, g.root) then
      .ok { t with
        artifactNodes := stored
        artifactRoots := evidence.foldl (fun rs g => rs.insertIgnore (app, g.runId, g.root) ())
          t.artifactRoots }
    else .error (.foreignKey "artifact_roots")

/-- `ingest_batch`.  The flag says whether the batch was a duplicate. -/
def ingestBatch (P : Platform) (t : TenantStore) (now : Micros) (b : IngestBatch) :
    Except SqlError (Bool × TenantStore) := do
  if b.edges.isEmpty && b.errors.isEmpty && b.evidence.isEmpty then
    return (false, t)
  if t.processedBatches.has (b.appId, b.batchId) then
    return (true, t)
  let t := { t with
    processedBatches := t.processedBatches.insertIgnore (b.appId, b.batchId) now }
  let t := recordTraffic t now b.appId b.deployment
  let t ← upsertEdges t b.appId b.edges
  let t := if b.errors.isEmpty then t else insertErrors P t now b
  let t ← storeGraphs t b.appId b.evidence
  return (false, t)

/-! ## What each statement leaves alone -/

/-- Two stores with the same errors, read models, traffic, triage and evidence ledger.
The bookkeeping statements of ingest keep all of these. -/
structure SameReads (t t' : TenantStore) : Prop where
  errors : t'.errors = t.errors
  summaries : t'.bucketSummaries = t.bucketSummaries
  windows : t'.bucketWindows = t.bucketWindows
  appCounts : t'.appContextCounts = t.appContextCounts
  bucketCounts : t'.bucketContextCounts = t.bucketContextCounts
  traffic : t'.buildTraffic = t.buildTraffic
  triage : t'.bucketTriage = t.bucketTriage
  evidence : t'.evidence = t.evidence
  usage : t'.appStorageUsage = t.appStorageUsage

theorem SameReads.refl (t : TenantStore) : SameReads t t := by
  constructor <;> rfl

theorem SameReads.trans {t u v : TenantStore} (h : SameReads t u) (h' : SameReads u v) :
    SameReads t v where
  errors := h'.errors.trans h.errors
  summaries := h'.summaries.trans h.summaries
  windows := h'.windows.trans h.windows
  appCounts := h'.appCounts.trans h.appCounts
  bucketCounts := h'.bucketCounts.trans h.bucketCounts
  traffic := h'.traffic.trans h.traffic
  triage := h'.triage.trans h.triage
  evidence := h'.evidence.trans h.evidence
  usage := h'.usage.trans h.usage

section Frame

variable (P : Platform) (t : TenantStore) (now : Micros) (app : String)

theorem sameReads_enqueueIssues (buckets : List String) :
    SameReads t (enqueueIssues t now app buckets) := by
  unfold enqueueIssues
  generalize buckets.dedup.insertionSort (· ≤ ·) = bs
  induction bs generalizing t with
  | nil => exact .refl t
  | cons b bs ih => exact .trans (by constructor <;> rfl) (ih _)

theorem sameReads_consume (key : String × String) :
    SameReads t { t with processedBatches := t.processedBatches.insertIgnore key now } := by
  constructor <;> rfl

variable {t app}

theorem sameReads_recordTraffic {t' : TenantStore} (h : SameReads t t')
    (deployment : Option String) :
    SameReads (recordTraffic t now app deployment) (recordTraffic t' now app deployment) := by
  cases deployment with
  | none => exact h
  | some build =>
    have htraffic := h.traffic
    exact { h with traffic := by simp [recordTraffic, htraffic] }

theorem sameReads_upsertEdges {edges : List (String × Int)} {t' : TenantStore}
    (h : upsertEdges t app edges = .ok t') : SameReads t t' := by
  unfold upsertEdges at h
  split at h
  · cases h
    constructor <;> rfl
  · cases h

theorem sameReads_storeGraphs {evidence : List EvidenceGraph} {t' : TenantStore}
    (h : storeGraphs t app evidence = .ok t') : SameReads t t' := by
  simp only [storeGraphs] at h
  split at h
  · cases h
    exact .refl t
  · split at h
    · cases h
      constructor <;> rfl
    · cases h

end Frame

/-- The store with the tables that ingest writes taken from another one. -/
def TenantStore.ingestedFrom (t u : TenantStore) : TenantStore :=
  { t with
    errors := u.errors
    bucketSummaries := u.bucketSummaries
    bucketWindows := u.bucketWindows
    appContextCounts := u.appContextCounts
    bucketContextCounts := u.bucketContextCounts
    buildTraffic := u.buildTraffic
    edges := u.edges
    processedBatches := u.processedBatches
    integrationOutbox := u.integrationOutbox
    nextOutboxId := u.nextOutboxId
    artifactNodes := u.artifactNodes
    artifactRoots := u.artifactRoots }

theorem ingestedFrom_trans {t u v : TenantStore} (h : u = t.ingestedFrom u)
    (h' : v = u.ingestedFrom v) : v = t.ingestedFrom v := by
  rw [h] at h'
  exact h'

theorem ingestedFrom_enqueueIssues (t : TenantStore) (now : Micros) (app : String)
    (buckets : List String) :
    enqueueIssues t now app buckets = t.ingestedFrom (enqueueIssues t now app buckets) := by
  unfold enqueueIssues
  generalize buckets.dedup.insertionSort (· ≤ ·) = bs
  induction bs generalizing t with
  | nil => rfl
  | cons b bs ih => exact ingestedFrom_trans rfl (ih _)

theorem ingestedFrom_storeGraphs {t t' : TenantStore} {app : String}
    {evidence : List EvidenceGraph} (h : storeGraphs t app evidence = .ok t') :
    t' = t.ingestedFrom t' := by
  simp only [storeGraphs] at h
  split at h
  · cases h
    rfl
  · split at h
    · cases h
      rfl
    · cases h

/-- Ingest writes no other tables. -/
theorem ingestedFrom_ingestBatch {P : Platform} {t t' : TenantStore} {now : Micros}
    {b : IngestBatch} {dup : Bool} (h : ingestBatch P t now b = .ok (dup, t')) :
    t' = t.ingestedFrom t' := by
  simp only [ingestBatch, upsertEdges, pure, Except.pure, bind, Except.bind] at h
  split at h
  · cases h
    rfl
  split at h
  · cases h
    rfl
  split at h
  · cases h
  rename_i t1 hedges
  split at h
  · cases h
  rename_i t2 hgraphs
  cases h
  have hbefore : t1 = t.ingestedFrom t1 := by
    split at hedges
    · cases hedges
      obtain ⟨traffic, htraffic⟩ := recordTraffic_eq
        { t with processedBatches := t.processedBatches.insertIgnore (b.appId, b.batchId) now }
        now b.appId b.deployment
      rw [htraffic]
      rfl
    · cases hedges
  refine ingestedFrom_trans hbefore (ingestedFrom_trans ?_ (ingestedFrom_storeGraphs hgraphs))
  split
  · rfl
  · exact ingestedFrom_trans rfl (ingestedFrom_enqueueIssues _ now b.appId _)

/-! ## What a call does -/

/-- What the error statements of a batch do to the tables. -/
structure ErrorsInserted (P : Platform) (t : TenantStore) (now : Micros) (b : IngestBatch)
    (t' : TenantStore) : Prop where
  errors : t'.errors = t.errors.insert (b.errors.map (newError P now b.appId))
  summaries : t'.bucketSummaries = upsertSummaries t.bucketSummaries b.appId (batchBuckets P b)
    (numbered t.errors.nextId (b.errors.map (newError P now b.appId)))
  windows : t'.bucketWindows = t.bucketWindows.bumpGroups (batchWindows P now b)
  appCounts : t'.appContextCounts = t.appContextCounts.bumpGroups (batchAppDimensions P b)
  bucketCounts :
    t'.bucketContextCounts = t.bucketContextCounts.bumpGroups (batchBucketDimensions P b)
  traffic : t'.buildTraffic = t.buildTraffic
  triage : t'.bucketTriage = t.bucketTriage
  evidence : t'.evidence = t.evidence
  usage : t'.appStorageUsage = t.appStorageUsage

theorem ErrorsInserted.congr {P : Platform} {t u t' u' : TenantStore} {now : Micros}
    {b : IngestBatch} (h : ErrorsInserted P t now b u) (ht : SameReads t' t) (hu : SameReads u u') :
    ErrorsInserted P t' now b u' where
  errors := by rw [hu.errors, h.errors, ht.errors]
  summaries := by rw [hu.summaries, h.summaries, ht.summaries, ht.errors]
  windows := by rw [hu.windows, h.windows, ht.windows]
  appCounts := by rw [hu.appCounts, h.appCounts, ht.appCounts]
  bucketCounts := by rw [hu.bucketCounts, h.bucketCounts, ht.bucketCounts]
  traffic := by rw [hu.traffic, h.traffic, ht.traffic]
  triage := by rw [hu.triage, h.triage, ht.triage]
  evidence := by rw [hu.evidence, h.evidence, ht.evidence]
  usage := by rw [hu.usage, h.usage, ht.usage]

theorem ErrorTable.insert_nil (t : ErrorTable) : t.insert [] = t := by
  simp [ErrorTable.insert, numbered]

/-- Without errors the statements are skipped, and would have changed nothing. -/
theorem errorsInserted_of_none {P : Platform} {t : TenantStore} {now : Micros} {b : IngestBatch}
    (h : b.errors = []) : ErrorsInserted P t now b t := by
  constructor <;>
    simp [h, ErrorTable.insert_nil, upsertSummaries, batchBuckets, batchWindows,
      batchAppDimensions, batchBucketDimensions, Table.bumpGroups]

theorem errorsInserted_insertErrors (P : Platform) (t : TenantStore) (now : Micros)
    (b : IngestBatch) : ErrorsInserted P t now b (insertErrors P t now b) := by
  refine ErrorsInserted.congr ?_ (.refl t) (sameReads_enqueueIssues _ now b.appId _)
  constructor <;> rfl

/-- The effect of a call that writes: the batch id was new, the traffic is
counted, and the errors are inserted. -/
structure Ingested (P : Platform) (t : TenantStore) (now : Micros) (b : IngestBatch)
    (t' : TenantStore) : Prop where
  fresh : t.processedBatches.get? (b.appId, b.batchId) = none
  inserted : ErrorsInserted P (recordTraffic t now b.appId b.deployment) now b t'

/-- A call writes nothing, for a consumed id or an empty batch, or it has exactly
the effect `Ingested`. -/
theorem ingestBatch_cases {P : Platform} {t t' : TenantStore} {now : Micros} {b : IngestBatch}
    {dup : Bool} (h : ingestBatch P t now b = .ok (dup, t')) :
    (t' = t ∧ (dup = true ∨ b.errors = [])) ∨ (dup = false ∧ Ingested P t now b t') := by
  simp only [ingestBatch, pure, Except.pure, bind, Except.bind] at h
  split at h
  · rename_i hempty
    simp only [Bool.and_eq_true, List.isEmpty_iff] at hempty
    cases h
    exact .inl ⟨rfl, .inr hempty.1.2⟩
  split at h
  · cases h
    exact .inl ⟨rfl, .inl rfl⟩
  rename_i hfresh
  rw [Bool.not_eq_true, Table.has_eq_false_iff] at hfresh
  split at h
  · cases h
  rename_i t1 hedges
  split at h
  · cases h
  rename_i t2 hgraphs
  cases h
  refine .inr ⟨rfl, hfresh, ?_⟩
  have hbefore : SameReads (recordTraffic t now b.appId b.deployment) t1 :=
    .trans (sameReads_recordTraffic now (sameReads_consume t now _) b.deployment)
      (sameReads_upsertEdges hedges)
  have hafter := sameReads_storeGraphs hgraphs
  split at hafter
  · rename_i hempty
    exact (errorsInserted_of_none (List.isEmpty_iff.1 hempty)).congr hbefore hafter
  · exact (errorsInserted_insertErrors P t1 now b).congr hbefore hafter

end ReproitCloud
