import ReproitCloud.Data.Json
import ReproitCloud.Data.Time

/-!
# The tenant's telemetry tables

One tenant database holds the telemetry of one organization.  `TenantStore` is
the part of it that ingest, the delete trigger and the triage reads touch: the
append-only `errors` log, the read models kept beside it, and the per-bucket
metadata the sample deletion clears.

The `errors` table is `ErrorTable`.  Its id column is a serial, so the rows are
in id order and every id is below the next one to be given out; both facts are
fields of the type.  `INSERT` appends rows with consecutive ids and `DELETE`
filters, and neither can break them.

Columns that no modelled statement reads are left out of the metadata rows.
-/

namespace ReproitCloud

open Lib

/-! ## Error rows -/

/-- A step of the path that led to an error. -/
structure Step where
  sig : String
  action : String
  label : Option String := none
deriving DecidableEq, Repr

/-- An error as it is posted and read back, without id and time. -/
structure ErrorRec where
  sig : String
  message : String
  path : List Step
  context : Context

/-- A row of `errors`. -/
structure ErrorRow where
  id : Nat
  appId : String
  record : ErrorRec
  /-- The materialised bucket id, NULL in rows older than the column. -/
  bucketId : Option String
  createdAt : Micros

/-- The columns an `INSERT INTO errors` gives; the id is the database's. -/
structure NewError where
  appId : String
  record : ErrorRec
  bucketId : Option String
  createdAt : Micros

/-- A new error under the id it is given. -/
def NewError.row (e : NewError) (id : Nat) : ErrorRow :=
  ⟨id, e.appId, e.record, e.bucketId, e.createdAt⟩

/-- New errors under consecutive ids. -/
def numbered (start : Nat) (es : List NewError) : List ErrorRow :=
  (es.zipIdx start).map fun (e, id) => e.row id

theorem numbered_id_ge {start : Nat} {es : List NewError} {r : ErrorRow}
    (h : r ∈ numbered start es) : start ≤ r.id ∧ r.id < start + es.length := by
  obtain ⟨⟨e, i⟩, hm, rfl⟩ := List.mem_map.1 h
  have := List.mem_zipIdx hm
  exact ⟨this.1, this.2.1⟩

theorem exists_of_mem_numbered {start : Nat} {es : List NewError} {r : ErrorRow}
    (h : r ∈ numbered start es) : ∃ e ∈ es, ∃ id, r = e.row id := by
  obtain ⟨⟨e, i⟩, hm, rfl⟩ := List.mem_map.1 h
  exact ⟨e, List.fst_mem_of_mem_zipIdx hm, i, rfl⟩

theorem numbered_append (start : Nat) (es fs : List NewError) :
    numbered start (es ++ fs) = numbered start es ++ numbered (start + es.length) fs := by
  simp [numbered, List.zipIdx_append]

theorem length_numbered (start : Nat) (es : List NewError) :
    (numbered start es).length = es.length := by
  simp [numbered]

theorem numbered_pairwise (start : Nat) (es : List NewError) :
    (numbered start es).Pairwise fun a b => a.id < b.id := by
  induction es generalizing start with
  | nil => exact .nil
  | cons e es ih =>
    refine .cons ?_ (ih (start + 1))
    intro r hr
    exact (numbered_id_ge hr).1

/-- The `errors` table: rows in id order, every id below the next serial. -/
structure ErrorTable where
  rows : List ErrorRow
  /-- The serial the next inserted row gets. -/
  nextId : Nat
  sorted : rows.Pairwise fun a b => a.id < b.id
  bounded : ∀ r ∈ rows, r.id < nextId

namespace ErrorTable

/-- No error yet. -/
def empty : ErrorTable := ⟨[], 1, .nil, by simp⟩

/-- `INSERT INTO errors ... SELECT ... FROM UNNEST`. -/
def insert (t : ErrorTable) (es : List NewError) : ErrorTable where
  rows := t.rows ++ numbered t.nextId es
  nextId := t.nextId + es.length
  sorted := by
    rw [List.pairwise_append]
    refine ⟨t.sorted, numbered_pairwise t.nextId es, ?_⟩
    intro a ha b hb
    exact Nat.lt_of_lt_of_le (t.bounded a ha) (numbered_id_ge hb).1
  bounded := by
    intro r hr
    rcases List.mem_append.1 hr with hr | hr
    · exact Nat.lt_of_lt_of_le (t.bounded r hr) (Nat.le_add_right _ _)
    · exact (numbered_id_ge hr).2

/-- `DELETE FROM errors WHERE p`. -/
def delete (t : ErrorTable) (p : ErrorRow → Bool) : ErrorTable where
  rows := t.rows.filter fun r => !p r
  nextId := t.nextId
  sorted := t.sorted.filter _
  bounded := fun r hr => t.bounded r (List.mem_filter.1 hr).1

theorem ids_nodup (t : ErrorTable) : (t.rows.map ErrorRow.id).Nodup := by
  rw [List.Nodup, List.pairwise_map]
  exact t.sorted.imp fun h => Nat.ne_of_lt h

/-- Two rows with one id are the same row. -/
theorem eq_of_id {t : ErrorTable} {a b : ErrorRow} (ha : a ∈ t.rows) (hb : b ∈ t.rows)
    (h : a.id = b.id) : a = b :=
  List.inj_on_of_nodup_map t.ids_nodup ha hb h

/-- A row is found under its id. -/
theorem find?_of_id {t : ErrorTable} {r : ErrorRow} (h : r ∈ t.rows) :
    (t.rows.find? fun e => e.id = r.id) = some r := by
  cases hfound : t.rows.find? fun e => e.id = r.id with
  | none =>
    have hnone := List.find?_eq_none.1 hfound r h
    simp at hnone
  | some e =>
    have hid : e.id = r.id := by simpa using List.find?_some hfound
    rw [eq_of_id (List.mem_of_find?_eq_some hfound) h hid]

end ErrorTable

/-- The row belongs to a bucket of an app: `app_id=$1 AND bucket_id=$2`. -/
def ErrorRow.inBucket (app bucket : String) (r : ErrorRow) : Bool :=
  r.appId = app && r.bucketId = some bucket

/-! ## The read models -/

/-- A row of `bucket_summaries`. -/
structure BucketSummary where
  count : Int
  firstErrorId : Nat
  lastErrorId : Nat
  firstSeen : Micros
  lastSeen : Micros
deriving DecidableEq, Repr

/-- The key of `bucket_windows`. -/
structure WindowKey where
  appId : String
  bucketId : String
  windowStart : Micros
  build : String
deriving DecidableEq, Repr

/-- The key of `app_context_counts`. -/
structure AppDimension where
  appId : String
  key : String
  value : String
deriving DecidableEq, Repr

/-- The key of `bucket_context_counts`. -/
structure BucketDimension where
  appId : String
  bucketId : String
  key : String
  value : String
deriving DecidableEq, Repr

/-- A row of `build_traffic`: the accepted batches of one deployed build. -/
structure BuildTraffic where
  count : Int
  firstSeen : Micros
  lastSeen : Micros
deriving DecidableEq, Repr

/-! ## Ingest bookkeeping, evidence and bucket metadata -/

/-- A row of `integration_outbox`, keyed by app, bucket and kind. -/
structure OutboxRow where
  id : Nat
  attempts : Nat
  availableAt : Micros
deriving DecidableEq, Repr

/-- A node of a content-addressed evidence graph. -/
structure ArtifactNode where
  id : String
  kind : String
  parents : List String
  payload : Json

/-- A row of `evidence`. -/
structure EvidenceRow where
  id : Nat
  appId : String
  errorId : Nat
  storageKey : String
  bytes : Int
deriving DecidableEq, Repr

/-- A row of `bucket_triage`. -/
structure TriageRow where
  status : String
  assignee : Option Nat := none
  fixedInBuild : Option String := none
deriving DecidableEq, Repr

/-- `TicketLink`: a row of `bucket_tickets`, the issue a bucket is linked to. -/
structure TicketLink where
  provider : String
  repo : String
  externalId : String
  url : String
deriving DecidableEq, Repr

/-- A row of `bucket_resolution_events`, a transition of a bucket's status. -/
structure ResolutionEventRow where
  appId : String
  bucketId : String
  fromStatus : Option String
  toStatus : String
  build : Option String
deriving DecidableEq, Repr

/-- A row of one of the per-bucket tables that the modelled code only clears. -/
structure BucketScoped where
  appId : String
  bucketId : String
deriving DecidableEq, Repr

/-- The telemetry tables of one tenant database. -/
structure TenantStore where
  errors : ErrorTable := .empty
  bucketSummaries : Table (String × String) BucketSummary := .empty
  bucketWindows : Table WindowKey Int := .empty
  appContextCounts : Table AppDimension Int := .empty
  bucketContextCounts : Table BucketDimension Int := .empty
  buildTraffic : Table (String × String) BuildTraffic := .empty
  edges : Table (String × String) Int := .empty
  processedBatches : Table (String × String) Micros := .empty
  integrationOutbox : Table (String × String × String) OutboxRow := .empty
  /-- The serial of `integration_outbox`. -/
  nextOutboxId : Nat := 1
  artifactNodes : Table (String × String) ArtifactNode := .empty
  artifactRoots : Table (String × String × String) Unit := .empty
  evidence : List EvidenceRow := []
  appStorageUsage : Table String Int := .empty
  bucketTriage : Table (String × String) TriageRow := .empty
  bucketTickets : Table (String × String) TicketLink := .empty
  bucketResolutionStatus : Table (String × String) (String × Option String) := .empty
  replayResults : List BucketScoped := []
  /-- In id order. -/
  bucketResolutionEvents : List ResolutionEventRow := []
  cloudRuns : List BucketScoped := []

/-- A tenant database just after the schema was applied. -/
def TenantStore.empty : TenantStore := {}

/-- The rows of a bucket, in id order. -/
def TenantStore.bucketRows (t : TenantStore) (app bucket : String) : List ErrorRow :=
  t.errors.rows.filter (ErrorRow.inBucket app bucket)

end ReproitCloud
