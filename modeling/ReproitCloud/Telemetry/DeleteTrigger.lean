import ReproitCloud.Telemetry.Ingest

/-!
# Deleting errors

`errors` has an `AFTER DELETE ... FOR EACH ROW` trigger that takes a deleted row
off the read models.  PostgreSQL runs it once for each deleted row, in some
order, after the statement has removed all its rows.  So every firing sees the
final `errors` table.  `deleteErrors` is one such statement: the rows go first,
then the trigger fires along `order`, a permutation of the deleted rows.

The trigger is four updates of four tables.  Three always succeed.  The first,
`triggerSummaries`, recomputes the ends of a summary from the rows that remain
when the deleted row was one of the ends.  With no row left the recomputed ends
are NULL, and the columns are `NOT NULL`, so the statement is refused.

Three operations of the service delete errors: the retention delete, the sample
deletion and the deletion of a project.
-/

namespace ReproitCloud

open Lib

/-! ## The trigger -/

/-- The summary part of `remove_error_from_read_models`.  `final` is the `errors`
table after the statement and `old` the deleted row. -/
def triggerSummaries (final : ErrorTable) (old : ErrorRow)
    (s : Table (String × String) BucketSummary) :
    Except SqlError (Table (String × String) BucketSummary) :=
  match old.bucketId with
  | none => .ok s -- `bucket_id=NULL` selects no row
  | some bucket =>
    let key := (old.appId, bucket)
    let s := s.update (fun k _ => k = key) fun _ v => { v with count := v.count - 1 }
    let s := s.delete fun k v => k = key && v.count ≤ 0
    match s.get? key with
    | none => .ok s
    | some v =>
      if v.firstErrorId = old.id ∨ v.lastErrorId = old.id then
        match summarize (final.rows.filter (ErrorRow.inBucket old.appId bucket)) with
        | none => .error (.notNull "bucket_summaries" "first_error_id")
        | some remaining => .ok (s.update (fun k _ => k = key) fun _ v =>
            { remaining with count := v.count })
      else .ok s

/-- The window a row counts in, by the hour of the row and the build of its
context.  A row without a bucket counts in none. -/
def windowKeysOf (R : Renderings) (r : ErrorRow) : List WindowKey :=
  r.bucketId.toList.map fun bucket =>
    ⟨r.appId, bucket, hourStart r.createdAt, sqlBuildKey R r.record.context⟩

/-- The app dimensions a row counts under. -/
def appDimensionsOf (R : Renderings) (r : ErrorRow) : List AppDimension :=
  (sqlDimensions R r.record.context).map fun d => ⟨r.appId, d.1, d.2⟩

/-- The bucket dimensions a row counts under. -/
def bucketDimensionsOf (R : Renderings) (r : ErrorRow) : List BucketDimension :=
  r.bucketId.toList.flatMap fun bucket =>
    (sqlDimensions R r.record.context).map fun d => ⟨r.appId, bucket, d.1, d.2⟩

/-- The window part.  It sweeps every window of the bucket. -/
def triggerWindows (R : Renderings) (old : ErrorRow) (w : Table WindowKey Int) :
    Table WindowKey Int :=
  (windowKeysOf R old).foldl
    (fun w key => w.dropOne (fun k => k.appId = key.appId && k.bucketId = key.bucketId) key) w

/-- The app dimension part of the loop. -/
def triggerAppCounts (R : Renderings) (old : ErrorRow) (c : Table AppDimension Int) :
    Table AppDimension Int :=
  (appDimensionsOf R old).foldl (fun c key => c.dropOne (fun k => k = key) key) c

/-- The bucket dimension part of the loop. -/
def triggerBucketCounts (R : Renderings) (old : ErrorRow) (c : Table BucketDimension Int) :
    Table BucketDimension Int :=
  (bucketDimensionsOf R old).foldl (fun c key => c.dropOne (fun k => k = key) key) c

/-- The store with the given summaries, and `old` taken off the count tables. -/
def takeOff (R : Renderings) (t : TenantStore) (old : ErrorRow)
    (summaries : Table (String × String) BucketSummary) : TenantStore :=
  { t with
    bucketSummaries := summaries
    bucketWindows := triggerWindows R old t.bucketWindows
    appContextCounts := triggerAppCounts R old t.appContextCounts
    bucketContextCounts := triggerBucketCounts R old t.bucketContextCounts }

/-- `remove_error_from_read_models`, for one deleted row. -/
def removeErrorFromReadModels (R : Renderings) (t : TenantStore) (old : ErrorRow) :
    Except SqlError TenantStore :=
  (triggerSummaries t.errors old t.bucketSummaries).map (takeOff R t old)

/-! ## The statements -/

/-- The storage trigger for evidence rows that go. -/
def releaseStorage (usage : Table String Int) (gone : List EvidenceRow) : Table String Int :=
  gone.foldl (fun u e => u.update (fun app _ => app = e.appId) fun _ n => max 0 (n - e.bytes)) usage

/-- The rows removed, with the evidence that cascades, before any firing. -/
def removeErrorRows (t : TenantStore) (p : ErrorRow → Bool) : TenantStore :=
  let gone := t.evidence.filter fun e => t.errors.rows.any fun r => p r && r.id = e.errorId
  { t with
    errors := t.errors.delete p
    evidence := t.evidence.filter fun e => !t.errors.rows.any fun r => p r && r.id = e.errorId
    appStorageUsage := releaseStorage t.appStorageUsage gone }

/-- `DELETE FROM errors WHERE p`, with the trigger firing along `order`. -/
def deleteErrors (R : Renderings) (t : TenantStore) (p : ErrorRow → Bool)
    (order : List ErrorRow) : Except SqlError TenantStore :=
  order.foldlM (removeErrorFromReadModels R) (removeErrorRows t p)

/-- The rows of `errors` that `p` selects. -/
def TenantStore.selected (t : TenantStore) (p : ErrorRow → Bool) : List ErrorRow :=
  t.errors.rows.filter p

/-- The microseconds of a day. -/
def microsPerDay : Int := 24 * microsPerHour

/-- The rows `delete_expired_errors` selects: older than `days`, without
evidence, the first `limit` of them by id. -/
def expiredErrors (t : TenantStore) (now : Micros) (days : Int) (limit : Nat) (r : ErrorRow) :
    Bool :=
  (((t.errors.rows.filter fun r => r.createdAt < now - days * microsPerDay &&
    !t.evidence.any fun e => e.errorId = r.id).take limit).map ErrorRow.id).contains r.id

/-- `delete_expired_errors`. -/
def deleteExpiredErrors (R : Renderings) (t : TenantStore) (now : Micros) (days : Int)
    (limit : Nat) (order : List ErrorRow) : Except SqlError TenantStore :=
  deleteErrors R t (expiredErrors t now days limit) order

/-- The rows `delete_sample_bucket_data` selects. -/
def sampleErrors (app bucket : String) (ids : List Nat) (r : ErrorRow) : Bool :=
  r.inBucket app bucket && ids.contains r.id

/-- The cleanup of an emptied bucket. -/
def clearBucket (t : TenantStore) (app bucket : String) : TenantStore :=
  let other (r : BucketScoped) : Bool := !(r.appId = app && r.bucketId = bucket)
  let here (k : String × String) : Bool := k = (app, bucket)
  { t with
    bucketSummaries := t.bucketSummaries.delete fun k _ => here k
    bucketWindows := t.bucketWindows.delete fun k _ => k.appId = app && k.bucketId = bucket
    bucketContextCounts :=
      t.bucketContextCounts.delete fun k _ => k.appId = app && k.bucketId = bucket
    replayResults := t.replayResults.filter other
    bucketTickets := t.bucketTickets.delete fun k _ => here k
    bucketTriage := t.bucketTriage.delete fun k _ => here k
    bucketResolutionStatus := t.bucketResolutionStatus.delete fun k _ => here k
    bucketResolutionEvents :=
      t.bucketResolutionEvents.filter fun r => !(r.appId = app && r.bucketId = bucket)
    cloudRuns := t.cloudRuns.filter other }

/-- `delete_sample_bucket_data`: the number of rows deleted, the storage keys of
their evidence, and the store after the transaction. -/
def deleteSampleBucketData (R : Renderings) (t : TenantStore) (app bucket : String)
    (ids : List Nat) (order : List ErrorRow) :
    Except SqlError (Nat × List String × TenantStore) := do
  if ids.isEmpty then
    return (0, [], t)
  let keys := (t.evidence.filter fun e => e.appId = app && ids.contains e.errorId).map
    EvidenceRow.storageKey
  let deleted := (t.selected (sampleErrors app bucket ids)).length
  let t ← deleteErrors R t (sampleErrors app bucket ids) order
  if (t.bucketRows app bucket).isEmpty then
    return (deleted, keys, clearBucket t app bucket)
  return (deleted, keys, t)

/-- The tables `delete_project_by_app` clears before `errors`. -/
def clearBeforeErrors (t : TenantStore) (app : String) : TenantStore :=
  { t with
    evidence := t.evidence.filter fun e => e.appId ≠ app
    appStorageUsage := t.appStorageUsage.delete fun k _ => k = app
    artifactRoots := t.artifactRoots.delete fun k _ => k.1 = app
    artifactNodes := t.artifactNodes.delete fun k _ => k.1 = app
    bucketSummaries := t.bucketSummaries.delete fun k _ => k.1 = app
    bucketWindows := t.bucketWindows.delete fun k _ => k.appId = app
    appContextCounts := t.appContextCounts.delete fun k _ => k.appId = app
    bucketContextCounts := t.bucketContextCounts.delete fun k _ => k.appId = app }

/-- The tables it clears after `errors`. -/
def clearAfterErrors (t : TenantStore) (app : String) : TenantStore :=
  { t with
    edges := t.edges.delete fun k _ => k.1 = app
    buildTraffic := t.buildTraffic.delete fun k _ => k.1 = app
    processedBatches := t.processedBatches.delete fun k _ => k.1 = app
    replayResults := t.replayResults.filter fun r => r.appId ≠ app
    bucketTickets := t.bucketTickets.delete fun k _ => k.1 = app
    integrationOutbox := t.integrationOutbox.delete fun k _ => k.1 = app
    bucketTriage := t.bucketTriage.delete fun k _ => k.1 = app
    bucketResolutionStatus := t.bucketResolutionStatus.delete fun k _ => k.1 = app
    bucketResolutionEvents := t.bucketResolutionEvents.filter fun r => r.appId ≠ app
    cloudRuns := t.cloudRuns.filter fun r => r.appId ≠ app }

/-- `delete_project_by_app`, in the source's table order: the read models of the
app go before its errors, so the trigger finds no row to update. -/
def deleteProjectByApp (R : Renderings) (t : TenantStore) (app : String)
    (order : List ErrorRow) : Except SqlError TenantStore :=
  (deleteErrors R (clearBeforeErrors t app) (fun r => r.appId = app) order).map fun t =>
    clearAfterErrors t app

end ReproitCloud
