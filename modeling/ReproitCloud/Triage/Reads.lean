import ReproitCloud.Triage.Resolution
import ReproitCloud.Telemetry.Ingest

/-!
# The paths that compute a bucket's resolution

Four pieces of code feed the resolution engine from the database.

* The detail endpoint reads the bucket's rows once and evaluates on them.
* The timeline endpoint reads the rows, and its evaluation reads them again.
* The sweep's `compute_for_bucket` reads rows and stops at the first failure.
* The bucket list evaluates on the hourly windows of every bucket at once.

The first three take the order of builds and the traffic from `build_traffic`,
and from the newest errors when that table has nothing for the app.  The list
takes them from `build_traffic` only.

Every read can fail.  `ReadFailures` says which reads of one request do.  The
detail and timeline endpoints answer 500 when their first read of the rows
fails, and put an empty result in the place of any other failed read.
-/

namespace ReproitCloud

open Lib

/-- `baseline_sample`: the environment value if it is positive, else 20000. -/
def baselineSample (var : Option Int) : Nat := ((var.filter (0 < ·)).getD 20000).toNat

/-- The configuration the resolution paths read. -/
structure ResolutionConfig where
  /-- The cap on the rows read of a bucket, and of the app's newest errors. -/
  baselineSample : Nat := 20000
  thresholds : Thresholds := {}

/-- Which reads of a request fail. -/
structure ReadFailures where
  occurrences : Bool := false
  triage : Bool := false
  /-- The second read of the rows, made by the timeline's evaluation. -/
  occurrencesAgain : Bool := false
  buildTraffic : Bool := false
  recentErrors : Bool := false
deriving DecidableEq, Repr

/-- The value of a read, or the default of its type when the read failed. -/
def readOr {α : Type} (failed : Bool) (dflt value : α) : α := if failed then dflt else value

/-! ## The reads -/

/-- A row as the reads return it: id, time and record. -/
abbrev ErrorMeta := Nat × Rfc3339 × ErrorRec

def ErrorRow.withMeta (r : ErrorRow) : ErrorMeta := (r.id, toRfc3339 r.createdAt, r.record)

/-- `errors_for_bucket`: `ORDER BY id LIMIT cap`, so the oldest rows. -/
def errorsForBucket (t : TenantStore) (app bucket : String) (cap : Nat) : List ErrorMeta :=
  ((t.bucketRows app bucket).take cap).map ErrorRow.withMeta

/-- `recent_errors_with_meta`: the newest rows of the app, oldest first. -/
def recentErrorsWithMeta (t : TenantStore) (app : String) (limit : Nat) : List ErrorMeta :=
  ((((t.errors.rows.filter fun r => r.appId = app).reverse).take limit).reverse).map
    ErrorRow.withMeta

/-- `build_traffic`: build, batch count and first sight, in order of first sight. -/
def buildTrafficOf (t : TenantStore) (app : String) : List (String × Nat × Rfc3339) :=
  ((t.buildTraffic.rows.filter fun r => r.1.1 = app).insertionSort fun a b =>
    a.2.firstSeen < b.2.firstSeen ∨ a.2.firstSeen = b.2.firstSeen ∧ a.1.2 ≤ b.1.2).map fun r =>
      (r.1.2, r.2.count.toNat, toRfc3339 r.2.firstSeen)

/-- `bucket_window_counts`, for one bucket: hour, build and count.  The empty
build is no build. -/
def bucketWindowCounts (t : TenantStore) (app bucket : String) :
    List (Rfc3339 × Option String × Nat) :=
  ((t.bucketWindows.rows.filter fun r => r.1.appId = app && r.1.bucketId = bucket).insertionSort
    fun a b => a.1.windowStart < b.1.windowStart ∨
      a.1.windowStart = b.1.windowStart ∧ a.1.build ≤ b.1.build).map fun r =>
      (toRfc3339 r.1.windowStart, if r.1.build = "" then none else some r.1.build, r.2.toNat)

/-- A bucket of the list, with its oldest and newest record. -/
structure BucketRollup where
  bucketId : String
  count : Nat
  lastSeen : Rfc3339
  oldest : ErrorRec
  newest : ErrorRec

/-- A summary joined with its two end rows, if both are there. -/
def rollupOf (t : TenantStore) (r : (String × String) × BucketSummary) : Option BucketRollup :=
  match t.errors.rows.find? fun e => e.id = r.2.firstErrorId,
    t.errors.rows.find? fun e => e.id = r.2.lastErrorId with
  | some first, some last =>
    some ⟨r.1.2, r.2.count.toNat, toRfc3339 r.2.lastSeen, first.record, last.record⟩
  | _, _ => none

/-- `bucket_rollups`, in order of first sight. -/
def bucketRollups (t : TenantStore) (app : String) : List BucketRollup :=
  ((t.bucketSummaries.rows.filter fun r => r.1.1 = app).insertionSort fun a b =>
    a.2.firstSeen < b.2.firstSeen ∨ a.2.firstSeen = b.2.firstSeen ∧ a.1.2 ≤ b.1.2).filterMap
      (rollupOf t)

/-- The fix anchor of a bucket: `fixed_in_build` of its triage row. -/
def anchorOf (t : TenantStore) (app bucket : String) : Option String :=
  (t.bucketTriage.get? (app, bucket)).bind TriageRow.fixedInBuild

/-! ## The evaluation -/

/-- The occurrences of rows: their time, and the build of their context. -/
def occurrencesOf (rows : List ErrorMeta) : List Occurrence :=
  rows.map fun r => ⟨r.2.1, buildVersion r.2.2⟩

/-- The traffic rows as occurrences with their counts. -/
def weightedTraffic (rows : List (String × Nat × Rfc3339)) : List (Occurrence × Nat) :=
  rows.map fun r => (⟨r.2.2, some r.1⟩, r.2.1)

/-- The stream that orders the builds: the traffic, or the error stream. -/
def appStreamOf (weighted : List (Occurrence × Nat)) (recent : List Occurrence) :
    List Occurrence :=
  if weighted.isEmpty then recent else weighted.map Prod.fst

/-- The traffic after a fix. -/
def trafficAfter (weighted : List (Occurrence × Nat)) (recent : List Occurrence)
    (fixed : String) : Nat :=
  if weighted.isEmpty then postFixTraffic (appStreamOf weighted recent) fixed
  else postFixBuildTraffic weighted fixed

/-- The evaluation the detail, the timeline and the sweep share. -/
def evaluateOn (cfg : ResolutionConfig) (bug : List Occurrence)
    (weighted : List (Occurrence × Nat)) (recent : List Occurrence) (anchor : Option String)
    (now : Rfc3339) : Outcome :=
  evaluate bug (firstSeenByBuild (appStreamOf weighted recent)) anchor
    (anchor.elim 0 (trafficAfter weighted recent)) now cfg.thresholds

/-- `compute_resolution_for_occurrences`. -/
def computeResolutionForOccurrences (cfg : ResolutionConfig) (t : TenantStore)
    (fails : ReadFailures) (app : String) (anchor : Option String) (bug : List Occurrence)
    (now : Rfc3339) : Outcome :=
  evaluateOn cfg bug
    (weightedTraffic (readOr fails.buildTraffic [] (buildTrafficOf t app)))
    (occurrencesOf (readOr fails.recentErrors [] (recentErrorsWithMeta t app cfg.baselineSample)))
    anchor now

/-- `compute_resolution`. -/
def computeResolution (cfg : ResolutionConfig) (t : TenantStore) (fails : ReadFailures)
    (app bucket : String) (anchor : Option String) (now : Rfc3339) : Outcome :=
  computeResolutionForOccurrences cfg t fails app anchor
    (occurrencesOf
      (readOr fails.occurrencesAgain [] (errorsForBucket t app bucket cfg.baselineSample))) now

/-- What the detail and the timeline answer, as far as the resolution goes. -/
inductive BucketAnswer where
  | internalError
  | notFound
  | found (resolution : Outcome)
deriving DecidableEq, Repr

/-- The status reported, if the answer has one. -/
def BucketAnswer.status : BucketAnswer → Option Resolution
  | found resolution => some resolution.status
  | _ => none

/-- `get_bucket_detail`, after authorization. -/
def getBucketDetail (cfg : ResolutionConfig) (t : TenantStore) (fails : ReadFailures)
    (app bucket : String) (now : Rfc3339) : BucketAnswer :=
  if fails.occurrences then .internalError
  else
    let rows := errorsForBucket t app bucket cfg.baselineSample
    if rows.isEmpty then .notFound
    else
      let fixed := readOr fails.triage none (anchorOf t app bucket)
      .found (computeResolutionForOccurrences cfg t fails app fixed (occurrencesOf rows) now)

/-- `get_bucket_timeline`, after authorization. -/
def getBucketTimeline (cfg : ResolutionConfig) (t : TenantStore) (fails : ReadFailures)
    (app bucket : String) (now : Rfc3339) : BucketAnswer :=
  if fails.occurrences then .internalError
  else
    let rows := errorsForBucket t app bucket cfg.baselineSample
    if rows.isEmpty then .notFound
    else
      let fixed := readOr fails.triage none (anchorOf t app bucket)
      .found (computeResolution cfg t fails app bucket fixed now)

/-- `compute_for_bucket`: nothing when a read it makes fails. -/
def computeForBucket (cfg : ResolutionConfig) (t : TenantStore) (fails : ReadFailures)
    (app bucket fixed : String) (now : Rfc3339) : Option (Outcome × Option String) :=
  let weighted := weightedTraffic (buildTrafficOf t app)
  let recent := occurrencesOf (recentErrorsWithMeta t app cfg.baselineSample)
  let bug := occurrencesOf (errorsForBucket t app bucket cfg.baselineSample)
  if fails.buildTraffic || (weighted.isEmpty && fails.recentErrors) || fails.occurrences then none
  else some (evaluateOn cfg bug weighted recent (some fixed) now,
    latestPostFixBuild bug (firstSeenByBuild (appStreamOf weighted recent)) fixed)

/-- A bucket of the list as far as its resolution goes. -/
structure BucketListItem where
  bucketId : String
  count : Nat
  triage : Option TriageRow
  resolution : Outcome

/-- The evaluation of the list: the windows of the bucket as its occurrences,
and `build_traffic` alone for the order of builds. -/
def listResolution (cfg : ResolutionConfig) (t : TenantStore) (app bucket : String)
    (now : Rfc3339) : Outcome :=
  let weighted := weightedTraffic (buildTrafficOf t app)
  let firstSeen := firstSeenByBuild (weighted.map Prod.fst)
  let fixed := anchorOf t app bucket
  let bug := (bucketWindowCounts t app bucket).map fun w => (⟨w.1, w.2.1⟩ : Occurrence)
  evaluate bug firstSeen fixed (fixed.elim 0 (postFixBuildTraffic weighted)) now cfg.thresholds

/-- `bucket_list_for_tenant`. -/
def bucketListForTenant (cfg : ResolutionConfig) (t : TenantStore) (app : String)
    (now : Rfc3339) : List BucketListItem :=
  (bucketRollups t app).map fun rollup =>
    ⟨rollup.bucketId, rollup.count, t.bucketTriage.get? (app, rollup.bucketId),
      listResolution cfg t app rollup.bucketId now⟩

/-- The status the list shows for a bucket, if it lists it. -/
def listStatus (cfg : ResolutionConfig) (t : TenantStore) (app bucket : String) (now : Rfc3339) :
    Option Resolution :=
  ((bucketListForTenant cfg t app now).find? fun item => item.bucketId = bucket).map fun item =>
    item.resolution.status

end ReproitCloud
