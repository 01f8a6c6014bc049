import ReproitCloud.Captures.Uploads
import ReproitCloud.Lib.Shards
import ReproitCloud.Telemetry.ErrorLog

/-!
# The apps of a tenant

All apps of a tenant share its tables.  `TenantStore.view` is what one app has in them: its rows,
table by table.

* `other_apps_untouched`: a run of transactions that are about other apps leaves what an app has as
  it is, whatever the delete trigger and the cascades do.
* `project_deletion_exact`: whatever uploads are under way, the transaction that ends a project
  leaves nothing of its app in any table, and everything of the others.

Both rest on `EvidenceOwned`: evidence is filed under the app of its error, so that what cascades
from the errors of an app is evidence of that app.  The upload reads the error among those of its
app (`bucket_error_ids`), and an id is given out once.
-/

namespace ReproitCloud

open Lib

/-! ## What an app has -/

/-- The rows of an app. -/
structure AppView where
  errors : List ErrorRow
  bucketSummaries : List ((String × String) × BucketSummary)
  bucketWindows : List (WindowKey × Int)
  appContextCounts : List (AppDimension × Int)
  bucketContextCounts : List (BucketDimension × Int)
  buildTraffic : List ((String × String) × BuildTraffic)
  edges : List ((String × String) × Int)
  processedBatches : List ((String × String) × Micros)
  integrationOutbox : List ((String × String × String) × OutboxRow)
  artifactNodes : List ((String × String) × ArtifactNode)
  artifactRoots : List ((String × String × String) × Unit)
  evidence : List EvidenceRow
  appStorageUsage : List (String × Int)
  bucketTriage : List ((String × String) × TriageRow)
  bucketTickets : List ((String × String) × TicketLink)
  bucketResolutionStatus : List ((String × String) × (String × Option String))
  replayResults : List BucketScoped
  bucketResolutionEvents : List ResolutionEventRow
  cloudRuns : List BucketScoped

/-- An app without rows. -/
def AppView.none : AppView :=
  ⟨[], [], [], [], [], [], [], [], [], [], [], [], [], [], [], [], [], [], []⟩

/-- What an app has in the tables of its tenant. -/
def TenantStore.view (t : TenantStore) (app : String) : AppView where
  errors := t.errors.rows.filter fun r => r.appId = app
  bucketSummaries := t.bucketSummaries.shard Prod.fst app
  bucketWindows := t.bucketWindows.shard WindowKey.appId app
  appContextCounts := t.appContextCounts.shard AppDimension.appId app
  bucketContextCounts := t.bucketContextCounts.shard BucketDimension.appId app
  buildTraffic := t.buildTraffic.shard Prod.fst app
  edges := t.edges.shard Prod.fst app
  processedBatches := t.processedBatches.shard Prod.fst app
  integrationOutbox := t.integrationOutbox.shard Prod.fst app
  artifactNodes := t.artifactNodes.shard Prod.fst app
  artifactRoots := t.artifactRoots.shard Prod.fst app
  evidence := t.evidence.filter fun e => e.appId = app
  appStorageUsage := t.appStorageUsage.shard (fun k => k) app
  bucketTriage := t.bucketTriage.shard Prod.fst app
  bucketTickets := t.bucketTickets.shard Prod.fst app
  bucketResolutionStatus := t.bucketResolutionStatus.shard Prod.fst app
  replayResults := t.replayResults.filter fun r => r.appId = app
  bucketResolutionEvents := t.bucketResolutionEvents.filter fun r => r.appId = app
  cloudRuns := t.cloudRuns.filter fun r => r.appId = app

/-- Evidence is filed under the app of its error, which is there. -/
def TenantStore.EvidenceOwned (t : TenantStore) : Prop :=
  ∀ e ∈ t.evidence, ∃ r ∈ t.errors.rows, r.id = e.errorId ∧ r.appId = e.appId

/-- A transaction that is about other apps. -/
def TelemetryEvent.Spares (app : String) : TelemetryEvent → Prop
  | .ingest _ b => b.appId ≠ app
  | .deleteErrors p => ∀ r, r.appId = app → p r = false
  | .deleteSample a _ _ => a ≠ app
  | .deleteProject a => a ≠ app

/-! ## Ingest -/

section Ingest

variable {P : Platform} {t t' : TenantStore} {now : Micros} {b : IngestBatch} {app other : String}

theorem view_recordTraffic (hother : other ≠ app) (deployment : Option String) :
    (recordTraffic t now other deployment).view app = t.view app := by
  cases deployment with
  | none => rfl
  | some build =>
    have hkey : ((other, build) : String × String).1 ≠ app := hother
    exact congrArg (fun rows => { t.view app with buildTraffic := rows })
      (Table.shard_upsert hkey t.buildTraffic _ _)

theorem view_upsertEdges {edges : List (String × Int)} (hother : other ≠ app)
    (h : upsertEdges t other edges = .ok t') : t'.view app = t.view app := by
  rw [upsertEdges] at h
  split at h
  · cases h
    have hkeep : (edges.foldl (fun es e => es.upsert (other, e.1) e.2 (· + e.2)) t.edges).shard
        Prod.fst app = t.edges.shard Prod.fst app :=
      Table.shard_foldl (fun es e _ => Table.shard_upsert hother es _ _) t.edges
    exact congrArg (fun rows => { t.view app with edges := rows }) hkeep
  · cases h

theorem view_enqueueIssues (hother : other ≠ app) (buckets : List String) :
    (enqueueIssues t now other buckets).view app = t.view app := by
  unfold enqueueIssues
  generalize buckets.dedup.insertionSort (· ≤ ·) = bs
  induction bs generalizing t with
  | nil => rfl
  | cons bucket bs ih =>
    have hkey : ((other, bucket, "file-issue") : String × String × String).1 ≠ app := hother
    exact ih.trans (congrArg (fun rows => { t.view app with integrationOutbox := rows })
      (Table.shard_insertIgnore hkey t.integrationOutbox _))

theorem shard_upsertSummaries (hother : other ≠ app) (s : Table (String × String) BucketSummary)
    (buckets : List String) (inserted : List ErrorRow) :
    (upsertSummaries s other buckets inserted).shard Prod.fst app = s.shard Prod.fst app := by
  refine Table.shard_foldl (fun s bucket _ => ?_) s
  rw [upsertSummary]
  split
  · exact Table.shard_upsert hother s _ _
  · rfl

/-- The rows of a batch are its app's. -/
theorem filter_insert {errors : ErrorTable} {es : List NewError} (h : ∀ e ∈ es, e.appId ≠ app) :
    ((errors.insert es).rows.filter fun r => r.appId = app) =
      errors.rows.filter fun r => r.appId = app := by
  have hnone : ((numbered errors.nextId es).filter fun r => r.appId = app) = [] := by
    rw [List.filter_eq_nil_iff]
    intro r hr
    obtain ⟨e, he, id, rfl⟩ := exists_of_mem_numbered hr
    exact fun heq => h e he (of_decide_eq_true heq)
  rw [ErrorTable.insert, List.filter_append, hnone, List.append_nil]

theorem view_insertErrors (hother : b.appId ≠ app) :
    (insertErrors P t now b).view app = t.view app := by
  refine (view_enqueueIssues hother _).trans ?_
  have herrors : ∀ e ∈ b.errors.map (newError P now b.appId), e.appId ≠ app := by
    intro e he
    obtain ⟨record, -, rfl⟩ := List.mem_map.1 he
    exact hother
  have hdimensions : ∀ d ∈ batchAppDimensions P b, d.appId ≠ app := by
    intro d hd
    obtain ⟨record, -, hd⟩ := List.mem_flatMap.1 hd
    obtain ⟨v, -, rfl⟩ := List.mem_map.1 hd
    exact hother
  have hbuckets : ∀ d ∈ batchBucketDimensions P b, d.appId ≠ app := by
    intro d hd
    obtain ⟨record, -, hd⟩ := List.mem_flatMap.1 hd
    obtain ⟨v, -, rfl⟩ := List.mem_map.1 hd
    exact hother
  have hwindows : ∀ k ∈ batchWindows P now b, k.appId ≠ app := by
    intro k hk
    obtain ⟨bucket, -, rfl⟩ := List.mem_map.1 hk
    exact hother
  simp only [TenantStore.view, filter_insert herrors, shard_upsertSummaries hother,
    Table.shard_bumpGroups hdimensions, Table.shard_bumpGroups hbuckets,
    Table.shard_bumpGroups hwindows]

theorem view_storeGraphs {evidence : List EvidenceGraph} (hother : other ≠ app)
    (h : storeGraphs t other evidence = .ok t') : t'.view app = t.view app := by
  simp only [storeGraphs] at h
  split at h
  · cases h
    rfl
  · split at h
    · cases h
      have hnodes : ((evidence.flatMap EvidenceGraph.nodes).foldl
          (fun ns n => ns.insertIgnore (other, n.id) n) t.artifactNodes).shard Prod.fst app =
            t.artifactNodes.shard Prod.fst app :=
        Table.shard_foldl (fun ns n _ => Table.shard_insertIgnore hother ns _) t.artifactNodes
      have hroots : (evidence.foldl (fun rs g => rs.insertIgnore (other, g.runId, g.root) ())
          t.artifactRoots).shard Prod.fst app = t.artifactRoots.shard Prod.fst app :=
        Table.shard_foldl (fun rs g _ => Table.shard_insertIgnore hother rs _) t.artifactRoots
      simp only [TenantStore.view, hnodes, hroots]
    · cases h

/-- A batch of another app leaves an app as it is. -/
theorem view_ingestBatch {dup : Bool} (hother : b.appId ≠ app)
    (h : ingestBatch P t now b = .ok (dup, t')) : t'.view app = t.view app := by
  simp only [ingestBatch, pure, Except.pure, bind, Except.bind] at h
  split at h
  · cases h
    rfl
  split at h
  · cases h
    rfl
  split at h
  · cases h
  rename_i t1 hedges
  split at h
  · cases h
  rename_i t2 hgraphs
  cases h
  have hconsumed : TenantStore.view { t with
      processedBatches := t.processedBatches.insertIgnore (b.appId, b.batchId) now } app =
        t.view app := by
    have hkey : ((b.appId, b.batchId) : String × String).1 ≠ app := hother
    exact congrArg (fun rows => { t.view app with processedBatches := rows })
      (Table.shard_insertIgnore hkey t.processedBatches _)
  have hbefore := (view_upsertEdges hother hedges).trans
    ((view_recordTraffic hother b.deployment).trans hconsumed)
  refine (view_storeGraphs hother hgraphs).trans (Eq.trans ?_ hbefore)
  split
  · rfl
  · exact view_insertErrors hother

/-- Evidence stays owned when errors come. -/
theorem evidenceOwned_ingestBatch {dup : Bool} (h : ingestBatch P t now b = .ok (dup, t'))
    (ht : t.EvidenceOwned) : t'.EvidenceOwned := by
  have hevidence : t'.evidence = t.evidence := by
    rw [ingestedFrom_ingestBatch h]
    rfl
  have herrors : t.errors.rows ⊆ t'.errors.rows := by
    rcases ingestBatch_cases h with ⟨rfl, -⟩ | ⟨-, hingested⟩
    · exact fun _ => id
    · obtain ⟨traffic, htraffic⟩ := recordTraffic_eq t now b.appId b.deployment
      rw [hingested.inserted.errors, htraffic]
      exact List.subset_append_left _ _
  intro e he
  rw [hevidence] at he
  obtain ⟨r, hr, hrest⟩ := ht e he
  exact ⟨r, herrors hr, hrest⟩

end Ingest

/-! ## Deletions -/

section Deletions

variable {R : Renderings} {t t' : TenantStore} {p : ErrorRow → Bool} {order : List ErrorRow}
  {app other : String}

/-- Storage that is released for others. -/
theorem shard_releaseStorage {usage : Table String Int} {gone : List EvidenceRow}
    (h : ∀ e ∈ gone, e.appId ≠ app) :
    (releaseStorage usage gone).shard (fun k => k) app = usage.shard (fun k => k) app :=
  Table.shard_foldl (fun u e he => Table.shard_update
    (fun _ _ hk => decide_eq_false fun heq => h e he (heq.symm.trans hk)) u) usage

theorem shard_triggerSummaries {final : ErrorTable} {old : ErrorRow}
    {s s' : Table (String × String) BucketSummary} (hold : old.appId ≠ app)
    (h : triggerSummaries final old s = .ok s') : s'.shard Prod.fst app = s.shard Prod.fst app := by
  rw [triggerSummaries] at h
  cases hbucket : old.bucketId with
  | none =>
    rw [hbucket] at h
    cases h
    rfl
  | some bucket =>
    rw [hbucket] at h
    have hkey : ∀ k : String × String, k.1 = app → decide (k = (old.appId, bucket)) = false :=
      fun k hk => decide_eq_false fun heq => hold (by rw [← hk, heq])
    have hless : ((s.update (fun k _ => k = (old.appId, bucket)) fun _ v =>
        { v with count := v.count - 1 }).delete fun k v =>
          k = (old.appId, bucket) && v.count ≤ 0).shard Prod.fst app = s.shard Prod.fst app := by
      rw [Table.shard_delete fun k v hk => by rw [hkey k hk, Bool.false_and],
        Table.shard_update fun k v hk => hkey k hk]
    simp only at h
    split at h
    · cases h
      exact hless
    · split at h
      · split at h
        · cases h
        · cases h
          rw [Table.shard_update fun k v hk => hkey k hk]
          exact hless
      · cases h
        exact hless

/-- A firing for an error of another app. -/
theorem view_removeError {old : ErrorRow} (hold : old.appId ≠ app)
    (h : removeErrorFromReadModels R t old = .ok t') : t'.view app = t.view app := by
  obtain ⟨summaries, hs, rfl⟩ := removeErrorFromReadModels_inv h
  have hwindows : (triggerWindows R old t.bucketWindows).shard WindowKey.appId app =
      t.bucketWindows.shard WindowKey.appId app := by
    refine Table.shard_foldl (fun w k hk => Table.shard_dropOne ?_ ?_ w) t.bucketWindows
    · rw [windowKeysOf_app hk]
      exact hold
    · intro k' hk'
      rw [Bool.and_eq_true, decide_eq_true_eq] at hk'
      exact hk'.1
  have happs : (triggerAppCounts R old t.appContextCounts).shard AppDimension.appId app =
      t.appContextCounts.shard AppDimension.appId app := by
    refine Table.shard_foldl (fun c k hk => Table.shard_dropOne ?_ ?_ c) t.appContextCounts
    · rw [appDimensionsOf_app hk]
      exact hold
    · intro k' hk'
      rw [of_decide_eq_true hk']
  have hbuckets : (triggerBucketCounts R old t.bucketContextCounts).shard BucketDimension.appId
      app = t.bucketContextCounts.shard BucketDimension.appId app := by
    refine Table.shard_foldl (fun c k hk => Table.shard_dropOne ?_ ?_ c) t.bucketContextCounts
    · rw [bucketDimensionsOf_app hk]
      exact hold
    · intro k' hk'
      rw [of_decide_eq_true hk']
  simp only [takeOff, TenantStore.view, shard_triggerSummaries hold hs, hwindows, happs, hbuckets]

/-- Rows of other apps that go, with the evidence that cascades. -/
theorem view_removeErrorRows (hspares : ∀ r, r.appId = app → p r = false) (ht : t.EvidenceOwned) :
    (removeErrorRows t p).view app = t.view app := by
  -- evidence of the app belongs to an error of the app, which stays
  have hkept : ∀ e ∈ t.evidence, e.appId = app →
      (t.errors.rows.any fun r => p r && r.id = e.errorId) = false := by
    intro e he happ
    rw [List.any_eq_false]
    intro r hr hgone
    rw [Bool.and_eq_true, decide_eq_true_eq] at hgone
    obtain ⟨r', hr', hid, howner⟩ := ht e he
    obtain rfl := ErrorTable.eq_of_id hr hr' (hgone.2.trans hid.symm)
    rw [hspares r (howner.trans happ)] at hgone
    exact Bool.false_ne_true hgone.1
  have herrors : ((t.errors.delete p).rows.filter fun r => r.appId = app) =
      t.errors.rows.filter fun r => r.appId = app := by
    rw [ErrorTable.delete, List.filter_filter]
    refine List.filter_congr fun r _ => ?_
    by_cases hr : r.appId = app
    · rw [hspares r hr, decide_eq_true hr]
      rfl
    · rw [decide_eq_false hr, Bool.false_and]
  have hevidence : ((t.evidence.filter fun e =>
      !t.errors.rows.any fun r => p r && r.id = e.errorId).filter fun e => e.appId = app) =
        t.evidence.filter fun e => e.appId = app := by
    rw [List.filter_filter]
    refine List.filter_congr fun e he => ?_
    by_cases happ : e.appId = app
    · rw [hkept e he happ, decide_eq_true happ]
      rfl
    · rw [decide_eq_false happ, Bool.false_and]
  have husage : (releaseStorage t.appStorageUsage (t.evidence.filter fun e =>
      t.errors.rows.any fun r => p r && r.id = e.errorId)).shard (fun k => k) app =
        t.appStorageUsage.shard (fun k => k) app := by
    refine shard_releaseStorage fun e he happ => ?_
    obtain ⟨he, hgone⟩ := List.mem_filter.1 he
    rw [hkept e he happ] at hgone
    exact Bool.false_ne_true hgone
  simp only [removeErrorRows, TenantStore.view, herrors, hevidence, husage]

theorem view_deleteErrors (horder : order.Perm (t.selected p))
    (hspares : ∀ r, r.appId = app → p r = false) (ht : t.EvidenceOwned)
    (h : deleteErrors R t p order = .ok t') : t'.view app = t.view app := by
  have hfirings := firings_invariant
    (fun u pending => u.view app = t.view app ∧ ∀ r ∈ pending, p r = true)
    (fun u v old pending hu hfire => ⟨(view_removeError (fun happ => by
        have hselected := hu.2 old List.mem_cons_self
        rw [hspares old happ] at hselected
        exact Bool.false_ne_true hselected) hfire).trans hu.1,
      fun r hr => hu.2 r (List.mem_cons_of_mem old hr)⟩)
    ⟨view_removeErrorRows hspares ht, fun r hr =>
      (List.mem_filter.1 (horder.mem_iff.1 hr)).2⟩ h
  exact hfirings.1

theorem evidenceOwned_removeErrorRows (ht : t.EvidenceOwned) :
    (removeErrorRows t p).EvidenceOwned := by
  intro e he
  obtain ⟨he, hstays⟩ := List.mem_filter.1 he
  obtain ⟨r, hr, hid, happ⟩ := ht e he
  refine ⟨r, List.mem_filter.2 ⟨hr, ?_⟩, hid, happ⟩
  rw [Bool.not_eq_true', List.any_eq_false] at hstays
  have hnot := hstays r hr
  rw [decide_eq_true hid, Bool.and_true] at hnot
  simpa using hnot

theorem evidenceOwned_deleteErrors (h : deleteErrors R t p order = .ok t') (ht : t.EvidenceOwned) :
    t'.EvidenceOwned := by
  obtain ⟨herrors, hevidence⟩ := errors_deleteErrors h
  have hremoved := evidenceOwned_removeErrorRows (p := p) ht
  intro e he
  rw [hevidence] at he
  rw [herrors]
  exact hremoved e he

theorem filter_of_imp {α : Type} {xs : List α} {p q : α → Bool}
    (h : ∀ x, q x = true → p x = true) : (xs.filter p).filter q = xs.filter q := by
  rw [List.filter_filter]
  refine List.filter_congr fun x _ => ?_
  cases hq : q x with
  | true => rw [h x hq, Bool.and_self]
  | false => rw [Bool.false_and]

theorem view_clearBucket {bucket : String} (hother : other ≠ app) :
    (clearBucket t other bucket).view app = t.view app := by
  have hkey : ∀ k : String × String, k.1 = app → decide (k = (other, bucket)) = false :=
    fun k hk => decide_eq_false fun heq => hother (by rw [← hk, heq])
  have hname : ∀ {a b : String}, a = app →
      (!(decide (a = other) && decide (b = bucket))) = true := by
    intro a b ha
    rw [decide_eq_false fun heq : a = other => hother (heq.symm.trans ha)]
    rfl
  have hwindows : ∀ w : Table WindowKey Int,
      (w.delete fun k _ => k.appId = other && k.bucketId = bucket).shard WindowKey.appId app =
        w.shard WindowKey.appId app :=
    Table.shard_delete fun k _ hk => by
      rw [decide_eq_false fun heq : k.appId = other => hother (heq.symm.trans hk), Bool.false_and]
  have hcounts : ∀ c : Table BucketDimension Int,
      (c.delete fun k _ => k.appId = other && k.bucketId = bucket).shard BucketDimension.appId app =
        c.shard BucketDimension.appId app :=
    Table.shard_delete fun k _ hk => by
      rw [decide_eq_false fun heq : k.appId = other => hother (heq.symm.trans hk), Bool.false_and]
  simp only [clearBucket, TenantStore.view, Table.shard_delete fun k _ hk => hkey k hk, hwindows,
    hcounts, filter_of_imp fun r hr => hname (of_decide_eq_true hr)]

theorem view_deleteSample {bucket : String} {ids : List Nat} {n : Nat} {keys : List String}
    (horder : order.Perm (t.selected (sampleErrors other bucket ids))) (hother : other ≠ app)
    (ht : t.EvidenceOwned)
    (h : deleteSampleBucketData R t other bucket ids order = .ok (n, keys, t')) :
    t'.view app = t.view app := by
  have hspares : ∀ r : ErrorRow, r.appId = app → sampleErrors other bucket ids r = false := by
    intro r hr
    rw [sampleErrors, ErrorRow.inBucket, decide_eq_false fun heq => hother (heq.symm.trans hr)]
    rfl
  rcases deleteSampleBucketData_cases h with rfl | ⟨u, hu, rfl | ⟨-, rfl⟩⟩
  · rfl
  · exact view_deleteErrors horder hspares ht hu
  · exact (view_clearBucket hother).trans (view_deleteErrors horder hspares ht hu)

theorem evidenceOwned_deleteSample {bucket : String} {ids : List Nat} {n : Nat}
    {keys : List String} (h : deleteSampleBucketData R t other bucket ids order = .ok (n, keys, t'))
    (ht : t.EvidenceOwned) : t'.EvidenceOwned := by
  rcases deleteSampleBucketData_cases h with rfl | ⟨u, hu, hcleared⟩
  · exact ht
  · have hkept : u.EvidenceOwned := evidenceOwned_deleteErrors hu ht
    rcases hcleared with rfl | ⟨-, rfl⟩
    · exact hkept
    · exact hkept

end Deletions

/-! ## The end of a project -/

section Projects

variable {R : Renderings} {t t' : TenantStore} {order : List ErrorRow} {app other : String}

theorem filter_other {α : Type} {appOf : α → String} (hother : other ≠ app) (xs : List α) :
    ((xs.filter fun x => appOf x ≠ other).filter fun x => appOf x = app) =
      xs.filter fun x => appOf x = app :=
  filter_of_imp fun _ hx => decide_eq_true fun heq =>
    hother (heq.symm.trans (of_decide_eq_true hx))

theorem filter_own {α : Type} {appOf : α → String} (xs : List α) :
    ((xs.filter fun x => appOf x ≠ app).filter fun x => appOf x = app) = [] := by
  rw [List.filter_filter, List.filter_eq_nil_iff]
  intro x _
  simp

theorem view_clearBeforeErrors (hother : other ≠ app) :
    (clearBeforeErrors t other).view app = t.view app := by
  simp only [clearBeforeErrors, TenantStore.view, Table.shard_delete_other hother,
    filter_other hother]

theorem view_clearAfterErrors (hother : other ≠ app) :
    (clearAfterErrors t other).view app = t.view app := by
  simp only [clearAfterErrors, TenantStore.view, Table.shard_delete_other hother,
    filter_other hother]

theorem evidenceOwned_clearBeforeErrors (ht : t.EvidenceOwned) :
    (clearBeforeErrors t app).EvidenceOwned :=
  fun e he => ht e (List.mem_filter.1 he).1

/-- The end of a project leaves another app as it is. -/
theorem view_deleteProject (horder : order.Perm (t.selected fun r => r.appId = other))
    (hother : other ≠ app) (ht : t.EvidenceOwned)
    (h : deleteProjectByApp R t other order = .ok t') : t'.view app = t.view app := by
  obtain ⟨u, hu, -, -, rfl⟩ := deleteProjectByApp_inv horder h
  rw [view_clearAfterErrors hother]
  have hdelete : deleteErrors R (clearBeforeErrors t other) (fun r => r.appId = other) order =
      .ok u := hu
  have hselected : order.Perm ((clearBeforeErrors t other).selected fun r => r.appId = other) :=
    horder
  exact (view_deleteErrors hselected
    (fun r hr => decide_eq_false fun heq => hother (heq.symm.trans hr))
    (evidenceOwned_clearBeforeErrors ht) hdelete).trans (view_clearBeforeErrors hother)

theorem evidenceOwned_deleteProject (h : deleteProjectByApp R t other order = .ok t')
    (ht : t.EvidenceOwned) : t'.EvidenceOwned := by
  unfold deleteProjectByApp at h
  cases hdelete : deleteErrors R (clearBeforeErrors t other) (fun r => r.appId = other) order with
  | error e =>
    rw [hdelete] at h
    cases h
  | ok u =>
    rw [hdelete] at h
    cases h
    have hkept : u.EvidenceOwned :=
      evidenceOwned_deleteErrors hdelete (evidenceOwned_clearBeforeErrors ht)
    exact hkept

/-- The tables that are cleared before the errors hold nothing of an app. -/
structure ClearedFor (app : String) (t : TenantStore) : Prop where
  errors : (t.errors.rows.filter fun r => r.appId = app) = []
  evidence : (t.evidence.filter fun e => e.appId = app) = []
  summaries : t.bucketSummaries.shard Prod.fst app = []
  windows : t.bucketWindows.shard WindowKey.appId app = []
  appCounts : t.appContextCounts.shard AppDimension.appId app = []
  bucketCounts : t.bucketContextCounts.shard BucketDimension.appId app = []
  nodes : t.artifactNodes.shard Prod.fst app = []
  roots : t.artifactRoots.shard Prod.fst app = []
  usage : t.appStorageUsage.shard (fun k => k) app = []

theorem triggerSummaries_eq_nil {final : ErrorTable} {old : ErrorRow}
    {s s' : Table (String × String) BucketSummary} (hs : s.shard Prod.fst app = [])
    (h : triggerSummaries final old s = .ok s') : s'.shard Prod.fst app = [] := by
  rw [triggerSummaries] at h
  cases hbucket : old.bucketId with
  | none =>
    rw [hbucket] at h
    cases h
    exact hs
  | some bucket =>
    rw [hbucket] at h
    have hless := Table.shard_delete_eq_nil (fun k v => k = (old.appId, bucket) && v.count ≤ 0)
      (Table.shard_update_eq_nil (fun k _ => k = (old.appId, bucket))
        (fun _ v => { v with count := v.count - 1 }) hs)
    simp only at h
    split at h
    · cases h
      exact hless
    · split at h
      · split at h
        · cases h
        · cases h
          exact Table.shard_update_eq_nil _ _ hless
      · cases h
        exact hless

/-- A firing brings nothing back. -/
theorem ClearedFor.fire {old : ErrorRow} (h : ClearedFor app t)
    (hfire : removeErrorFromReadModels R t old = .ok t') : ClearedFor app t' := by
  obtain ⟨summaries, hs, rfl⟩ := removeErrorFromReadModels_inv hfire
  exact
    { h with
      summaries := triggerSummaries_eq_nil h.summaries hs
      windows := Table.shard_foldl_eq_nil (fun _ k hnil => Table.shard_dropOne_eq_nil _ k hnil)
        h.windows
      appCounts := Table.shard_foldl_eq_nil (fun _ k hnil => Table.shard_dropOne_eq_nil _ k hnil)
        h.appCounts
      bucketCounts := Table.shard_foldl_eq_nil
        (fun _ k hnil => Table.shard_dropOne_eq_nil _ k hnil) h.bucketCounts }

theorem clearedFor_removeErrorRows (t : TenantStore) (app : String) :
    ClearedFor app (removeErrorRows (clearBeforeErrors t app) fun r => r.appId = app) where
  errors := by
    rw [removeErrorRows, ErrorTable.delete, List.filter_filter, List.filter_eq_nil_iff]
    intro r _
    simp
  evidence := by
    have hnone : ((t.evidence.filter fun e => e.appId ≠ app).filter fun e => e.appId = app) = [] :=
      filter_own t.evidence
    rw [List.filter_eq_nil_iff] at hnone
    rw [removeErrorRows, List.filter_eq_nil_iff]
    exact fun e he => hnone e (List.mem_filter.1 he).1
  summaries := Table.shard_delete_owner t.bucketSummaries
  windows := Table.shard_delete_owner t.bucketWindows
  appCounts := Table.shard_delete_owner t.appContextCounts
  bucketCounts := Table.shard_delete_owner t.bucketContextCounts
  nodes := Table.shard_delete_owner t.artifactNodes
  roots := Table.shard_delete_owner t.artifactRoots
  usage := Table.shard_foldl_eq_nil (fun _ _ hnil => Table.shard_update_eq_nil _ _ hnil)
    (Table.shard_delete_owner t.appStorageUsage)

/-- The end of a project leaves nothing of its app. -/
theorem view_deleted (horder : order.Perm (t.selected fun r => r.appId = app))
    (h : deleteProjectByApp R t app order = .ok t') : t'.view app = AppView.none := by
  obtain ⟨u, hu, -, -, rfl⟩ := deleteProjectByApp_inv horder h
  have hcleared : ClearedFor app u :=
    firings_invariant (fun u _ => ClearedFor app u) (fun _ _ _ _ hu hfire => hu.fire hfire)
      (clearedFor_removeErrorRows t app) hu
  simp only [TenantStore.view, clearAfterErrors, hcleared.errors, hcleared.evidence,
    hcleared.summaries, hcleared.windows, hcleared.appCounts, hcleared.bucketCounts, hcleared.nodes,
    hcleared.roots, hcleared.usage, Table.shard_delete_owner, filter_own, AppView.none]

end Projects

/-! ## Runs -/

section Runs

variable {P : Platform} {t t' : TenantStore} {app : String}

theorem evidenceOwned_step {e : TelemetryEvent} (h : TelemetryStep P t e t')
    (ht : t.EvidenceOwned) : t'.EvidenceOwned := by
  cases h with
  | ingest h => exact evidenceOwned_ingestBatch h ht
  | deleteErrors horder h => exact evidenceOwned_deleteErrors h ht
  | deleteSample horder h => exact evidenceOwned_deleteSample h ht
  | deleteProject horder h => exact evidenceOwned_deleteProject h ht

theorem view_step {e : TelemetryEvent} (h : TelemetryStep P t e t') (hspares : e.Spares app)
    (ht : t.EvidenceOwned) : t'.view app = t.view app := by
  cases h with
  | ingest h => exact view_ingestBatch hspares h
  | deleteErrors horder h => exact view_deleteErrors horder hspares ht h
  | deleteSample horder h => exact view_deleteSample horder hspares ht h
  | deleteProject horder h => exact view_deleteProject horder hspares ht h

/-- The ids of errors are given out once. -/
structure ErrorsLater (t t' : TenantStore) : Prop where
  nextId : t.errors.nextId ≤ t'.errors.nextId
  rows : ∀ r ∈ t'.errors.rows, r.id < t.errors.nextId → r ∈ t.errors.rows

theorem errorsLater_step {e : TelemetryEvent} (h : TelemetryStep P t e t') : ErrorsLater t t' := by
  have hlog : t'.errors = (t.log.after P e).errors := congrArg ErrorLog.errors (log_step h)
  have hdelete : ∀ p : ErrorRow → Bool, t'.errors = t.errors.delete p → ErrorsLater t t' := by
    intro p hp
    refine ⟨(congrArg ErrorTable.nextId hp).ge, fun r hr _ => ?_⟩
    rw [hp] at hr
    exact (List.mem_filter.1 hr).1
  cases e with
  | ingest now b =>
    rw [ErrorLog.after, ErrorLog.take] at hlog
    split at hlog
    · exact ⟨(congrArg ErrorTable.nextId hlog).ge, fun r hr _ => by rwa [hlog] at hr⟩
    · refine ⟨?_, fun r hr hid => ?_⟩
      · rw [hlog]
        exact Nat.le_add_right _ _
      · rw [hlog] at hr
        rcases List.mem_append.1 hr with hr | hr
        · exact hr
        · exact absurd hid (Nat.not_lt.2 (numbered_id_ge hr).1)
  | deleteErrors p => exact hdelete _ hlog
  | deleteSample app bucket ids => exact hdelete _ hlog
  | deleteProject app => exact hdelete _ hlog

end Runs

/-- Transactions about other apps leave what an app has as it is. -/
theorem other_apps_untouched {P : Platform} {t t' : TenantStore} {es : List TelemetryEvent}
    {app : String} (ht : t.EvidenceOwned)
    (hrun : Run (Guarded (TelemetryStep P) fun _ e _ => e.Spares app) t es t') :
    t'.view app = t.view app := by
  have hboth := hrun.invariant_of_guarded (fun u => u.EvidenceOwned ∧ u.view app = t.view app)
    (fun u e v hu hstep hspares => ⟨evidenceOwned_step hstep hu.1,
      (view_step hstep hspares hu.1).trans hu.2⟩) ⟨ht, rfl⟩
  exact hboth.2

/-! ## The end of a project beside uploads -/

/-- An upload of evidence has read its error among those of its app. -/
def ReadsOwnErrors (s : Uploading) : UploadEvent → Uploading → Prop
  | .start (.evidenceReserving up), _ =>
    ∃ r ∈ s.store.telemetry.errors.rows, r.id = up.errorId ∧ r.appId = up.app
  | _, _ => True

/-- What an upload of evidence knows of its error, which may be gone. -/
def EvidenceUpload.Reads (up : EvidenceUpload) (t : TenantStore) : Prop :=
  up.errorId < t.errors.nextId ∧ ∀ r ∈ t.errors.rows, r.id = up.errorId → r.appId = up.app

def UploadOp.Reads (u : UploadStore) : UploadOp → Prop
  | evidenceReserving up | evidenceInserting up _ => up.Reads u.telemetry
  | _ => True

section Uploads

variable {E : UploadEnv} {u u' : UploadStore}

theorem UploadOp.Reads.later {op : UploadOp} (h : op.Reads u)
    (hlater : ErrorsLater u.telemetry u'.telemetry) : op.Reads u' := by
  have hup : ∀ up : EvidenceUpload, up.Reads u.telemetry → up.Reads u'.telemetry := fun up hreads =>
    ⟨hreads.1.trans_le hlater.nextId, fun r hr hid =>
      hreads.2 r (hlater.rows r hr (hid ▸ hreads.1)) hid⟩
  cases op with
  | evidenceReserving up => exact hup up h
  | evidenceInserting up used => exact hup up h
  | _ => trivial

theorem evidenceOwned_insertEvidence {up : EvidenceUpload} {id : Nat}
    (hreads : up.Reads u.telemetry)
    (h : insertEvidence u up.app up.errorId up.storageKey up.bytes = some (id, u'))
    (hu : u.telemetry.EvidenceOwned) :
    u'.telemetry.EvidenceOwned ∧ ErrorsLater u.telemetry u'.telemetry := by
  rw [insertEvidence, Option.ite_none_right_eq_some] at h
  obtain ⟨hthere, heq⟩ := h
  cases heq
  refine ⟨fun e he => ?_, le_rfl, fun _ hr _ => hr⟩
  rcases List.mem_append.1 he with he | he
  · exact hu e he
  · obtain ⟨r, hr, hid⟩ := List.any_eq_true.1 hthere
    rw [List.mem_singleton.1 he]
    exact ⟨r, hr, of_decide_eq_true hid, hreads.2 r hr (of_decide_eq_true hid)⟩

theorem telemetry_recordCaptureFile {f : PendingCaptureFile} (h : recordCaptureFile u f = some u') :
    u'.telemetry = u.telemetry := by
  unfold recordCaptureFile at h
  split at h
  · cases h
    rfl
  · cases h

/-- A call keeps the evidence owned, and goes on with the error that it has read. -/
theorem evidenceOwned_took {others : List UploadOp} {now : Micros} {op : UploadOp}
    {next : Option UploadOp} (h : TookEffect E u others now op u' next) (hreads : op.Reads u)
    (hu : u.telemetry.EvidenceOwned) :
    u'.telemetry.EvidenceOwned ∧ ErrorsLater u.telemetry u'.telemetry ∧
      ∀ op', next = some op' → op'.Reads u' := by
  have hsame : u'.telemetry = u.telemetry → (∀ op', next = some op' → op'.Reads u') →
      u'.telemetry.EvidenceOwned ∧ ErrorsLater u.telemetry u'.telemetry ∧
        ∀ op', next = some op' → op'.Reads u' := by
    intro heq hnext
    rw [heq]
    exact ⟨hu, ⟨le_rfl, fun _ hr _ => hr⟩, hnext⟩
  have htrivial : ∀ {o : UploadOp}, o.Reads u' → ∀ op', some o = some op' → op'.Reads u' := by
    intro o ho op' heq
    cases heq
    exact ho
  cases h with
  | ended => exact hsame rfl fun _ heq => by cases heq
  | reserved => exact hsame rfl (htrivial hreads)
  | insertedUncapped hcap hinsert =>
    obtain ⟨howned, hlater⟩ := evidenceOwned_insertEvidence hreads hinsert hu
    exact ⟨howned, hlater, htrivial trivial⟩
  | inserted hinsert =>
    obtain ⟨howned, hlater⟩ := evidenceOwned_insertEvidence hreads hinsert hu
    exact ⟨howned, hlater, htrivial trivial⟩
  | released =>
    exact ⟨fun e he => hu e (List.mem_filter.1 he).1, ⟨le_rfl, fun _ hr _ => hr⟩,
      fun _ heq => by cases heq⟩
  | opened | checked | uncapped | summed | stored | captureRead | listed =>
    exact hsame rfl (htrivial trivial)
  | recorded hrecord => exact hsame (telemetry_recordCaptureFile hrecord) (htrivial trivial)
  | dropped | marked | closed => exact hsame rfl fun _ heq => by cases heq

theorem UploadOp.reads_afterFailure {op op' : UploadOp} (h : op.afterFailure = some op') :
    op'.Reads u := by
  cases op with
  | evidenceStoring | fileStoring =>
    cases h
    trivial
  | _ => cases h

theorem evidenceOwned_commit {c : UploadCommit} (h : commitUpload E u c = some u')
    (hu : u.telemetry.EvidenceOwned) :
    u'.telemetry.EvidenceOwned ∧ ErrorsLater u.telemetry u'.telemetry := by
  have hsame : u'.telemetry = u.telemetry →
      u'.telemetry.EvidenceOwned ∧ ErrorsLater u.telemetry u'.telemetry := by
    intro heq
    rw [heq]
    exact ⟨hu, le_rfl, fun _ hr _ => hr⟩
  cases committed_of_some h with
  | telemetry ht _ | projectDeleted ht =>
    have hstep := telemetryStep_of_commit ht
    exact ⟨evidenceOwned_step hstep hu, errorsLater_step hstep⟩
  | projectCreated | approved => exact hsame rfl
  | captureCreated hcreated =>
    cases hcreated with
    | added _ _ htelemetry => exact hsame htelemetry
    | again => exact hsame rfl

theorem keepsOutline_reads (E : UploadEnv) :
    KeepsOutline (uploads E) ReadsOwnErrors (fun u => u.telemetry.EvidenceOwned)
      (fun u op => op.Reads u) (fun _ _ => True) where
  start s s' op _ hok hstarts := by
    refine ⟨?_, fun _ _ => trivial⟩
    cases op with
    | evidenceReserving up =>
      obtain ⟨r, hr, hid, happ⟩ := hok
      refine ⟨hid ▸ s.store.telemetry.errors.bounded r hr, fun r' hr' hid' => ?_⟩
      rw [ErrorTable.eq_of_id hr' hr (hid'.trans hid.symm)]
      exact happ
    | fileOpening up | completing id keyApp => trivial
    | _ => cases hstarts
  advance s s' i chance op store next h _ hop hnext := by
    have hreads := h.each op (List.mem_of_getElem? hop)
    have hothers : ∀ {v : UploadStore}, ErrorsLater s.store.telemetry v.telemetry →
        ∀ o ∈ s.inFlight.eraseIdx i, o.Reads v := fun hlater o ho =>
      (h.each o (List.mem_of_mem_eraseIdx ho)).later hlater
    cases uploadStepped_of_next hnext with
    | failed _ =>
      exact ⟨h.store, hothers ⟨le_rfl, fun _ hr _ => hr⟩, fun op' hop' =>
        ⟨UploadOp.reads_afterFailure hop', fun _ _ => trivial⟩⟩
    | answered _ htook _ =>
      obtain ⟨howned, hlater, hnext'⟩ := evidenceOwned_took htook hreads h.store
      exact ⟨howned, hothers hlater, fun op' hop' => ⟨hnext' op' hop', fun _ _ => trivial⟩⟩
    | unanswered _ htook _ =>
      obtain ⟨howned, hlater, -⟩ := evidenceOwned_took htook hreads h.store
      exact ⟨howned, hothers hlater, fun op' hop' =>
        ⟨UploadOp.reads_afterFailure hop', fun _ _ => trivial⟩⟩
  commit s s' c store h _ hwrite := by
    obtain ⟨hcommit, -⟩ := Option.filter_eq_some_iff.1 hwrite
    obtain ⟨howned, hlater⟩ := evidenceOwned_commit hcommit h.store
    exact ⟨howned, fun o ho => (h.each o ho).later hlater⟩

end Uploads

/-- Nothing of an app is left. -/
structure UploadStore.Without (app : String) (u : UploadStore) : Prop where
  telemetry : u.telemetry.view app = AppView.none
  project : app ∉ u.projects
  captures : ∀ id, u.capturedFor app id = false
  files : ∀ r ∈ u.captureFiles.rows, u.capturedFor app r.1.1 = false

/-- What an app has is as before. -/
structure UploadStore.SameFor (app : String) (u u' : UploadStore) : Prop where
  telemetry : u'.telemetry.view app = u.telemetry.view app
  project : app ∈ u'.projects ↔ app ∈ u.projects
  captures : (u'.captures.rows.filter fun r => r.2.appId = some app) =
    u.captures.rows.filter fun r => r.2.appId = some app
  files : (u'.captureFiles.rows.filter fun r => u'.capturedFor app r.1.1) =
    u.captureFiles.rows.filter fun r => u.capturedFor app r.1.1

section DropCaptures

variable (u : UploadStore) (app : String)

theorem capturedFor_dropCaptures (other id : String) :
    (dropCaptures u app).capturedFor other id = (u.capturedFor other id && other ≠ app) := by
  have hget : (dropCaptures u app).captures.get? id =
      (u.captures.get? id).filter fun c => !decide (c.appId = some app) := Table.get?_delete ..
  rw [UploadStore.capturedFor, hget, UploadStore.capturedFor]
  cases u.captures.get? id with
  | none => rfl
  | some c =>
    rw [Option.any_some]
    by_cases hother : c.appId = some other
    · by_cases happ : other = app
      · simp [Option.filter, hother, happ]
      · simp [Option.filter, hother, happ]
    · by_cases happ : c.appId = some app
      · simp [Option.filter, happ, eq_comm]
      · simp [Option.filter, hother, happ]

theorem without_dropCaptures (htelemetry : u.telemetry.view app = AppView.none) :
    (dropCaptures u app).Without app := by
  have hgone : ∀ id, (dropCaptures u app).capturedFor app id = false := fun id => by
    rw [capturedFor_dropCaptures, decide_eq_false fun h => h rfl, Bool.and_false]
  refine ⟨htelemetry, fun hin => ?_, hgone, fun r _ => hgone r.1.1⟩
  exact of_decide_eq_true (List.mem_filter.1 hin).2 rfl

theorem sameFor_dropCaptures {other : String} (hother : other ≠ app) :
    u.SameFor other (dropCaptures u app) where
  telemetry := rfl
  project := by
    rw [dropCaptures, List.mem_filter]
    exact ⟨And.left, fun hin => ⟨hin, decide_eq_true hother⟩⟩
  captures := filter_of_imp fun r hr => by
    have happ := of_decide_eq_true hr
    simpa [happ] using hother
  files := by
    have hkeep : ∀ r : FileKey × CaptureFileRow, u.capturedFor other r.1.1 = true →
        (!u.capturedFor app r.1.1) = true := by
      intro r hr
      rw [UploadStore.capturedFor, Option.any_eq_true] at hr
      obtain ⟨c, hc, happ⟩ := hr
      rw [UploadStore.capturedFor, hc, Option.any_some, of_decide_eq_true happ]
      simpa using hother
    have hsame : ∀ r : FileKey × CaptureFileRow, (dropCaptures u app).capturedFor other r.1.1 =
        u.capturedFor other r.1.1 := fun r => by
      rw [capturedFor_dropCaptures, decide_eq_true hother, Bool.and_true]
    simp only [hsame]
    exact filter_of_imp hkeep

end DropCaptures

/-- The end of a project leaves nothing of its app, and everything of the others. -/
theorem project_deletion_exact {E : UploadEnv} {es : List UploadEvent} {s s' : Uploading}
    {app : String} {ids : List Nat}
    (hrun : Run (Guarded (stepOf (uploads E).step) ReadsOwnErrors) Uploading.init es s)
    (hstep : (uploads E).step s (.commit (.telemetry (.deleteProject app ids))) = some s') :
    s'.store.Without app ∧ ∀ other, other ≠ app → s.store.SameFor other s'.store := by
  have howned : s.store.telemetry.EvidenceOwned :=
    ((outline_of_idle (fun _ he => by cases he) rfl).run (keepsOutline_reads E) hrun).store
  obtain ⟨u, hwrite, rfl⟩ := Option.map_eq_some_iff.1 hstep
  obtain ⟨hcommit, -⟩ := Option.filter_eq_some_iff.1 hwrite
  cases committed_of_some hcommit with
  | telemetry _ hnot => exact absurd rfl (hnot app ids)
  | @projectDeleted _ _ t ht =>
    cases telemetryStep_of_commit ht with
    | deleteProject horder h =>
      refine ⟨without_dropCaptures _ app (view_deleted horder h), fun other hother => ?_⟩
      exact { sameFor_dropCaptures { s.store with telemetry := t } app hother with
        telemetry := view_deleteProject horder hother.symm howned h }

/-- An upload of evidence starts with an error of its app. -/
def readsOwnErrors (s : Uploading) : UploadEvent → Bool
  | .start (.evidenceReserving up) =>
    s.store.telemetry.errors.rows.any fun r => r.id = up.errorId && r.appId = up.app
  | _ => true

theorem readsOwnErrors_sound (s : Uploading) (e : UploadEvent) (s' : Uploading)
    (h : readsOwnErrors s e = true) : ReadsOwnErrors s e s' := by
  cases e with
  | start op =>
    cases op with
    | evidenceReserving up =>
      obtain ⟨r, hr, hboth⟩ := List.any_eq_true.1 h
      rw [Bool.and_eq_true, decide_eq_true_eq, decide_eq_true_eq] at hboth
      exact ⟨r, hr, hboth⟩
    | _ => trivial
  | _ => trivial

/-- Two crashes of another app. -/
def cafeCrashes : IngestBatch := { twoCrashes none with appId := "cafe", batchId := "batch-2" }

/-- The crashes of an app come and go, beside those of another. -/
theorem other_apps_untouched_shop :
    ∃ t t', t.errors.rows.length = 2 ∧ t.EvidenceOwned ∧
      Run (Guarded (TelemetryStep oneBucket) fun _ e _ => e.Spares "shop") t
        [.ingest 1 cafeCrashes, .deleteProject "cafe"] t' ∧ t'.view "shop" = t.view "shop" := by
  have hsome : ((commitTelemetry oneBucket .empty (.ingest 0 (twoCrashes none))).bind fun t =>
      (commitTelemetry oneBucket t (.ingest 1 cafeCrashes)).bind fun u =>
        (commitTelemetry oneBucket u (.deleteProject "cafe" [3, 4])).map fun t' =>
          (t.errors.rows.length, u.errors.rows.length, t'.errors.rows.length)) =
      some (2, 4, 2) := by decide
  obtain ⟨t, ht, hrest⟩ := Option.bind_eq_some_iff.1 hsome
  obtain ⟨u, hu, hrest⟩ := Option.bind_eq_some_iff.1 hrest
  obtain ⟨t', ht', hlengths⟩ := Option.map_eq_some_iff.1 hrest
  simp only [Prod.mk.injEq] at hlengths
  have howned : t.EvidenceOwned :=
    evidenceOwned_step (telemetryStep_of_commit ht) fun _ he => by cases he
  have hother : "cafe" ≠ "shop" := by decide
  have hrun : Run (Guarded (TelemetryStep oneBucket) fun _ e _ => e.Spares "shop") t
      [.ingest 1 cafeCrashes, .deleteProject "cafe"] t' :=
    .cons ⟨telemetryStep_of_commit hu, hother⟩
      (.cons ⟨telemetryStep_of_commit ht', hother⟩ (.nil t'))
  exact ⟨t, t', hlengths.1, howned, hrun, other_apps_untouched howned hrun⟩

/-- A project with a capture and evidence, and another one with evidence. -/
def twoProjects : List UploadEvent :=
  captureApproved ++
    [.commit (.createProject "cafe"), .commit (.telemetry (.ingest 1 cafeCrashes)),
      .start (.evidenceReserving ⟨"shop", 2, "shop/2/a", 5⟩), answered 0, answered 0, answered 0,
      .start (.evidenceReserving ⟨"cafe", 4, "cafe/4/a", 7⟩), answered 0, answered 0, answered 0]

/-- The project with the capture ends. -/
theorem project_deletion_exact_shop :
    ∃ s s', Run (Guarded (stepOf (uploads sampleEnv).step) ReadsOwnErrors) Uploading.init
        twoProjects s ∧
      (uploads sampleEnv).step s (.commit (.telemetry (.deleteProject "shop" [2, 1]))) = some s' ∧
      s.store.telemetry.evidence.length = 2 ∧ s'.store.Without "shop" ∧
      s.store.SameFor "cafe" s'.store := by
  have hsome : ((runOf (checked (uploads sampleEnv).step readsOwnErrors) Uploading.init
      twoProjects).bind fun s => ((uploads sampleEnv).step s
        (.commit (.telemetry (.deleteProject "shop" [2, 1])))).map fun s' =>
          (s.store.telemetry.evidence.length, s'.store.telemetry.evidence.length)) =
      some (2, 1) := by decide
  obtain ⟨s, hs, hrest⟩ := Option.bind_eq_some_iff.1 hsome
  obtain ⟨s', hs', hlengths⟩ := Option.map_eq_some_iff.1 hrest
  simp only [Prod.mk.injEq] at hlengths
  have hrun := Run.of_runOf_checked readsOwnErrors_sound hs
  obtain ⟨hwithout, hsame⟩ := project_deletion_exact hrun hs'
  exact ⟨s, s', hrun, hs', hlengths.1, hwithout, hsame "cafe" (by decide)⟩

end ReproitCloud
