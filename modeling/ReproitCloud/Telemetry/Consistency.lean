import ReproitCloud.Lib.Runs
import ReproitCloud.Telemetry.Deletion

/-!
# Runs of the telemetry tables

A run of a tenant database is a sequence of committed transactions: ingest
calls, and the statements that delete errors, each with the trigger firing in
some order.  `TelemetryStep` is the relation of one of them.

Two results about runs and statements close the part on the read models.

* `readModelAgrees_run`: a run whose ingest calls record their errors alike
  (`IngestsAlike`) keeps the read models equal to what recomputing gives.  The
  delete statements need no condition.
* `retention_deletes_ok_iff`: the retention delete and the sample deletion
  succeed exactly when no bucket with two rows or more loses them all.
-/

namespace ReproitCloud

open Lib

/-! ## The steps of a run -/

/-- A committed transaction on the telemetry tables. -/
inductive TelemetryEvent where
  | ingest (now : Micros) (batch : IngestBatch)
  | deleteErrors (p : ErrorRow → Bool)
  | deleteSample (app bucket : String) (ids : List Nat)
  | deleteProject (app : String)

/-- One committed transaction. -/
inductive TelemetryStep (P : Platform) : TenantStore → TelemetryEvent → TenantStore → Prop
  | ingest {t t' : TenantStore} {now : Micros} {b : IngestBatch} {dup : Bool} :
      ingestBatch P t now b = .ok (dup, t') → TelemetryStep P t (.ingest now b) t'
  | deleteErrors {t t' : TenantStore} {p : ErrorRow → Bool} {order : List ErrorRow} :
      order.Perm (t.selected p) → deleteErrors P.toRenderings t p order = .ok t' →
      TelemetryStep P t (.deleteErrors p) t'
  | deleteSample {t t' : TenantStore} {app bucket : String} {ids : List Nat}
      {order : List ErrorRow} {n : Nat} {keys : List String} :
      order.Perm (t.selected (sampleErrors app bucket ids)) →
      deleteSampleBucketData P.toRenderings t app bucket ids order = .ok (n, keys, t') →
      TelemetryStep P t (.deleteSample app bucket ids) t'
  | deleteProject {t t' : TenantStore} {app : String} {order : List ErrorRow} :
      order.Perm (t.selected fun r => r.appId = app) →
      deleteProjectByApp P.toRenderings t app order = .ok t' →
      TelemetryStep P t (.deleteProject app) t'

/-- A transaction with what is sent: the ids of a deletion are in the order in which
the trigger fires. -/
inductive TelemetryCommit where
  | ingest (now : Micros) (batch : IngestBatch)
  | deleteErrors (p : ErrorRow → Bool) (ids : List Nat)
  | deleteSample (app bucket : String) (errorIds ids : List Nat)
  | deleteProject (app : String) (ids : List Nat)

/-- The rows that `p` selects, in the order of their ids in a list. -/
def TenantStore.inOrder (t : TenantStore) (p : ErrorRow → Bool) (ids : List Nat) :
    Option (List ErrorRow) :=
  if ids.Perm ((t.selected p).map ErrorRow.id) then
    some (ids.filterMap fun id => t.errors.rows.find? fun r => r.id = id)
  else none

/-- The transaction, if the database takes it. -/
def commitTelemetry (P : Platform) (t : TenantStore) : TelemetryCommit → Option TenantStore
  | .ingest now b => (ingestBatch P t now b).toOption.map Prod.snd
  | .deleteErrors p ids =>
    (t.inOrder p ids).bind fun order => (deleteErrors P.toRenderings t p order).toOption
  | .deleteSample app bucket errorIds ids =>
    (t.inOrder (sampleErrors app bucket errorIds) ids).bind fun order =>
      (deleteSampleBucketData P.toRenderings t app bucket errorIds order).toOption.map (·.2.2)
  | .deleteProject app ids =>
    (t.inOrder (fun r => r.appId = app) ids).bind fun order =>
      (deleteProjectByApp P.toRenderings t app order).toOption

/-- The event of a transaction. -/
def TelemetryCommit.event : TelemetryCommit → TelemetryEvent
  | .ingest now b => .ingest now b
  | .deleteErrors p _ => .deleteErrors p
  | .deleteSample app bucket errorIds _ => .deleteSample app bucket errorIds
  | .deleteProject app _ => .deleteProject app

theorem inOrder_perm {t : TenantStore} {p : ErrorRow → Bool} {ids : List Nat}
    {order : List ErrorRow} (h : t.inOrder p ids = some order) : order.Perm (t.selected p) := by
  rw [TenantStore.inOrder, Option.ite_none_right_eq_some] at h
  obtain ⟨hperm, horder⟩ := h
  cases horder
  refine (hperm.filterMap _).trans ?_
  rw [List.filterMap_map]
  -- every selected row is found under its id
  have hfind : ∀ r ∈ t.selected p,
      ((fun id => t.errors.rows.find? fun r => r.id = id) ∘ ErrorRow.id) r = some r := by
    intro r hr
    exact ErrorTable.find?_of_id (List.mem_filter.1 hr).1
  rw [List.filterMap_congr hfind, List.filterMap_some]

theorem eq_ok_of_toOption {δ α : Type} {x : Except δ α} {a : α} (h : x.toOption = some a) :
    x = .ok a := by
  cases x with
  | error e => cases h
  | ok b =>
    cases h
    rfl

/-- What is sent and taken is a step. -/
theorem telemetryStep_of_commit {P : Platform} {t t' : TenantStore} {c : TelemetryCommit}
    (h : commitTelemetry P t c = some t') : TelemetryStep P t c.event t' := by
  cases c with
  | ingest now b =>
    obtain ⟨⟨dup, t1⟩, hok, rfl⟩ := Option.map_eq_some_iff.1 h
    exact .ingest (eq_ok_of_toOption hok)
  | deleteErrors p ids =>
    obtain ⟨order, horder, hok⟩ := Option.bind_eq_some_iff.1 h
    exact .deleteErrors (inOrder_perm horder) (eq_ok_of_toOption hok)
  | deleteSample app bucket errorIds ids =>
    obtain ⟨order, horder, hrest⟩ := Option.bind_eq_some_iff.1 h
    obtain ⟨⟨n, keys, t1⟩, hok, rfl⟩ := Option.map_eq_some_iff.1 hrest
    exact .deleteSample (inOrder_perm horder) (eq_ok_of_toOption hok)
  | deleteProject app ids =>
    obtain ⟨order, horder, hok⟩ := Option.bind_eq_some_iff.1 h
    exact .deleteProject (inOrder_perm horder) (eq_ok_of_toOption hok)

/-- An ingest call that writes records its errors alike. -/
def IngestsAlike (P : Platform) (t : TenantStore) : TelemetryEvent → TenantStore → Prop
  | .ingest _ b, _ =>
      t.processedBatches.get? (b.appId, b.batchId) = none → RecordedAlike P.toRenderings b
  | _, _ => True

/-! ## Steps keep the read models -/

section Steps

variable {P : Platform} {R : Renderings} {t t' : TenantStore}

/-- The summaries are read off two tables. -/
theorem summariesAgree_congr (h : SummariesAgree t) (herrors : t'.errors = t.errors)
    (hsummaries : t'.bucketSummaries = t.bucketSummaries) : SummariesAgree t' := by
  intro app bucket
  rw [hsummaries, TenantStore.bucketRows, herrors]
  exact h app bucket

/-- The read models are read off five tables. -/
theorem readModelAgrees_congr (h : ReadModelAgrees R t) (herrors : t'.errors = t.errors)
    (hsummaries : t'.bucketSummaries = t.bucketSummaries)
    (hwindows : t'.bucketWindows = t.bucketWindows)
    (happ : t'.appContextCounts = t.appContextCounts)
    (hbucket : t'.bucketContextCounts = t.bucketContextCounts) : ReadModelAgrees R t' := by
  refine ⟨summariesAgree_congr h.summaries herrors hsummaries, ?_, ?_, ?_⟩
  · rw [hwindows, herrors]
    exact h.windows
  · rw [happ, herrors]
    exact h.appCounts
  · rw [hbucket, herrors]
    exact h.bucketCounts

theorem summariesAgree_ingest {now : Micros} {b : IngestBatch} {dup : Bool} (h : SummariesAgree t)
    (hrun : ingestBatch P t now b = .ok (dup, t')) : SummariesAgree t' := by
  rcases ingestBatch_cases hrun with ⟨rfl, -⟩ | ⟨-, hing⟩
  · exact h
  · refine summariesAgree_inserted hing.inserted ?_
    obtain ⟨traffic, htraffic⟩ := recordTraffic_eq t now b.appId b.deployment
    rw [htraffic]
    exact summariesAgree_congr h rfl rfl

theorem readModelAgrees_ingest {now : Micros} {b : IngestBatch} {dup : Bool}
    (h : ReadModelAgrees P.toRenderings t)
    (halike : t.processedBatches.get? (b.appId, b.batchId) = none →
      RecordedAlike P.toRenderings b)
    (hrun : ingestBatch P t now b = .ok (dup, t')) : ReadModelAgrees P.toRenderings t' := by
  rcases ingestBatch_cases hrun with ⟨rfl, -⟩ | ⟨-, hing⟩
  · exact h
  · refine readModelAgrees_inserted hing.inserted ?_ (halike hing.fresh)
    obtain ⟨traffic, htraffic⟩ := recordTraffic_eq t now b.appId b.deployment
    rw [htraffic]
    exact readModelAgrees_congr h rfl rfl rfl rfl rfl

/-- The keys a multiset of rows gives without those of an app. -/
theorem keysOf_filter_app {κ : Type} {keys : ErrorRow → List κ} {appOf : κ → String}
    (hkeys : ∀ r, ∀ k ∈ keys r, appOf k = r.appId) (rows : List ErrorRow) (q : String → Bool) :
    (keysOf keys rows).filter (fun k => q (appOf k) = false) =
      keysOf keys (rows.filter fun r => !q r.appId) := by
  induction rows with
  | nil => rfl
  | cons r rows ih =>
    rw [keysOf_cons, Multiset.filter_add, ih]
    cases hq : q r.appId with
    | true =>
      have hnil : Multiset.filter (fun k => q (appOf k) = false) (keys r : Multiset κ) = 0 := by
        rw [Multiset.filter_eq_nil]
        intro k hk
        rw [hkeys r k hk, hq]
        exact Bool.noConfusion
      rw [hnil, Multiset.add_zero, List.filter_cons_of_neg (by simp [hq])]
    | false =>
      have hall : Multiset.filter (fun k => q (appOf k) = false) (keys r : Multiset κ) = keys r := by
        rw [Multiset.filter_eq_self]
        intro k hk
        rw [hkeys r k hk, hq]
      rw [hall, List.filter_cons_of_pos (by simp [hq]), keysOf_cons]

theorem windowKeysOf_app {r : ErrorRow} {k : WindowKey} (h : k ∈ windowKeysOf R r) :
    k.appId = r.appId := by
  obtain ⟨_, _, rfl⟩ := List.mem_map.1 h
  rfl

theorem appDimensionsOf_app {r : ErrorRow} {k : AppDimension} (h : k ∈ appDimensionsOf R r) :
    k.appId = r.appId := by
  obtain ⟨_, _, rfl⟩ := List.mem_map.1 h
  rfl

theorem bucketDimensionsOf_app {r : ErrorRow} {k : BucketDimension}
    (h : k ∈ bucketDimensionsOf R r) : k.appId = r.appId := by
  obtain ⟨_, _, hk⟩ := List.mem_flatMap.1 h
  obtain ⟨_, _, rfl⟩ := List.mem_map.1 hk
  rfl

/-- Clearing an emptied bucket removes no summary of another. -/
theorem summariesAgree_clearBucket {app bucket : String} (h : SummariesAgree t)
    (hempty : t.bucketRows app bucket = []) : SummariesAgree (clearBucket t app bucket) := by
  intro a b
  have hs := h a b
  have hget : (clearBucket t app bucket).bucketSummaries.get? (a, b) =
      (t.bucketSummaries.get? (a, b)).filter fun _ => !decide ((a, b) = (app, bucket)) :=
    Table.get?_delete _ _ _
  rw [hget]
  by_cases hk : (a, b) = (app, bucket)
  · rw [Prod.mk.injEq] at hk
    obtain ⟨rfl, rfl⟩ := hk
    have hnone : (t.bucketSummaries.get? (a, b)).filter
        (fun _ => !decide ((a, b) = (a, b))) = none := by
      cases t.bucketSummaries.get? (a, b) <;> simp
    rw [hnone]
    exact hempty
  · have hsame : (t.bucketSummaries.get? (a, b)).filter
        (fun _ => !decide ((a, b) = (app, bucket))) = t.bucketSummaries.get? (a, b) := by
      cases t.bucketSummaries.get? (a, b) <;> simp [hk]
    rw [hsame]
    exact hs

/-- Clearing an emptied bucket removes nothing that is counted. -/
theorem readModelAgrees_clearBucket {app bucket : String} (h : ReadModelAgrees R t)
    (hempty : t.bucketRows app bucket = []) : ReadModelAgrees R (clearBucket t app bucket) := by
  have hno : ∀ r ∈ t.errors.rows, r.inBucket app bucket = false := by
    intro r hr
    have := List.filter_eq_nil_iff.1 hempty r hr
    simpa using this
  refine ⟨summariesAgree_clearBucket h.summaries hempty, ?_, h.appCounts, ?_⟩
  · have hd := h.windows.delete fun k => k.appId = app && k.bucketId = bucket
    rwa [Multiset.filter_eq_self.2] at hd
    intro k hk
    obtain ⟨r, hr, hkr⟩ := List.mem_flatMap.1 (Multiset.mem_coe.1 hk)
    obtain ⟨b, hb, rfl⟩ := List.mem_map.1 hkr
    have := hno r hr
    simp only [ErrorRow.inBucket, Option.mem_toList.1 hb, Option.some.injEq] at this
    exact this
  · have hd := h.bucketCounts.delete fun k => k.appId = app && k.bucketId = bucket
    rwa [Multiset.filter_eq_self.2] at hd
    intro k hk
    obtain ⟨r, hr, hkr⟩ := List.mem_flatMap.1 (Multiset.mem_coe.1 hk)
    obtain ⟨b, hb, hkb⟩ := List.mem_flatMap.1 hkr
    obtain ⟨d, _, rfl⟩ := List.mem_map.1 hkb
    have := hno r hr
    simp only [ErrorRow.inBucket, Option.mem_toList.1 hb, Option.some.injEq] at this
    exact this

/-- The sample deletion does nothing, or deletes rows and clears the bucket if it is empty
then. -/
theorem deleteSampleBucketData_cases {app bucket : String} {ids : List Nat}
    {order : List ErrorRow} {n : Nat} {keys : List String}
    (hrun : deleteSampleBucketData R t app bucket ids order = .ok (n, keys, t')) :
    t' = t ∨ ∃ u, deleteErrors R t (sampleErrors app bucket ids) order = .ok u ∧
      (t' = u ∨ u.bucketRows app bucket = [] ∧ t' = clearBucket u app bucket) := by
  simp only [deleteSampleBucketData, pure, Except.pure, bind, Except.bind] at hrun
  split at hrun
  · cases hrun
    exact .inl rfl
  split at hrun
  · cases hrun
  rename_i u hu
  split at hrun
  · rename_i hempty
    cases hrun
    exact .inr ⟨u, hu, .inr ⟨List.isEmpty_iff.1 hempty, rfl⟩⟩
  · cases hrun
    exact .inr ⟨_, hu, .inl rfl⟩

theorem summariesAgree_deleteSample {app bucket : String} {ids : List Nat}
    {order : List ErrorRow} {n : Nat} {keys : List String} (h : SummariesAgree t)
    (horder : order.Perm (t.selected (sampleErrors app bucket ids)))
    (hrun : deleteSampleBucketData R t app bucket ids order = .ok (n, keys, t')) :
    SummariesAgree t' := by
  rcases deleteSampleBucketData_cases hrun with rfl | ⟨u, hu, rfl | ⟨hempty, rfl⟩⟩
  · exact h
  · exact (summariesAgree_deleteErrors h horder hu).1
  · exact summariesAgree_clearBucket (summariesAgree_deleteErrors h horder hu).1 hempty

theorem readModelAgrees_deleteSample {app bucket : String} {ids : List Nat}
    {order : List ErrorRow} {n : Nat} {keys : List String} (h : ReadModelAgrees R t)
    (horder : order.Perm (t.selected (sampleErrors app bucket ids)))
    (hrun : deleteSampleBucketData R t app bucket ids order = .ok (n, keys, t')) :
    ReadModelAgrees R t' := by
  rcases deleteSampleBucketData_cases hrun with rfl | ⟨u, hu, rfl | ⟨hempty, rfl⟩⟩
  · exact h
  · exact (readModelAgrees_deleteErrors h horder hu).1
  · exact readModelAgrees_clearBucket (readModelAgrees_deleteErrors h horder hu).1 hempty

/-- A firing for a row of an app that has no rows left finds no summary. -/
theorem triggerSummaries_cleared {old : ErrorRow} (h : SummariesAgree t)
    (hcleared : ∀ r ∈ t.errors.rows, r.appId ≠ old.appId) :
    ∃ summaries, triggerSummaries t.errors old t.bucketSummaries = .ok summaries ∧
      ∀ app bucket, SummaryOf (t.bucketRows app bucket) (summaries.get? (app, bucket)) := by
  have hempty : ∀ app bucket, old.inBucket app bucket = true → t.bucketRows app bucket = [] := by
    intro app bucket hin
    obtain ⟨rfl, -⟩ := inBucket_iff.1 hin
    rw [TenantStore.bucketRows, List.filter_eq_nil_iff]
    intro r hr hrin
    exact hcleared r hr (inBucket_iff.1 hrin).1
  have hget : ∀ app bucket, old.inBucket app bucket = true →
      t.bucketSummaries.get? (app, bucket) = none := by
    intro app bucket hin
    have hs := h app bucket
    rw [hempty app bucket hin] at hs
    cases hv : t.bucketSummaries.get? (app, bucket) with
    | none => rfl
    | some v =>
      rw [hv] at hs
      obtain ⟨r, hr, -⟩ := hs.2.1.1
      cases hr
  obtain ⟨summaries, hs⟩ : ∃ s', triggerSummaries t.errors old t.bucketSummaries = .ok s' := by
    apply triggerSummaries_ok
    intro app bucket hin
    rw [hget app bucket hin]
    exact ⟨none, rfl⟩
  refine ⟨summaries, hs, fun app bucket => ?_⟩
  have hinv := triggerSummaries_inv hs app bucket
  by_cases hin : old.inBucket app bucket = true
  · rw [if_pos hin, hget app bucket hin] at hinv
    have hnone : summaries.get? (app, bucket) = none := by
      simpa [fireSummary] using hinv.symm
    rw [hnone]
    exact hempty app bucket hin
  · rw [if_neg hin] at hinv
    rw [hinv]
    exact h app bucket

theorem summariesAgree_firings_cleared {app : String} {order : List ErrorRow}
    (h : SummariesAgree t) (hcleared : ∀ r ∈ t.errors.rows, r.appId ≠ app)
    (horder : ∀ r ∈ order, r.appId = app)
    (hrun : order.foldlM (removeErrorFromReadModels R) t = .ok t') : SummariesAgree t' := by
  induction order generalizing t with
  | nil =>
    cases hrun
    exact h
  | cons old order ih =>
    have happ : old.appId = app := horder old (by simp)
    obtain ⟨summaries, hs, hagree⟩ := triggerSummaries_cleared h fun r hr => happ ▸ hcleared r hr
    rw [List.foldlM_cons, removeErrorFromReadModels_of_ok hs] at hrun
    exact ih (t := takeOff R t old summaries) hagree hcleared (fun r hr => horder r (by simp [hr]))
      hrun

/-- A firing for a row of an app that has no rows and no read models left
changes nothing. -/
theorem readModelAgrees_fire_cleared {old : ErrorRow} (h : ReadModelAgrees R t)
    (hcleared : ∀ r ∈ t.errors.rows, r.appId ≠ old.appId) :
    ∃ t', removeErrorFromReadModels R t old = .ok t' ∧ ReadModelAgrees R t' ∧
      t'.errors = t.errors := by
  have hfresh : ∀ {κ : Type} {keys : ErrorRow → List κ} {appOf : κ → String},
      (∀ r, ∀ k ∈ keys r, appOf k = r.appId) → ∀ k ∈ keys old, k ∉ keysOf keys t.errors.rows := by
    intro κ keys appOf hkeys k hk hm
    obtain ⟨r, hr, hkr⟩ := List.mem_flatMap.1 (Multiset.mem_coe.1 hm)
    exact hcleared r hr ((hkeys r k hkr).symm.trans (hkeys old k hk))
  obtain ⟨summaries, hs, hagree⟩ := triggerSummaries_cleared h.summaries hcleared
  refine ⟨_, removeErrorFromReadModels_of_ok hs, ⟨hagree, ?_, ?_, ?_⟩, rfl⟩
  · exact Counts.dropMany_uncounted (fun k => by simp) _ h.windows
      (hfresh fun _ _ hk => windowKeysOf_app hk)
  · exact Counts.dropMany_uncounted (fun k => by simp) _ h.appCounts
      (hfresh fun _ _ hk => appDimensionsOf_app hk)
  · exact Counts.dropMany_uncounted (fun k => by simp) _ h.bucketCounts
      (hfresh fun _ _ hk => bucketDimensionsOf_app hk)

theorem readModelAgrees_firings_cleared {app : String} {order : List ErrorRow}
    (h : ReadModelAgrees R t) (hcleared : ∀ r ∈ t.errors.rows, r.appId ≠ app)
    (horder : ∀ r ∈ order, r.appId = app)
    (hrun : order.foldlM (removeErrorFromReadModels R) t = .ok t') : ReadModelAgrees R t' := by
  induction order generalizing t with
  | nil =>
    cases hrun
    exact h
  | cons old order ih =>
    have happ : old.appId = app := horder old (by simp)
    obtain ⟨u, hu, hagree, herr⟩ :=
      readModelAgrees_fire_cleared h fun r hr => happ ▸ hcleared r hr
    rw [List.foldlM_cons, hu] at hrun
    exact ih hagree (herr ▸ hcleared) (fun r hr => horder r (by simp [hr])) hrun

/-- With the summaries of an app cleared, removing its rows leaves the others in agreement. -/
theorem summariesAgree_cleared (h : SummariesAgree t) (app : String) :
    SummariesAgree (removeErrorRows (clearBeforeErrors t app) fun r => r.appId = app) := by
  intro a b
  have hget : (removeErrorRows (clearBeforeErrors t app) fun r => r.appId = app).bucketSummaries.get?
      (a, b) = (t.bucketSummaries.get? (a, b)).filter fun _ => !decide (a = app) :=
    Table.get?_delete _ _ _
  rw [hget, bucketRows_removeErrorRows]
  have hs := h a b
  by_cases ha : a = app
  · have hnone : (t.bucketSummaries.get? (a, b)).filter (fun _ => !decide (a = app)) = none := by
      cases t.bucketSummaries.get? (a, b) <;> simp [ha]
    rw [hnone, summaryOf_none, List.filter_eq_nil_iff]
    intro r hr
    simp [← ha, (inBucket_iff.1 (List.mem_filter.1 hr).2).1]
  · have hsame : (t.bucketSummaries.get? (a, b)).filter (fun _ => !decide (a = app)) =
        t.bucketSummaries.get? (a, b) := by
      cases t.bucketSummaries.get? (a, b) <;> simp [ha]
    have hall : ((clearBeforeErrors t app).bucketRows a b).filter
        (fun r => !decide (r.appId = app)) = t.bucketRows a b := by
      rw [List.filter_eq_self.2]
      · rfl
      · intro r hr
        simp [(inBucket_iff.1 (List.mem_filter.1 hr).2).1, ha]
    rw [hsame, hall]
    exact hs

/-- With the read models of an app cleared, removing its rows leaves the rest
in agreement. -/
theorem readModelAgrees_cleared (h : ReadModelAgrees R t) (app : String) :
    ReadModelAgrees R (removeErrorRows (clearBeforeErrors t app) fun r => r.appId = app) := by
  have hcount : ∀ {κ : Type} [DecidableEq κ] {keys : ErrorRow → List κ} {appOf : κ → String}
      {c : Table κ Int}, (∀ r, ∀ k ∈ keys r, appOf k = r.appId) →
      Counts c (keysOf keys t.errors.rows) →
      Counts (c.delete fun k _ => appOf k = app)
        (keysOf keys (t.errors.rows.filter fun r => !decide (r.appId = app))) := by
    intro κ _ keys appOf c hkeys hc
    have hd := hc.delete fun k => appOf k = app
    rwa [keysOf_filter_app hkeys t.errors.rows fun a => a = app] at hd
  refine ⟨summariesAgree_cleared h.summaries app, ?_, ?_, ?_⟩
  · exact hcount (fun _ _ hk => windowKeysOf_app hk) h.windows
  · exact hcount (fun _ _ hk => appDimensionsOf_app hk) h.appCounts
  · exact hcount (fun _ _ hk => bucketDimensionsOf_app hk) h.bucketCounts

/-- The end of a project is its clearing, the firings for its rows and the rest. -/
theorem deleteProjectByApp_inv {app : String} {order : List ErrorRow}
    (horder : order.Perm (t.selected fun r => r.appId = app))
    (hrun : deleteProjectByApp R t app order = .ok t') :
    ∃ u, order.foldlM (removeErrorFromReadModels R)
        (removeErrorRows (clearBeforeErrors t app) fun r => r.appId = app) = .ok u ∧
      (∀ r ∈ order, r.appId = app) ∧
      (∀ r ∈ ((clearBeforeErrors t app).errors.delete fun r => r.appId = app).rows,
        r.appId ≠ app) ∧
      t' = clearAfterErrors u app := by
  unfold deleteProjectByApp at hrun
  cases hdel : deleteErrors R (clearBeforeErrors t app) (fun r => r.appId = app) order with
  | error e =>
    rw [hdel] at hrun
    cases hrun
  | ok u =>
    rw [hdel] at hrun
    cases hrun
    refine ⟨u, hdel, fun r hr => ?_, fun r hr => ?_, rfl⟩
    · simpa using (List.mem_filter.1 (horder.mem_iff.1 hr)).2
    · simpa using (List.mem_filter.1 hr).2

theorem summariesAgree_deleteProject {app : String} {order : List ErrorRow}
    (h : SummariesAgree t) (horder : order.Perm (t.selected fun r => r.appId = app))
    (hrun : deleteProjectByApp R t app order = .ok t') : SummariesAgree t' := by
  obtain ⟨u, hfirings, hgone, hleft, rfl⟩ := deleteProjectByApp_inv horder hrun
  exact summariesAgree_congr
    (summariesAgree_firings_cleared (summariesAgree_cleared h app) hleft hgone hfirings) rfl rfl

theorem readModelAgrees_deleteProject {app : String} {order : List ErrorRow}
    (h : ReadModelAgrees R t) (horder : order.Perm (t.selected fun r => r.appId = app))
    (hrun : deleteProjectByApp R t app order = .ok t') : ReadModelAgrees R t' := by
  obtain ⟨u, hfirings, hgone, hleft, rfl⟩ := deleteProjectByApp_inv horder hrun
  have hu := readModelAgrees_firings_cleared (readModelAgrees_cleared h app) hleft hgone hfirings
  exact readModelAgrees_congr hu rfl rfl rfl rfl rfl

/-- Every committed transaction keeps the summaries, whatever its records are. -/
theorem summariesAgree_step {e : TelemetryEvent} (h : SummariesAgree t)
    (hstep : TelemetryStep P t e t') : SummariesAgree t' := by
  cases hstep with
  | ingest hrun => exact summariesAgree_ingest h hrun
  | deleteErrors horder hrun => exact (summariesAgree_deleteErrors h horder hrun).1
  | deleteSample horder hrun => exact summariesAgree_deleteSample h horder hrun
  | deleteProject horder hrun => exact summariesAgree_deleteProject h horder hrun

/-- Every committed transaction that records alike keeps the read models. -/
theorem readModelAgrees_step {e : TelemetryEvent} (h : ReadModelAgrees P.toRenderings t)
    (hstep : TelemetryStep P t e t') (halike : IngestsAlike P t e t') :
    ReadModelAgrees P.toRenderings t' := by
  cases hstep with
  | ingest hrun => exact readModelAgrees_ingest h halike hrun
  | deleteErrors horder hrun => exact (readModelAgrees_deleteErrors h horder hrun).1
  | deleteSample horder hrun => exact readModelAgrees_deleteSample h horder hrun
  | deleteProject horder hrun => exact readModelAgrees_deleteProject h horder hrun

end Steps

/-! ## Runs -/

/-- Along every run whose ingest calls record alike, the read models equal what
recomputing them from `errors` gives. -/
theorem readModelAgrees_run {P : Platform} {t t' : TenantStore} {es : List TelemetryEvent}
    (h : ReadModelAgrees P.toRenderings t)
    (hrun : Run (Guarded (TelemetryStep P) (IngestsAlike P)) t es t') :
    ReadModelAgrees P.toRenderings t' :=
  hrun.invariant_of_guarded (ReadModelAgrees P.toRenderings)
    (fun _ _ _ hi hs ha => readModelAgrees_step hi hs ha) h

/-- The summaries need no condition on what is recorded. -/
theorem summariesAgree_run {P : Platform} {t t' : TenantStore} {es : List TelemetryEvent}
    (h : SummariesAgree t) (hrun : Run (TelemetryStep P) t es t') : SummariesAgree t' :=
  hrun.invariant SummariesAgree (fun _ _ _ hi hs => summariesAgree_step hi hs) h

/-- A platform with one bucket, for runs on fixed inputs. -/
def oneBucket : Platform where
  serdeFloat _ := "1e30"
  jsonbFloat _ := "1000000000000000000000000000000"
  jsonbComposite _ := "{}"
  bucketId _ := "bkt_dd250179f692"

/-- A crash with a context. -/
def boom (context : Context) : ErrorRec := ⟨"crash", "boom", [], context⟩

/-- The context of a record whose build names a commit. -/
def onCommit (commit : String) : Context :=
  Table.empty.insertIgnore "build" (.object [("commit", .string commit)])

/-- Two crashes of build `c1`, in a batch whose deployment is `deployment`. -/
def twoCrashes (deployment : Option String) : IngestBatch where
  appId := "shop"
  errors := [boom (onCommit "c1"), boom (onCommit "c1")]
  batchId := "batch-1"
  deployment := deployment

/-- Ingest under a deployment of two crashes of build `c1`, then the deletion of the
first. -/
def firstDeleted (deployment : String) : Except SqlError TenantStore := do
  let (_, t) ← ingestBatch oneBucket .empty 0 (twoCrashes (some deployment))
  deleteErrors oneBucket.toRenderings t (fun r => r.id = 1) (t.selected fun r => r.id = 1)

theorem firstDeleted_eq_ok {deployment : String} {u : TenantStore}
    (h : firstDeleted deployment = .ok u) :
    ∃ dup t, ingestBatch oneBucket .empty 0 (twoCrashes (some deployment)) = .ok (dup, t) ∧
      deleteErrors oneBucket.toRenderings t (fun r => r.id = 1)
        (t.selected fun r => r.id = 1) = .ok u := by
  unfold firstDeleted at h
  cases hingest : ingestBatch oneBucket .empty 0 (twoCrashes (some deployment)) with
  | error e =>
    rw [hingest] at h
    cases h
  | ok r =>
    rw [hingest] at h
    exact ⟨r.1, r.2, rfl, h⟩

theorem readModelAgrees_run_two_crashes :
    RecordedAlike oneBucket.toRenderings (twoCrashes (some "c1")) ∧
      ∃ t, Run (Guarded (TelemetryStep oneBucket) (IngestsAlike oneBucket)) .empty
          [.ingest 0 (twoCrashes (some "c1")), .deleteErrors fun r => r.id = 1] t ∧
        t.errors.rows.length = 1 ∧ ReadModelAgrees oneBucket.toRenderings t := by
  have halike : RecordedAlike oneBucket.toRenderings (twoCrashes (some "c1")) := by decide
  have hsome : (firstDeleted "c1").toOption.map (fun t => t.errors.rows.length) = some 1 := by
    decide
  obtain ⟨u, hu⟩ := ok_of_isOk (by decide : (firstDeleted "c1").isOk = true)
  rw [hu] at hsome
  obtain ⟨dup, t, hingest, hdelete⟩ := firstDeleted_eq_ok hu
  have hrun : Run (Guarded (TelemetryStep oneBucket) (IngestsAlike oneBucket)) .empty
      [.ingest 0 (twoCrashes (some "c1")), .deleteErrors fun r => r.id = 1] u :=
    .cons ⟨.ingest hingest, fun _ => halike⟩
      (.cons ⟨.deleteErrors (.refl _) hdelete, trivial⟩ (.nil u))
  exact ⟨halike, u, hrun, Option.some.inj hsome, readModelAgrees_run (readModelAgrees_empty _) hrun⟩

/-- The window a batch of deployment `v2` adds its crashes to. -/
def v2Window : WindowKey := ⟨"shop", "bkt_dd250179f692", 0, "v2"⟩

/-- When deployment and context build differ, the deletion takes the row off
another window: the window of `v2` still counts two errors, and one is left. -/
theorem window_keeps_deleted_row :
    ¬ ∀ es t, Run (TelemetryStep oneBucket) .empty es t →
      ReadModelAgrees oneBucket.toRenderings t := by
  intro hall
  obtain ⟨u, hu⟩ := ok_of_isOk (by decide : (firstDeleted "v2").isOk = true)
  obtain ⟨dup, t, hingest, hdelete⟩ := firstDeleted_eq_ok hu
  have hagree := hall _ u
    (.cons (.ingest hingest) (.cons (.deleteErrors (.refl _) hdelete) (.nil u)))
  have hread : (firstDeleted "v2").toOption.map (fun t =>
      (t.bucketWindows.get? v2Window,
        t.errors.rows.flatMap (windowKeysOf oneBucket.toRenderings))) =
      some (some 2, [⟨"shop", "bkt_dd250179f692", 0, "c1"⟩]) := by decide
  rw [hu] at hread
  simp only [Except.toOption, Option.map_some, Option.some.injEq, Prod.mk.injEq] at hread
  have hwindow := hagree.windows v2Window
  rw [hread.1, keysOf, hread.2] at hwindow
  revert hwindow
  decide

/-! ## The deletions of the service -/

/-- The sample deletion succeeds when its delete statement does. -/
theorem deleteSample_ok_iff {R : Renderings} {t : TenantStore} {app bucket : String}
    {ids : List Nat} {order : List ErrorRow}
    (horder : order.Perm (t.selected (sampleErrors app bucket ids))) :
    (∃ r, deleteSampleBucketData R t app bucket ids order = .ok r) ↔
      ∃ t', deleteErrors R t (sampleErrors app bucket ids) order = .ok t' := by
  simp only [deleteSampleBucketData, pure, Except.pure, bind, Except.bind]
  by_cases hids : ids.isEmpty = true
  · have hnone : order = [] := by
      rw [List.isEmpty_iff] at hids
      subst hids
      apply List.Perm.eq_nil
      refine horder.trans (List.Perm.of_eq ?_)
      rw [TenantStore.selected, List.filter_eq_nil_iff]
      intro r _
      simp [sampleErrors]
    subst hnone
    rw [if_pos hids]
    exact ⟨fun _ => ⟨_, rfl⟩, fun _ => ⟨_, rfl⟩⟩
  · rw [if_neg hids]
    cases deleteErrors R t (sampleErrors app bucket ids) order with
    | error e =>
      constructor <;> rintro ⟨_, h⟩ <;> cases h
    | ok u =>
      refine ⟨fun _ => ⟨u, rfl⟩, fun _ => ?_⟩
      by_cases hempty : (u.bucketRows app bucket).isEmpty = true
      · exact ⟨_, if_pos hempty⟩
      · exact ⟨_, if_neg hempty⟩

/-- The retention delete and the sample deletion succeed exactly when no bucket
with two rows or more loses them all, in whatever order the trigger fires. -/
theorem retention_deletes_ok_iff {R : Renderings} {t : TenantStore} (h : ReadModelAgrees R t) :
    (∀ now days limit order, order.Perm (t.selected (expiredErrors t now days limit)) →
      ((∃ t', deleteExpiredErrors R t now days limit order = .ok t') ↔
        LeavesOrSingle t (expiredErrors t now days limit))) ∧
    (∀ app bucket ids order, order.Perm (t.selected (sampleErrors app bucket ids)) →
      ((∃ r, deleteSampleBucketData R t app bucket ids order = .ok r) ↔
        LeavesOrSingle t (sampleErrors app bucket ids))) := by
  refine ⟨?_, ?_⟩
  · intro now days limit order horder
    exact deleteErrors_ok_iff h horder
  · intro app bucket ids order horder
    rw [← deleteErrors_ok_iff h horder]
    exact deleteSample_ok_iff horder

theorem retention_deletes_ok_iff_two_crashes :
    ∃ t, Reaches (TelemetryStep oneBucket) .empty t ∧ t.errors.rows.length = 2 ∧
      ((∃ r, deleteSampleBucketData oneBucket.toRenderings t "shop" "bkt_dd250179f692" [1]
          (t.selected (sampleErrors "shop" "bkt_dd250179f692" [1])) = .ok r) ↔
        LeavesOrSingle t (sampleErrors "shop" "bkt_dd250179f692" [1])) := by
  obtain ⟨⟨dup, t⟩, ht⟩ := ok_of_isOk
    (by decide : (ingestBatch oneBucket .empty 0 (twoCrashes (some "c1"))).isOk = true)
  have halike : RecordedAlike oneBucket.toRenderings (twoCrashes (some "c1")) := by decide
  have hagree := readModelAgrees_ingest (readModelAgrees_empty _) (fun _ => halike) ht
  have hlen : (ingestBatch oneBucket .empty 0 (twoCrashes (some "c1"))).toOption.map
      (fun r => r.2.errors.rows.length) = some 2 := by decide
  rw [ht] at hlen
  exact ⟨t, ⟨_, .cons (.ingest ht) (.nil t)⟩, Option.some.inj hlen,
    (retention_deletes_ok_iff hagree).2 "shop" "bkt_dd250179f692" [1] _ (.refl _)⟩

/-- The retention delete of two expired rows, all of their bucket. -/
def expireTwo : Except SqlError TenantStore := do
  let (_, t) ← ingestBatch oneBucket .empty 0 (twoCrashes (some "c1"))
  let now := 31 * microsPerDay
  deleteExpiredErrors oneBucket.toRenderings t now 30 5000 (t.selected (expiredErrors t now 30 5000))

/-- A bucket whose two rows expire together stops the retention delete. -/
theorem retention_refused_on_last_two :
    ¬ ∀ t, Reaches (TelemetryStep oneBucket) .empty t → ReadModelAgrees oneBucket.toRenderings t →
      ∀ now days limit order, order.Perm (t.selected (expiredErrors t now days limit)) →
        ∃ t', deleteExpiredErrors oneBucket.toRenderings t now days limit order = .ok t' := by
  intro hall
  obtain ⟨⟨dup, t⟩, ht⟩ := ok_of_isOk
    (by decide : (ingestBatch oneBucket .empty 0 (twoCrashes (some "c1"))).isOk = true)
  have halike : RecordedAlike oneBucket.toRenderings (twoCrashes (some "c1")) := by decide
  have hagree := readModelAgrees_ingest (readModelAgrees_empty _) (fun _ => halike) ht
  obtain ⟨t', ht'⟩ := hall t ⟨_, .cons (.ingest ht) (.nil t)⟩ hagree (31 * microsPerDay) 30 5000 _
    (.refl _)
  have hrefused : expireTwo.isOk = false := by decide
  rw [expireTwo, ht] at hrefused
  have hok : (deleteExpiredErrors oneBucket.toRenderings t (31 * microsPerDay) 30 5000
      (t.selected (expiredErrors t (31 * microsPerDay) 30 5000))).isOk = false := hrefused
  rw [ht'] at hok
  cases hok

end ReproitCloud
