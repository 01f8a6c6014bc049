import ReproitCloud.Telemetry.ExactlyOnce

/-!
# The log of errors

The read models, the traffic and the bookkeeping of a tenant are made from its errors and from
the batches that it has taken.  `ErrorLog` is these two alone, and `ErrorLog.after` what a
transaction is on them: a function, which takes a new batch as a whole or takes out rows.  The
transactions refine it (`log_step`), and so do runs of them (`log_run`).
-/

namespace ReproitCloud

open Lib

/-- The errors, with the batches that were taken. -/
structure ErrorLog where
  errors : ErrorTable := .empty
  batches : Table (String × String) Micros := .empty

def TenantStore.log (t : TenantStore) : ErrorLog := ⟨t.errors, t.processedBatches⟩

namespace ErrorLog

/-- A batch, unless it is empty or was taken before. -/
def take (P : Platform) (l : ErrorLog) (now : Micros) (b : IngestBatch) : ErrorLog :=
  if b.isEmpty || l.batches.has (b.appId, b.batchId) then l
  else
    { errors := l.errors.insert (b.errors.map (newError P now b.appId))
      batches := l.batches.insertIgnore (b.appId, b.batchId) now }

/-- What a transaction does to the log. -/
def after (P : Platform) (l : ErrorLog) : TelemetryEvent → ErrorLog
  | .ingest now b => l.take P now b
  | .deleteErrors p => { l with errors := l.errors.delete p }
  | .deleteSample app bucket ids =>
    { l with errors := l.errors.delete (sampleErrors app bucket ids) }
  | .deleteProject app =>
    { errors := l.errors.delete fun r => r.appId = app
      batches := l.batches.delete fun k _ => k.1 = app }

end ErrorLog

section Deletions

variable {R : Renderings} {t t' : TenantStore} {p : ErrorRow → Bool} {order : List ErrorRow}

/-- A delete statement removes the errors it selects, and their evidence. -/
theorem errors_deleteErrors (h : deleteErrors R t p order = .ok t') :
    t'.errors = t.errors.delete p ∧ t'.evidence = (removeErrorRows t p).evidence := by
  refine firings_invariant (fun u _ => u.errors = t.errors.delete p ∧
    u.evidence = (removeErrorRows t p).evidence) (fun u v old pending hu hfire => ?_) ⟨rfl, rfl⟩ h
  obtain ⟨summaries, -, rfl⟩ := removeErrorFromReadModels_inv hfire
  exact hu

theorem log_deleteErrors (h : deleteErrors R t p order = .ok t') :
    t'.log = ⟨t.errors.delete p, t.processedBatches⟩ := by
  have hbatches : t'.processedBatches = t.processedBatches := by
    rw [deletedFrom_deleteErrors h]
    rfl
  rw [TenantStore.log, (errors_deleteErrors h).1, hbatches]

theorem delete_none {errors : ErrorTable} (h : ∀ r, p r = false) : errors.delete p = errors := by
  have hrows : (errors.delete p).rows = errors.rows := by simp [ErrorTable.delete, h]
  have hnext : (errors.delete p).nextId = errors.nextId := rfl
  cases hdelete : errors.delete p
  cases errors
  simp_all

end Deletions

section Steps

variable {P : Platform} {t t' : TenantStore}

theorem log_ingestBatch {now : Micros} {b : IngestBatch} {dup : Bool}
    (h : ingestBatch P t now b = .ok (dup, t')) : t'.log = t.log.take P now b := by
  have hcases := ingestBatch_cases h
  rw [ingestBatch_eq] at h
  rw [ErrorLog.take, TenantStore.log, TenantStore.log]
  by_cases hempty : b.isEmpty = true
  · rw [if_pos hempty] at h
    cases h
    simp [hempty]
  · rw [if_neg hempty] at h
    by_cases hknown : t.processedBatches.has (b.appId, b.batchId) = true
    · rw [if_pos hknown] at h
      cases h
      simp [hknown]
    · rw [if_neg hknown] at h
      obtain ⟨u, hu, hsame⟩ : ∃ u, applyBatch P now b (consumeBatch now b t) = .ok u ∧
          (false, u) = (dup, t') := by
        cases hu : applyBatch P now b (consumeBatch now b t) with
        | error e =>
          rw [hu] at h
          cases h
        | ok u =>
          rw [hu] at h
          exact ⟨u, rfl, Except.ok.inj h⟩
      cases hsame
      have hbatches := processed_applyBatch hu
      have herrors : t'.errors = t.errors.insert (b.errors.map (newError P now b.appId)) := by
        rcases hcases with ⟨rfl, hdup | hnone⟩ | ⟨-, hingested⟩
        · cases hdup
        · rw [hnone, List.map_nil, ErrorTable.insert_nil]
        · obtain ⟨traffic, htraffic⟩ := recordTraffic_eq t now b.appId b.deployment
          have hinserted := hingested.inserted.errors
          rwa [htraffic] at hinserted
      simp [hempty, hknown, herrors, hbatches, consumeBatch]

/-- A transaction is what it is on the log. -/
theorem log_step {e : TelemetryEvent} (h : TelemetryStep P t e t') : t'.log = t.log.after P e := by
  cases h with
  | ingest h => exact log_ingestBatch h
  | deleteErrors horder h => exact log_deleteErrors h
  | @deleteSample _ app bucket ids _ _ _ horder h =>
    by_cases hids : ids.isEmpty = true
    · rw [deleteSampleBucketData, if_pos hids] at h
      cases h
      have hnone : t.errors.delete (sampleErrors app bucket ids) = t.errors :=
        delete_none fun r => by simp [sampleErrors, List.isEmpty_iff.1 hids]
      simp [ErrorLog.after, TenantStore.log, hnone]
    · rw [deleteSampleBucketData, if_neg hids] at h
      simp only [bind, Except.bind] at h
      split at h
      · cases h
      · rename_i u hu
        have hlog := log_deleteErrors hu
        split at h <;> cases h <;> exact hlog
  | @deleteProject _ app order horder h =>
    rw [deleteProjectByApp] at h
    cases hdelete : deleteErrors P.toRenderings (clearBeforeErrors t app)
        (fun r => r.appId = app) order with
    | error e =>
      rw [hdelete] at h
      cases h
    | ok u =>
      rw [hdelete] at h
      cases h
      have hlog := log_deleteErrors hdelete
      show ErrorLog.mk u.errors (u.processedBatches.delete fun k _ => k.1 = app) = _
      rw [show u.errors = _ from congrArg ErrorLog.errors hlog,
        show u.processedBatches = _ from congrArg ErrorLog.batches hlog]
      rfl

/-- And a run of them is the run on the log. -/
theorem log_run {es : List TelemetryEvent} (hrun : Run (TelemetryStep P) t es t') :
    t'.log = es.foldl (ErrorLog.after P) t.log := by
  induction hrun with
  | nil t => rfl
  | cons hstep _ ih => rw [ih, log_step hstep, List.foldl_cons]

/-- Every row is in the bucket of its record. -/
def RowsBucketed (P : Platform) (errors : ErrorTable) : Prop :=
  ∀ r ∈ errors.rows, r.bucketId = some (P.bucketId r.record)

theorem rowsBucketed_after {l : ErrorLog} (h : RowsBucketed P l.errors) (e : TelemetryEvent) :
    RowsBucketed P (l.after P e).errors := by
  intro r hr
  cases e with
  | ingest now b =>
    rw [ErrorLog.after, ErrorLog.take] at hr
    split at hr
    · exact h r hr
    · rcases List.mem_append.1 hr with hr | hr
      · exact h r hr
      · obtain ⟨-, -, record, -, rfl, hbucket⟩ := mem_numbered_newError hr
        exact hbucket
  | deleteErrors p => exact h r (List.mem_filter.1 hr).1
  | deleteSample app bucket ids => exact h r (List.mem_filter.1 hr).1
  | deleteProject app => exact h r (List.mem_filter.1 hr).1

theorem rowsBucketed_run {es : List TelemetryEvent} (hrun : Run (TelemetryStep P) .empty es t) :
    RowsBucketed P t.errors := by
  refine hrun.invariant (fun t => RowsBucketed P t.log.errors) (fun t e t' hi hstep => ?_)
    fun _ hr => absurd hr List.not_mem_nil
  show RowsBucketed P t'.log.errors
  rw [log_step hstep]
  exact rowsBucketed_after hi e

end Steps

end ReproitCloud
