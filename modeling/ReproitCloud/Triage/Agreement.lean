import ReproitCloud.Telemetry.Consistency
import ReproitCloud.Triage.Verdicts

/-!
# The list against the detail

The bucket list does not read error rows.  It evaluates the windows of a bucket,
which hold the hour of each row and the deployment of its batch, where the detail
and the sweep evaluate the time of each row and the build of its context.  And
it orders the builds by `build_traffic` alone, where the other two fall back to
the error stream for an app without traffic.

The deployment of a batch is not stored with its rows.  A `History` is therefore
a tenant database with the log of what was ingested (`Recorded`), and
`HistoryKept` says how the tables follow from the log: the rows are its entries
in order, the windows count its entries by hour and deployment.

`list_agrees_iff` says in which histories the list, the detail and the sweep
agree on a bucket: those where some window of the bucket is post-fix exactly when
some row is (`ListSeesAlike`).
-/

namespace ReproitCloud

open Lib

/-! ## Histories -/

/-- An ingested error, with the deployment of its batch and the build of its
context. -/
structure Recorded where
  appId : String
  bucketId : String
  moment : Micros
  deployment : Option String
  build : Option String
deriving DecidableEq

namespace Recorded

/-- The occurrence the detail sees: the row's time and its context's build. -/
def asRow (e : Recorded) : Occurrence := ⟨toRfc3339 e.moment, e.build⟩

/-- The occurrence the list sees: the hour, and the deployment unless empty. -/
def asWindow (e : Recorded) : Occurrence :=
  ⟨toRfc3339 (hourStart e.moment), e.deployment.filter (· ≠ "")⟩

/-- The window the error was counted in. -/
def windowKey (e : Recorded) : WindowKey :=
  ⟨e.appId, e.bucketId, hourStart e.moment, e.deployment.getD ""⟩

/-- The entry belongs to a bucket of an app. -/
def inBucket (app bucket : String) (e : Recorded) : Bool := e.appId = app && e.bucketId = bucket

end Recorded

/-- What ingest records of an error of a batch. -/
def recorded (P : Platform) (now : Micros) (b : IngestBatch) (record : ErrorRec) : Recorded :=
  ⟨b.appId, P.bucketId record, now, b.deployment, buildVersion record⟩

/-- A tenant database and the log of the errors ingested into it. -/
structure History where
  store : TenantStore := .empty
  log : List Recorded := []

/-- What happens to a tenant that only ingests and triages. -/
inductive HistoryEvent where
  | ingest (now : Micros) (batch : IngestBatch)
  /-- A triage statement: afterwards the bucket has this row. -/
  | triage (app bucket : String) (row : TriageRow)

/-- One committed transaction, with what it appends to the log. -/
inductive HistoryStep (P : Platform) : History → HistoryEvent → History → Prop
  | ingest {s : History} {t : TenantStore} {now : Micros} {b : IngestBatch} {dup : Bool} :
      ingestBatch P s.store now b = .ok (dup, t) →
      HistoryStep P s (.ingest now b)
        ⟨t, s.log ++ if dup then [] else b.errors.map (recorded P now b)⟩
  | triage {s : History} {app bucket : String} {row : TriageRow} :
      HistoryStep P s (.triage app bucket row)
        { s with store.bucketTriage :=
            s.store.bucketTriage.upsert (app, bucket) row fun _ => row }

/-- A row is the entry of the log it was written for. -/
def EntryOf (r : ErrorRow) (e : Recorded) : Prop :=
  r.appId = e.appId ∧ r.bucketId = some e.bucketId ∧ r.createdAt = e.moment ∧
    buildVersion r.record = e.build

/-- The tables follow from the log. -/
structure HistoryKept (s : History) : Prop where
  summaries : SummariesAgree s.store
  rows : List.Forall₂ EntryOf s.store.errors.rows s.log
  windows : Counts s.store.bucketWindows ↑(s.log.map Recorded.windowKey)

theorem historyKept_empty : HistoryKept {} :=
  ⟨fun _ _ => rfl, .nil, counts_empty⟩

section Steps

variable {P : Platform} {now : Micros} {b : IngestBatch}

/-- The inserted rows are the entries of the records they come from. -/
theorem numbered_entries (records : List ErrorRec) (start : Nat) :
    List.Forall₂ EntryOf (numbered start (records.map (newError P now b.appId)))
      (records.map (recorded P now b)) := by
  induction records generalizing start with
  | nil => exact .nil
  | cons record records ih => exact .cons ⟨rfl, rfl, rfl, rfl⟩ (ih (start + 1))

theorem historyKept_ingested {s : History} {t : TenantStore} (h : HistoryKept s)
    (hing : Ingested P s.store now b t) :
    HistoryKept ⟨t, s.log ++ b.errors.map (recorded P now b)⟩ := by
  obtain ⟨traffic, htraffic⟩ : ∃ traffic,
      recordTraffic s.store now b.appId b.deployment = { s.store with buildTraffic := traffic } := by
    cases b.deployment with
    | none => exact ⟨s.store.buildTraffic, rfl⟩
    | some build => exact ⟨_, rfl⟩
  have hins := hing.inserted
  rw [htraffic] at hins
  refine ⟨summariesAgree_inserted hins h.summaries, ?_, ?_⟩
  · rw [hins.errors]
    exact List.rel_append h.rows (numbered_entries b.errors _)
  · rw [hins.windows, List.map_append, List.map_map, ← Multiset.coe_add]
    have hwindows : batchWindows P now b =
        b.errors.map (Recorded.windowKey ∘ recorded P now b) := by
      rw [batchWindows, batchBuckets, List.map_map]
      rfl
    rw [hwindows]
    exact h.windows.bumpGroups _

theorem historyKept_step {s s' : History} {e : HistoryEvent} (h : HistoryKept s)
    (hstep : HistoryStep P s e s') : HistoryKept s' := by
  cases hstep with
  | ingest hrun =>
    rcases ingestBatch_cases hrun with ⟨rfl, hdup | hnone⟩ | ⟨rfl, hing⟩
    · rw [hdup, if_pos rfl, List.append_nil]
      exact h
    · rw [hnone, List.map_nil, ite_self, List.append_nil]
      exact h
    · exact historyKept_ingested h hing
  | triage => exact ⟨h.summaries, h.rows, h.windows⟩

/-- In every history the tables follow from the log. -/
theorem historyKept_reached {s : History} (h : Reaches (HistoryStep P) {} s) : HistoryKept s :=
  h.invariant HistoryKept (fun _ _ _ hi hs => historyKept_step hi hs) historyKept_empty

end Steps

/-! ## The reads, in terms of the log -/

section Reads

variable {s : History} {app bucket : String}

/-- Some entry of the bucket is post-fix, as `view` shows it. -/
def SomePostFix (e : Evidence) (s : History) (app bucket fixed : String)
    (view : Recorded → Occurrence) : Prop :=
  ∃ r ∈ s.log, r.inBucket app bucket = true ∧ e.SeesRecurrence fixed [view r]

/-- Occurrences that are the entries of the bucket under a view recur when some
entry is post-fix under it. -/
theorem Evidence.seesRecurrence_view {e : Evidence} {fixed : String} {bug : List Occurrence}
    {view : Recorded → Occurrence}
    (hbug : ∀ o, o ∈ bug ↔ ∃ r ∈ s.log, r.inBucket app bucket = true ∧ view r = o) :
    e.SeesRecurrence fixed bug ↔ SomePostFix e s app bucket fixed view := by
  constructor
  · rintro ⟨fixEpoch, hseen, o, ho, hpost⟩
    obtain ⟨r, hr, hin, rfl⟩ := (hbug o).1 ho
    exact ⟨r, hr, hin, fixEpoch, hseen, view r, List.mem_singleton_self _, hpost⟩
  · rintro ⟨r, hr, hin, fixEpoch, hseen, o, ho, hpost⟩
    rw [List.mem_singleton] at ho
    subst ho
    exact ⟨fixEpoch, hseen, view r, (hbug _).2 ⟨r, hr, hin, rfl⟩, hpost⟩

theorem EntryOf.inBucket {r : ErrorRow} {e : Recorded} (h : EntryOf r e) :
    r.inBucket app bucket = e.inBucket app bucket := by
  obtain ⟨happ, hbucket, -, -⟩ := h
  simp [ErrorRow.inBucket, Recorded.inBucket, happ, hbucket]

theorem EntryOf.occurrence {r : ErrorRow} {e : Recorded} (h : EntryOf r e) :
    (⟨toRfc3339 r.createdAt, buildVersion r.record⟩ : Occurrence) = e.asRow := by
  obtain ⟨-, -, htime, hbuild⟩ := h
  rw [htime, hbuild]
  rfl

/-- The occurrences of a bucket's rows are its entries as rows. -/
theorem occurrences_entries {rows : List ErrorRow} {log : List Recorded}
    (h : List.Forall₂ EntryOf rows log) :
    occurrencesOf ((rows.filter (ErrorRow.inBucket app bucket)).map ErrorRow.withMeta) =
      (log.filter (Recorded.inBucket app bucket)).map Recorded.asRow := by
  rw [occurrencesOf, List.map_map]
  induction h with
  | nil => rfl
  | cons hentry _ ih =>
    rw [List.filter_cons, List.filter_cons, hentry.inBucket]
    split
    · rw [List.map_cons, List.map_cons, ih]
      exact congrArg (· :: _) hentry.occurrence
    · exact ih

theorem seesRecurrence_bucketRows (h : HistoryKept s) (e : Evidence) (fixed : String) :
    e.SeesRecurrence fixed
        (occurrencesOf ((s.store.bucketRows app bucket).map ErrorRow.withMeta)) ↔
      SomePostFix e s app bucket fixed Recorded.asRow := by
  apply Evidence.seesRecurrence_view
  intro o
  rw [TenantStore.bucketRows, occurrences_entries h.rows]
  simp only [List.mem_map, List.mem_filter, and_assoc]

/-- The occurrences the list evaluates. -/
def windowOccurrences (t : TenantStore) (app bucket : String) : List Occurrence :=
  (bucketWindowCounts t app bucket).map fun w => ⟨w.1, w.2.1⟩

theorem seesRecurrence_windows (h : HistoryKept s) (e : Evidence) (fixed : String) :
    e.SeesRecurrence fixed (windowOccurrences s.store app bucket) ↔
      SomePostFix e s app bucket fixed Recorded.asWindow := by
  have hview : ∀ r : Recorded, r.asWindow = ⟨toRfc3339 r.windowKey.windowStart,
      if r.windowKey.build = "" then none else some r.windowKey.build⟩ := by
    intro r
    rw [Recorded.asWindow, Recorded.windowKey]
    cases r.deployment with
    | none => rfl
    | some build =>
      by_cases hbuild : build = "" <;> simp [Option.filter, hbuild]
  apply Evidence.seesRecurrence_view
  intro o
  simp only [windowOccurrences, bucketWindowCounts, List.mem_map, List.mem_insertionSort,
    List.mem_filter, Bool.and_eq_true, decide_eq_true_eq]
  constructor
  · rintro ⟨-, ⟨⟨k, n⟩, ⟨hrow, happ, hbucket⟩, rfl⟩, rfl⟩
    obtain ⟨r, hr, rfl⟩ := List.mem_map.1 (Multiset.mem_coe.1 (h.windows.exists_row_iff.1 ⟨n, hrow⟩))
    refine ⟨r, hr, ?_, hview r⟩
    simp only [Recorded.inBucket, Bool.and_eq_true, decide_eq_true_eq]
    exact ⟨happ, hbucket⟩
  · rintro ⟨r, hr, hin, rfl⟩
    obtain ⟨n, hrow⟩ := h.windows.exists_row_iff.2
      (Multiset.mem_coe.2 (List.mem_map_of_mem (f := Recorded.windowKey) hr))
    simp only [Recorded.inBucket, Bool.and_eq_true, decide_eq_true_eq] at hin
    exact ⟨_, ⟨(r.windowKey, n), ⟨hrow, hin⟩, rfl⟩, (hview r).symm⟩

end Reads

/-! ## The statuses -/

section Statuses

variable {cfg : ResolutionConfig} {t : TenantStore} {app bucket : String} {now : Rfc3339}

/-- A bucket with rows is on the list, with its evaluation. -/
theorem listStatus_eq (h : SummariesAgree t) (hrows : t.bucketRows app bucket ≠ []) :
    listStatus cfg t app bucket now = some (listResolution cfg t app bucket now).status := by
  have hsummary := h app bucket
  cases hget : t.bucketSummaries.get? (app, bucket) with
  | none =>
    rw [hget] at hsummary
    exact absurd hsummary hrows
  | some summary =>
    rw [hget] at hsummary
    obtain ⟨-, ⟨⟨first, hfirst, hfirstId⟩, -⟩, ⟨last, hlast, hlastId⟩, -⟩ := hsummary
    have holdest := ErrorTable.find?_of_id (t := t.errors) (List.mem_filter.1 hfirst).1
    have hnewest := ErrorTable.find?_of_id (t := t.errors) (List.mem_filter.1 hlast).1
    rw [hfirstId] at holdest
    rw [hlastId] at hnewest
    have hrollup : (⟨bucket, summary.count.toNat, toRfc3339 summary.lastSeen, first.record,
        last.record⟩ : BucketRollup) ∈ bucketRollups t app := by
      refine List.mem_filterMap.2 ⟨((app, bucket), summary), ?_, ?_⟩
      · rw [List.mem_insertionSort, List.mem_filter]
        exact ⟨Table.get?_eq_some_iff.1 hget, by simp⟩
      · rw [rollupOf, holdest, hnewest]
    have hitem : ((bucketListForTenant cfg t app now).find?
        fun item => item.bucketId = bucket).isSome := by
      rw [List.find?_isSome]
      exact ⟨_, List.mem_map_of_mem hrollup, by simp⟩
    obtain ⟨item, hfound⟩ := Option.isSome_iff_exists.1 hitem
    have hbucket : item.bucketId = bucket := by simpa using List.find?_some hfound
    obtain ⟨rollup, -, rfl⟩ := List.mem_map.1 (List.mem_of_find?_eq_some hfound)
    rw [listStatus, hfound, Option.map_some, ← hbucket]

/-- The status of the rows that the detail reports, when they are all read. -/
theorem detail_status_eq (hrows : t.bucketRows app bucket ≠ [])
    (hcap : (t.bucketRows app bucket).length < cfg.baselineSample) :
    (getBucketDetail cfg t {} app bucket now).status =
      some (evaluateOn cfg (occurrencesOf ((t.bucketRows app bucket).map ErrorRow.withMeta))
        (evidenceOf cfg t {} app).weighted (evidenceOf cfg t {} app).recent
        (anchorOf t app bucket) now).status := by
  have hread : errorsForBucket t app bucket cfg.baselineSample =
      (t.bucketRows app bucket).map ErrorRow.withMeta := by
    rw [errorsForBucket, List.take_of_length_le hcap.le]
  have hne : ((t.bucketRows app bucket).map ErrorRow.withMeta).isEmpty = false := by
    rw [List.isEmpty_eq_false_iff, ne_eq, List.map_eq_nil_iff]
    exact hrows
  rw [getBucketDetail_eq, answerOn, rowsRead, hread, hne]
  rfl

/-- The sweep and the detail evaluate alike. -/
theorem sweep_status_eq (hrows : t.bucketRows app bucket ≠ [])
    (hcap : (t.bucketRows app bucket).length < cfg.baselineSample) {fixed : String}
    (hanchor : anchorOf t app bucket = some fixed) :
    (computeForBucket cfg t {} app bucket fixed now).map (fun r => r.1.status) =
      (getBucketDetail cfg t {} app bucket now).status := by
  rw [detail_status_eq hrows hcap, computeForBucket_eq, hanchor, errorsForBucket,
    List.take_of_length_le hcap.le]
  rfl

/-- Against an anchor, resolved is open gates and no recurrence. -/
theorem Evidence.resolved_on_iff (e : Evidence) (cfg : ResolutionConfig) (bug : List Occurrence)
    (fixed : String) (now : Rfc3339) :
    (evaluateOn cfg bug e.weighted e.recent (some fixed) now).status = .resolved ↔
      e.Opens fixed now cfg.thresholds ∧ ¬ e.SeesRecurrence fixed bug := by
  have hres := e.evaluateOn_resolved_iff cfg bug (some fixed) now
  simpa only [Option.some.injEq, exists_eq_left'] using hres

/-- Against an anchor, regressed is a recurrence. -/
theorem Evidence.regressed_on_iff (e : Evidence) (cfg : ResolutionConfig) (bug : List Occurrence)
    (fixed : String) (now : Rfc3339) :
    (evaluateOn cfg bug e.weighted e.recent (some fixed) now).status = .regressed ↔
      e.SeesRecurrence fixed bug := by
  have hreg := e.evaluateOn_regressed_iff cfg bug (some fixed) now
  simpa only [Option.some.injEq, exists_eq_left'] using hreg

/-- Resolving is neither open gates nor a recurrence. -/
theorem Evidence.resolving_on_iff (e : Evidence) (cfg : ResolutionConfig) (bug : List Occurrence)
    (fixed : String) (now : Rfc3339) :
    (evaluateOn cfg bug e.weighted e.recent (some fixed) now).status = .resolving ↔
      ¬ e.Opens fixed now cfg.thresholds ∧ ¬ e.SeesRecurrence fixed bug := by
  have hres := e.resolved_on_iff cfg bug fixed now
  have hreg := e.regressed_on_iff cfg bug fixed now
  rw [← hreg]
  cases hstatus : (evaluateOn cfg bug e.weighted e.recent (some fixed) now).status with
  | active =>
    have := evaluate_active_iff.1 hstatus
    cases this
  | resolving =>
    rw [hstatus] at hres hreg
    refine iff_of_true rfl ⟨fun hopens => ?_, Resolution.noConfusion⟩
    exact Resolution.noConfusion (hres.2 ⟨hopens, fun hrec => Resolution.noConfusion (hreg.2 hrec)⟩)
  | resolved =>
    rw [hstatus] at hres
    exact iff_of_false Resolution.noConfusion fun h => h.1 (hres.1 rfl).1
  | regressed => exact iff_of_false Resolution.noConfusion fun h => h.2 rfl

/-- With one order of builds and one traffic, two streams get one status exactly
when both recur or neither does. -/
theorem Evidence.status_eq_iff (e : Evidence) (cfg : ResolutionConfig) (bug bug' : List Occurrence)
    (fixed : String) (now : Rfc3339) :
    (evaluateOn cfg bug e.weighted e.recent (some fixed) now).status =
        (evaluateOn cfg bug' e.weighted e.recent (some fixed) now).status ↔
      (e.SeesRecurrence fixed bug ↔ e.SeesRecurrence fixed bug') := by
  constructor
  · intro hstatus
    rw [← e.regressed_on_iff cfg bug fixed now, hstatus, e.regressed_on_iff]
  · intro hiff
    symm
    cases hstatus : (evaluateOn cfg bug e.weighted e.recent (some fixed) now).status with
    | active => cases evaluate_active_iff.1 hstatus
    | resolving =>
      rw [e.resolving_on_iff, hiff] at hstatus
      exact (e.resolving_on_iff cfg bug' fixed now).2 hstatus
    | resolved =>
      rw [e.resolved_on_iff, hiff] at hstatus
      exact (e.resolved_on_iff cfg bug' fixed now).2 hstatus
    | regressed =>
      rw [e.regressed_on_iff, hiff] at hstatus
      exact (e.regressed_on_iff cfg bug' fixed now).2 hstatus

end Statuses

/-! ## Agreement -/

section Agreement

variable {P : Platform} {cfg : ResolutionConfig} {s : History} {app bucket fixed : String}
variable {now : Rfc3339}

/-- The list and the detail show one status for a bucket, and where the bucket has
an anchor the sweep computes the same. -/
def PathsAgree (cfg : ResolutionConfig) (t : TenantStore) (app bucket : String) (now : Rfc3339) :
    Prop :=
  listStatus cfg t app bucket now = (getBucketDetail cfg t {} app bucket now).status ∧
    ∀ fixed, anchorOf t app bucket = some fixed →
      (computeForBucket cfg t {} app bucket fixed now).map (fun r => r.1.status) =
        listStatus cfg t app bucket now

/-- What was ingested reads alike to the list and the detail.  With traffic, some
error of the bucket is post-fix by its hour and deployment exactly when some is
by its time and context build.  Without, the list never confirms nor denies, so
the error stream may not either. -/
def ListSeesAlike (cfg : ResolutionConfig) (s : History) (app bucket : String) (now : Rfc3339) :
    Prop :=
  ∀ fixed, anchorOf s.store app bucket = some fixed →
    if buildTrafficOf s.store app = [] then
      ¬ (evidenceOf cfg s.store {} app).Opens fixed now cfg.thresholds ∧
        ¬ SomePostFix (evidenceOf cfg s.store {} app) s app bucket fixed Recorded.asRow
    else
      (SomePostFix (evidenceOf cfg s.store {} app) s app bucket fixed Recorded.asWindow ↔
        SomePostFix (evidenceOf cfg s.store {} app) s app bucket fixed Recorded.asRow)

/-- With traffic the list evaluates the windows on the evidence of the others. -/
theorem listResolution_of_traffic {t : TenantStore} (h : buildTrafficOf t app ≠ []) :
    listResolution cfg t app bucket now =
      evaluateOn cfg (windowOccurrences t app bucket) (evidenceOf cfg t {} app).weighted
        (evidenceOf cfg t {} app).recent (anchorOf t app bucket) now := by
  have hweighted : (weightedTraffic (buildTrafficOf t app)).isEmpty = false := by
    rw [List.isEmpty_eq_false_iff, weightedTraffic, ne_eq, List.map_eq_nil_iff]
    exact h
  have htraffic : trafficAfter (weightedTraffic (buildTrafficOf t app))
      (evidenceOf cfg t {} app).recent =
      postFixBuildTraffic (weightedTraffic (buildTrafficOf t app)) := by
    funext fixed
    rw [trafficAfter, hweighted]
    rfl
  have hevidence : (evidenceOf cfg t {} app).weighted = weightedTraffic (buildTrafficOf t app) :=
    rfl
  rw [evaluateOn, hevidence, htraffic, appStreamOf, hweighted]
  rfl

/-- Without traffic the list sees no build. -/
theorem listResolution_of_no_traffic {t : TenantStore} (h : buildTrafficOf t app = [])
    (hanchor : anchorOf t app bucket = some fixed) :
    (listResolution cfg t app bucket now).status = .resolving := by
  simp only [listResolution, h, hanchor]
  exact evaluate_status_unseen rfl

theorem list_status_eq_iff (h : HistoryKept s) (hanchor : anchorOf s.store app bucket = some fixed) :
    (listResolution cfg s.store app bucket now).status =
        (evaluateOn cfg (occurrencesOf ((s.store.bucketRows app bucket).map ErrorRow.withMeta))
          (evidenceOf cfg s.store {} app).weighted (evidenceOf cfg s.store {} app).recent
          (some fixed) now).status ↔
      if buildTrafficOf s.store app = [] then
        ¬ (evidenceOf cfg s.store {} app).Opens fixed now cfg.thresholds ∧
          ¬ SomePostFix (evidenceOf cfg s.store {} app) s app bucket fixed Recorded.asRow
      else
        (SomePostFix (evidenceOf cfg s.store {} app) s app bucket fixed Recorded.asWindow ↔
          SomePostFix (evidenceOf cfg s.store {} app) s app bucket fixed Recorded.asRow) := by
  by_cases htraffic : buildTrafficOf s.store app = []
  · rw [if_pos htraffic, listResolution_of_no_traffic htraffic hanchor, eq_comm,
      Evidence.resolving_on_iff, seesRecurrence_bucketRows h]
  · rw [if_neg htraffic, listResolution_of_traffic htraffic, hanchor, Evidence.status_eq_iff,
      seesRecurrence_windows h, seesRecurrence_bucketRows h]

/-- In every history, for a bucket with fewer rows than the cap, the list agrees
with the detail and the sweep exactly when what was ingested reads alike. -/
theorem list_agrees_iff (h : Reaches (HistoryStep P) {} s)
    (hrows : s.store.bucketRows app bucket ≠ [])
    (hcap : (s.store.bucketRows app bucket).length < cfg.baselineSample) :
    PathsAgree cfg s.store app bucket now ↔ ListSeesAlike cfg s app bucket now := by
  have hkept := historyKept_reached h
  have hlist : listStatus cfg s.store app bucket now = _ := listStatus_eq hkept.summaries hrows
  have hdetail : (getBucketDetail cfg s.store {} app bucket now).status = _ :=
    detail_status_eq hrows hcap
  have hiff : PathsAgree cfg s.store app bucket now ↔
      listStatus cfg s.store app bucket now =
        (getBucketDetail cfg s.store {} app bucket now).status := by
    constructor
    · exact fun hagree => hagree.1
    · intro hstatus
      refine ⟨hstatus, fun fixed hanchor => ?_⟩
      rw [hstatus]
      exact sweep_status_eq hrows hcap hanchor
  rw [hiff, hlist, hdetail, Option.some.injEq]
  cases hanchor : anchorOf s.store app bucket with
  | none =>
    refine iff_of_true ?_ fun fixed hfixed => ?_
    · rw [listResolution, hanchor]
      rfl
    · rw [hanchor] at hfixed
      cases hfixed
  | some fixed =>
    rw [list_status_eq_iff hkept hanchor, ListSeesAlike]
    constructor
    · intro halike fixed' hfixed'
      rw [hanchor, Option.some.injEq] at hfixed'
      subst hfixed'
      exact halike
    · exact fun halike => halike fixed hanchor

end Agreement

/-! A fix deployed ten minutes into an hour, and crashes on it right then: the
window of the crashes starts before the fix. -/

/-- The fix is build `c1`, first seen with the crashes on it. -/
def fixedInC1 : TriageRow := { status := "fixed", fixedInBuild := some "c1" }

/-- The crashes of `c1` at an instant, then the claim that `c1` is the fix. -/
def crashesOnFix (moment : Micros) : Except SqlError TenantStore := do
  let (_, t) ← ingestBatch oneBucket .empty moment (twoCrashes (some "c1"))
  return { t with
    bucketTriage := t.bucketTriage.upsert ("shop", "bkt_dd250179f692") fixedInC1 fun _ => fixedInC1 }

theorem crashesOnFix_reached {moment : Micros} {t : TenantStore} (h : crashesOnFix moment = .ok t) :
    ∃ log, Reaches (HistoryStep oneBucket) {} ⟨t, log⟩ := by
  simp only [crashesOnFix, bind, Except.bind, pure, Except.pure] at h
  split at h
  · cases h
  · rename_i r hingest
    cases h
    exact ⟨_, _, .cons (.ingest hingest) (.cons .triage (.nil _))⟩

theorem list_agrees_iff_on_the_hour :
    ∃ s, Reaches (HistoryStep oneBucket) {} s ∧
      (PathsAgree {} s.store "shop" "bkt_dd250179f692" (toRfc3339 0) ↔
        ListSeesAlike {} s "shop" "bkt_dd250179f692" (toRfc3339 0)) := by
  obtain ⟨t, ht⟩ := ok_of_isOk (by decide : (crashesOnFix 0).isOk = true)
  obtain ⟨log, hreached⟩ := crashesOnFix_reached ht
  have hrows : (crashesOnFix 0).toOption.map
      (fun t => (t.bucketRows "shop" "bkt_dd250179f692").length) = some 2 := by decide
  rw [ht] at hrows
  have hlength : (t.bucketRows "shop" "bkt_dd250179f692").length = 2 := Option.some.inj hrows
  refine ⟨_, hreached, list_agrees_iff hreached ?_ ?_⟩
  · intro hnil
    rw [hnil] at hlength
    cases hlength
  · rw [hlength]
    decide

/-- The list calls such a bucket resolving, and the detail calls it regressed. -/
theorem list_misses_fix_inside_hour :
    ¬ ∀ s, Reaches (HistoryStep oneBucket) {} s → ∀ (app bucket : String) (now : Rfc3339),
      (s.store.bucketRows app bucket).length < ({} : ResolutionConfig).baselineSample →
      s.store.bucketRows app bucket ≠ [] → PathsAgree {} s.store app bucket now := by
  intro hall
  obtain ⟨t, ht⟩ := ok_of_isOk (by decide : (crashesOnFix (600 * microsPerSecond)).isOk = true)
  obtain ⟨log, hreached⟩ := crashesOnFix_reached ht
  have hread : (crashesOnFix (600 * microsPerSecond)).toOption.map (fun t =>
      ((t.bucketRows "shop" "bkt_dd250179f692").length,
        listStatus {} t "shop" "bkt_dd250179f692" (toRfc3339 0),
        (getBucketDetail {} t {} "shop" "bkt_dd250179f692" (toRfc3339 0)).status)) =
      some (2, some .resolving, some .regressed) := by decide
  rw [ht] at hread
  simp only [Except.toOption, Option.map_some, Option.some.injEq, Prod.mk.injEq] at hread
  obtain ⟨hlength, hlist, hdetail⟩ := hread
  have hagree := hall _ hreached "shop" "bkt_dd250179f692" (toRfc3339 0)
    (by rw [hlength]; decide) (by intro hnil; rw [hnil] at hlength; cases hlength)
  have hstatus := hagree.1
  rw [hlist, hdetail] at hstatus
  cases hstatus

end ReproitCloud
