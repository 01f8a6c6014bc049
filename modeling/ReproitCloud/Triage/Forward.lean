import ReproitCloud.Lib.Shards
import ReproitCloud.Telemetry.ErrorLog
import ReproitCloud.Triage.Agreement
import ReproitCloud.Triage.PostFix
import ReproitCloud.Triage.Sweep

/-!
# Verdicts go forward

The verdict on a bucket is computed again at every read, from whatever is stored then.  While the
bucket keeps its fix anchor and its rows, telemetry only adds to what the verdict is computed from:
rows and windows of the bucket, batches of a build, and builds (`BucketGrows`).  A build keeps the
instant at which it was first seen.  So the verdicts go one way, from resolving to resolved to
regressed (`verdicts_go_forward`): a regression stays one, and what is resolved is reopened by a
recurrence only.  It takes an app with traffic, since the first batch of an app that has none
changes the stream that its builds are ordered by.
-/

namespace ReproitCloud

open Lib

/-- How far a verdict is. -/
def Resolution.rank : Resolution → Nat
  | active => 0
  | resolving => 1
  | resolved => 2
  | regressed => 3

/-- The seconds that a verdict is computed for, as the code reads its clock. -/
def clockEpoch (now : Rfc3339) : Int := (parseEpoch now).getD 0

/-! ## The evaluation -/

/-- Builds keep the instants at which they were first seen. -/
def FirstSeen.Extends (later earlier : FirstSeen) : Prop :=
  ∀ build epoch, earlier.get? build = some epoch → later.get? build = some epoch

section Evaluation

variable {bug bug' : List Occurrence} {firstSeen firstSeen' : FirstSeen} {fixed : String}
variable {fixEpoch : Int} {traffic traffic' : Nat} {now now' : Rfc3339} {th : Thresholds}

theorem PostFix.extends {o : Occurrence} (hseen : firstSeen'.Extends firstSeen)
    (h : PostFix firstSeen fixed fixEpoch o) : PostFix firstSeen' fixed fixEpoch o := by
  obtain ⟨build, epoch, hbuild, hepoch, hside, hle⟩ := h
  refine ⟨build, epoch, hbuild, hepoch, ?_, hle⟩
  rcases hside with rfl | ⟨buildEpoch, hget, hfix⟩
  · exact .inl rfl
  · exact .inr ⟨buildEpoch, hseen build buildEpoch hget, hfix⟩

theorem Recurs.extends (hseen : firstSeen'.Extends firstSeen) (hbug : ∀ o ∈ bug, o ∈ bug')
    (h : Recurs bug firstSeen fixed fixEpoch) : Recurs bug' firstSeen' fixed fixEpoch := by
  obtain ⟨o, ho, hpost⟩ := h
  exact ⟨o, hbug o ho, postFix_iff.2 ((postFix_iff.1 hpost).extends hseen)⟩

/-- More occurrences, builds and traffic, and a later clock, take a verdict no step back. -/
theorem evaluate_forward (anchor : Option String) (hseen : firstSeen'.Extends firstSeen)
    (hbug : ∀ o ∈ bug, o ∈ bug') (htraffic : traffic ≤ traffic')
    (hnow : clockEpoch now ≤ clockEpoch now') :
    (evaluate bug firstSeen anchor traffic now th).status.rank ≤
      (evaluate bug' firstSeen' anchor traffic' now' th).status.rank := by
  cases anchor with
  | none => simp [evaluate]
  | some fixed =>
    cases hfix : firstSeen.get? fixed with
    | none =>
      rw [evaluate_status_unseen hfix]
      cases hfix' : firstSeen'.get? fixed with
      | none => rw [evaluate_status_unseen hfix']
      | some fixEpoch =>
        rw [evaluate_status_seen hfix']
        split
        · simp [Resolution.rank]
        · split <;> simp [Resolution.rank]
    | some fixEpoch =>
      rw [evaluate_status_seen hfix, evaluate_status_seen (hseen fixed fixEpoch hfix)]
      by_cases hrecurs : Recurs bug firstSeen fixed fixEpoch
      · rw [if_pos hrecurs, if_pos (hrecurs.extends hseen hbug)]
      · rw [if_neg hrecurs]
        by_cases hgates : Gates fixEpoch traffic now th
        · have hgates' : Gates fixEpoch traffic' now' th := by
            simp only [Gates, ← clockEpoch.eq_def] at hgates ⊢
            omega
          rw [if_pos hgates, if_pos hgates']
          split <;> simp [Resolution.rank]
        · rw [if_neg hgates]
          split
          · simp [Resolution.rank]
          · split <;> simp [Resolution.rank]

end Evaluation

/-! ## What telemetry adds to -/

/-- A later state of a bucket, and of the traffic of its app. -/
structure BucketGrows (app bucket : String) (t t' : TenantStore) : Prop where
  rows : t.bucketRows app bucket <+: t'.bucketRows app bucket
  windows : ∀ hour build, t.bucketWindows.has ⟨app, bucket, hour, build⟩ = true →
    t'.bucketWindows.has ⟨app, bucket, hour, build⟩ = true
  traffic : ∀ build v, t.buildTraffic.get? (app, build) = some v →
    ∃ v', t'.buildTraffic.get? (app, build) = some v' ∧ v'.firstSeen = v.firstSeen ∧
      v.count ≤ v'.count
  anchor : anchorOf t' app bucket = anchorOf t app bucket

section Grows

variable {app bucket : String} {t t' t'' : TenantStore}

theorem BucketGrows.refl (app bucket : String) (t : TenantStore) : BucketGrows app bucket t t :=
  ⟨List.prefix_rfl, fun _ _ h => h, fun _ v hv => ⟨v, hv, rfl, le_rfl⟩, rfl⟩

theorem BucketGrows.trans (h : BucketGrows app bucket t t') (h' : BucketGrows app bucket t' t'') :
    BucketGrows app bucket t t'' where
  rows := h.rows.trans h'.rows
  windows hour build hk := h'.windows hour build (h.windows hour build hk)
  traffic build v hv := by
    obtain ⟨v', hv', hseen, hcount⟩ := h.traffic build v hv
    obtain ⟨v'', hv'', hseen', hcount'⟩ := h'.traffic build v' hv'
    exact ⟨v'', hv'', hseen'.trans hseen, hcount.trans hcount'⟩
  anchor := h'.anchor.trans h.anchor

theorem has_bumpGroups {κ : Type} [DecidableEq κ] {c : Table κ Int} {k : κ} (ks : List κ)
    (h : c.has k = true) : (c.bumpGroups ks).has k = true := by
  have hstep : ∀ (l : List κ) (c : Table κ Int), c.has k = true →
      (l.foldl (fun t k => t.bump k (ks.count k)) c).has k = true := by
    intro l
    induction l with
    | nil => exact fun _ h => h
    | cons k' l ih =>
      intro c h
      refine ih _ ?_
      show (c.upsert k' _ _).has k = true
      rw [Table.has_upsert, h, Bool.or_true]
  exact hstep _ c h

/-- Ingest adds. -/
theorem bucketGrows_ingest {P : Platform} {now : Micros} {b : IngestBatch} {dup : Bool}
    (h : ingestBatch P t now b = .ok (dup, t')) : BucketGrows app bucket t t' := by
  rcases ingestBatch_cases h with ⟨rfl, -⟩ | ⟨-, hingested⟩
  · exact .refl app bucket t'
  have hins := hingested.inserted
  obtain ⟨traffic, htraffic⟩ := recordTraffic_eq t now b.appId b.deployment
  have hcount := hins.traffic
  have hanchor := hins.triage
  have herrors := hins.errors
  have hwindows := hins.windows
  rw [htraffic] at herrors hwindows hanchor
  refine ⟨?_, fun hour build hk => ?_, fun build v hv => ?_, ?_⟩
  · rw [TenantStore.bucketRows, TenantStore.bucketRows, herrors, ErrorTable.insert,
      List.filter_append]
    exact List.prefix_append _ _
  · rw [hwindows]
    exact has_bumpGroups _ hk
  · rw [hcount]
    cases hdeployment : b.deployment with
    | none => exact ⟨v, hv, rfl, le_rfl⟩
    | some d =>
      rw [recordTraffic, Table.get?_upsert]
      split
      · rename_i hkey
        rw [← hkey, hv]
        exact ⟨_, rfl, rfl, by simp⟩
      · exact ⟨v, hv, rfl, le_rfl⟩
  · rw [anchorOf, anchorOf, hanchor]

theorem get?_dropOne_other {κ : Type} [DecidableEq κ] {c : Table κ Int} {sweep : κ → Bool}
    {k k' : κ} (hne : k ≠ k') (hsweep : sweep k = false) :
    (c.dropOne sweep k').get? k = c.get? k := by
  rw [Table.dropOne, Table.get?_delete_of_false _ fun v => by rw [hsweep, Bool.false_and],
    Table.get?_update]
  simp [hne]

/-- A firing for a row of another bucket takes nothing off the windows of this one. -/
theorem get?_triggerWindows {R : Renderings} {old : ErrorRow} (w : Table WindowKey Int)
    {k : WindowKey} (h : old.inBucket k.appId k.bucketId = false) :
    (triggerWindows R old w).get? k = w.get? k := by
  rw [triggerWindows, windowKeysOf]
  cases hbucket : old.bucketId with
  | none => rfl
  | some b =>
    have hother : ¬ (k.appId = old.appId ∧ k.bucketId = b) := by
      rintro ⟨happ, hb⟩
      simp [ErrorRow.inBucket, hbucket, happ, hb] at h
    rw [Option.toList_some, List.map_singleton, List.foldl_cons, List.foldl_nil]
    apply get?_dropOne_other
    · rintro rfl
      exact hother ⟨rfl, rfl⟩
    · simpa only [Bool.and_eq_false_iff, decide_eq_false_iff_not, not_and_or] using hother

/-- A deletion of errors of other buckets leaves what a verdict is computed from. -/
theorem bucketGrows_deleteErrors {R : Renderings} {p : ErrorRow → Bool} {order : List ErrorRow}
    (horder : order.Perm (t.selected p)) (h : deleteErrors R t p order = .ok t')
    (hkept : ∀ r ∈ t.bucketRows app bucket, p r = false) : BucketGrows app bucket t t' := by
  have hrows : t'.bucketRows app bucket = t.bucketRows app bucket := by
    have hremoved := bucketRows_removeErrorRows (t := t) (p := p) app bucket
    have hall : (t.bucketRows app bucket).filter (fun r => !p r) = t.bucketRows app bucket :=
      List.filter_eq_self.2 fun r hr => by simp [hkept r hr]
    rw [← hall, ← hremoved, TenantStore.bucketRows, (errors_deleteErrors h).1]
    rfl
  have hpending : ∀ r ∈ order, r.inBucket app bucket = false := by
    intro r hr
    obtain ⟨hmem, hp⟩ := List.mem_filter.1 (horder.subset hr)
    by_contra hin
    have := hkept r (List.mem_filter.2 ⟨hmem, by simpa using hin⟩)
    simp [this] at hp
  have hwindows := firings_invariant (R := R) (t := removeErrorRows t p)
    (fun u pending => (∀ r ∈ pending, r.inBucket app bucket = false) ∧ ∀ hour build,
      u.bucketWindows.get? ⟨app, bucket, hour, build⟩ =
        t.bucketWindows.get? ⟨app, bucket, hour, build⟩)
    (fun u v old pending hu hfire => by
      obtain ⟨summaries, -, rfl⟩ := removeErrorFromReadModels_inv hfire
      refine ⟨fun r hr => hu.1 r (List.mem_cons_of_mem old hr), fun hour build => ?_⟩
      rw [← hu.2 hour build]
      exact get?_triggerWindows u.bucketWindows (hu.1 old List.mem_cons_self))
    ⟨hpending, fun _ _ => rfl⟩ h
  have hothers := deletedFrom_deleteErrors h
  refine ⟨?_, fun hour build hk => ?_, fun build v hv => ?_, ?_⟩
  · rw [hrows]
  · rw [Table.has, hwindows.2 hour build]
    exact hk
  · rw [hothers]
    exact ⟨v, hv, rfl, le_rfl⟩
  · rw [hothers]
    rfl

end Grows

/-! ## The order of builds and the traffic -/

section Traffic

variable {app : String} {t t' : TenantStore}

/-- The traffic of an app, as the evaluation reads it. -/
def trafficRows (t : TenantStore) (app : String) : List (Occurrence × Nat) :=
  weightedTraffic (buildTrafficOf t app)

theorem mem_trafficRows {r : Occurrence × Nat} :
    r ∈ trafficRows t app ↔ ∃ build v, t.buildTraffic.get? (app, build) = some v ∧
      r = (⟨toRfc3339 v.firstSeen, some build⟩, v.count.toNat) := by
  simp only [trafficRows, weightedTraffic, buildTrafficOf, List.mem_map, List.mem_insertionSort,
    List.mem_filter, decide_eq_true_eq]
  constructor
  · rintro ⟨_, ⟨⟨⟨a, build⟩, v⟩, ⟨hmem, rfl⟩, rfl⟩, rfl⟩
    exact ⟨build, v, Table.get?_eq_some_iff.2 hmem, rfl⟩
  · rintro ⟨build, v, hget, rfl⟩
    exact ⟨_, ⟨((app, build), v), ⟨Table.get?_eq_some_iff.1 hget, rfl⟩, rfl⟩, rfl⟩

/-- A build has one row. -/
theorem trafficRows_nodup (t : TenantStore) (app : String) :
    ((trafficRows t app).map fun r => r.1.build).Nodup := by
  have hkeys : ((t.buildTraffic.rows.filter fun r => r.1.1 = app).map Prod.fst).Nodup :=
    t.buildTraffic.keys_nodup.sublist (List.filter_sublist.map Prod.fst)
  have hbuilds : ((t.buildTraffic.rows.filter fun r => r.1.1 = app).map
      fun r => some r.1.2).Nodup := by
    have hmap := hkeys.map_on (f := fun k : String × String => some k.2) ?_
    · rwa [List.map_map] at hmap
    · intro k hk k' hk' heq
      obtain ⟨r, hr, rfl⟩ := List.mem_map.1 hk
      obtain ⟨r', hr', rfl⟩ := List.mem_map.1 hk'
      have happ : r.1.1 = app := of_decide_eq_true (List.mem_filter.1 hr).2
      have happ' : r'.1.1 = app := of_decide_eq_true (List.mem_filter.1 hr').2
      exact Prod.ext (happ.trans happ'.symm) (Option.some.inj heq)
  rw [trafficRows, weightedTraffic, buildTrafficOf, List.map_map, List.map_map]
  exact ((List.perm_insertionSort _ _).map _).nodup_iff.2 hbuilds

/-- A build is first seen with its first batch. -/
theorem get?_firstSeen_traffic (t : TenantStore) (app build : String) (epoch : Int) :
    (firstSeenByBuild ((trafficRows t app).map Prod.fst)).get? build = some epoch ↔
      ∃ v, t.buildTraffic.get? (app, build) = some v ∧ epochOf v.firstSeen = epoch := by
  have hseen : ∀ e, SeenAt ((trafficRows t app).map Prod.fst) build e ↔
      ∃ v, t.buildTraffic.get? (app, build) = some v ∧ epochOf v.firstSeen = e := by
    intro e
    simp only [SeenAt, List.mem_map]
    constructor
    · rintro ⟨_, ⟨r, hr, rfl⟩, hbuild, hepoch⟩
      obtain ⟨build', v, hget, rfl⟩ := mem_trafficRows.1 hr
      cases hbuild
      exact ⟨v, hget, Option.some.inj hepoch⟩
    · rintro ⟨v, hget, rfl⟩
      exact ⟨_, ⟨_, mem_trafficRows.2 ⟨build, v, hget, rfl⟩, rfl⟩, rfl, rfl⟩
  rw [get?_firstSeenByBuild]
  constructor
  · exact fun hleast => (hseen epoch).1 hleast.1
  · rintro ⟨v, hget, rfl⟩
    refine ⟨(hseen _).2 ⟨v, hget, rfl⟩, fun e he => ?_⟩
    obtain ⟨v', hget', rfl⟩ := (hseen e).1 he
    rw [hget] at hget'
    cases hget'
    exact le_rfl

variable {bucket : String}

theorem BucketGrows.firstSeen (h : BucketGrows app bucket t t') :
    (firstSeenByBuild ((trafficRows t' app).map Prod.fst)).Extends
      (firstSeenByBuild ((trafficRows t app).map Prod.fst)) := by
  intro build epoch hepoch
  obtain ⟨v, hget, rfl⟩ := (get?_firstSeen_traffic t app build epoch).1 hepoch
  obtain ⟨v', hget', hseen, -⟩ := h.traffic build v hget
  exact (get?_firstSeen_traffic t' app build _).2 ⟨v', hget', by rw [hseen]⟩

/-- The batches on builds after the fix only grow in number. -/
theorem BucketGrows.postFixTraffic (h : BucketGrows app bucket t t') (fixed : String) :
    postFixBuildTraffic (trafficRows t app) fixed ≤
      postFixBuildTraffic (trafficRows t' app) fixed := by
  have hextends := h.firstSeen
  rw [postFixBuildTraffic, postFixBuildTraffic]
  cases hfix : (firstSeenByBuild ((trafficRows t app).map Prod.fst)).get? fixed with
  | none => simp
  | some fixEpoch =>
    simp only [hextends fixed fixEpoch hfix]
    have hnodup : (((trafficRows t app).filter fun r => postFix
        (firstSeenByBuild ((trafficRows t app).map Prod.fst)) fixed fixEpoch r.1).map
          fun r => r.1.build).Nodup :=
      (trafficRows_nodup t app).sublist (List.filter_sublist.map _)
    refine sum_le_of_keyed hnodup fun r hr => ?_
    obtain ⟨hmem, hpost⟩ := List.mem_filter.1 hr
    obtain ⟨build, v, hget, rfl⟩ := mem_trafficRows.1 hmem
    obtain ⟨v', hget', hseen, hcount⟩ := h.traffic build v hget
    have hmem' := mem_trafficRows.2 ⟨build, v', hget', rfl⟩
    rw [hseen] at hmem'
    refine ⟨_, List.mem_filter.2 ⟨hmem', ?_⟩, rfl, Int.toNat_le_toNat hcount⟩
    exact postFix_iff.2 ((postFix_iff.1 hpost).extends hextends)

/-- An app with traffic keeps it. -/
theorem BucketGrows.traffic_ne_nil (h : BucketGrows app bucket t t')
    (htraffic : buildTrafficOf t app ≠ []) : buildTrafficOf t' app ≠ [] := by
  have hrows : trafficRows t app ≠ [] := by simpa [trafficRows, weightedTraffic] using htraffic
  obtain ⟨r, hr⟩ := List.exists_mem_of_ne_nil _ hrows
  obtain ⟨build, v, hget, -⟩ := mem_trafficRows.1 hr
  obtain ⟨v', hget', -⟩ := h.traffic build v hget
  have hrow := mem_trafficRows.2 ⟨build, v', hget', rfl⟩
  intro hnil
  rw [trafficRows, hnil] at hrow
  cases hrow

end Traffic

/-! ## The verdicts -/

/-- No path to a verdict on a bucket takes a step back from a state and a time to another. -/
structure GoesForward (cfg : ResolutionConfig) (app bucket : String) (t : TenantStore)
    (now : Rfc3339) (t' : TenantStore) (now' : Rfc3339) : Prop where
  list : (listResolution cfg t app bucket now).status.rank ≤
    (listResolution cfg t' app bucket now').status.rank
  detail : ∀ r, getBucketDetail cfg t {} app bucket now = .found r →
    ∃ r', getBucketDetail cfg t' {} app bucket now' = .found r' ∧ r.status.rank ≤ r'.status.rank
  timeline : ∀ r, getBucketTimeline cfg t {} app bucket now = .found r →
    ∃ r', getBucketTimeline cfg t' {} app bucket now' = .found r' ∧ r.status.rank ≤ r'.status.rank
  sweep : ∀ fixed r, computeForBucket cfg t {} app bucket fixed now = some r →
    ∃ r', computeForBucket cfg t' {} app bucket fixed now' = some r' ∧
      r.1.status.rank ≤ r'.1.status.rank

section Verdicts

variable {cfg : ResolutionConfig} {app bucket : String} {t t' : TenantStore} {now now' : Rfc3339}

/-- The rows read are among those read later: the cap keeps the oldest. -/
theorem BucketGrows.rowsRead (h : BucketGrows app bucket t t') (cap : Nat) :
    ∀ o ∈ occurrencesOf (errorsForBucket t app bucket cap),
      o ∈ occurrencesOf (errorsForBucket t' app bucket cap) := by
  have hread : occurrencesOf (errorsForBucket t app bucket cap) <+:
      occurrencesOf (errorsForBucket t' app bucket cap) :=
    ((h.rows.take cap).map ErrorRow.withMeta).map _
  exact fun o ho => hread.subset ho

theorem BucketGrows.windowsRead (h : BucketGrows app bucket t t') :
    ∀ o ∈ windowOccurrences t app bucket, o ∈ windowOccurrences t' app bucket := by
  intro o ho
  simp only [windowOccurrences, bucketWindowCounts, List.mem_map, List.mem_insertionSort,
    List.mem_filter, Bool.and_eq_true, decide_eq_true_eq] at ho ⊢
  obtain ⟨-, ⟨⟨⟨a, b, hour, build⟩, n⟩, ⟨hmem, rfl, rfl⟩, rfl⟩, rfl⟩ := ho
  have hhas := h.windows hour build (Table.has_iff_mem_keys.2 (List.mem_map_of_mem hmem))
  obtain ⟨⟨-, n'⟩, hmem', rfl⟩ := List.mem_map.1 (Table.has_iff_mem_keys.1 hhas)
  exact ⟨_, ⟨_, ⟨hmem', rfl, rfl⟩, rfl⟩, rfl⟩

/-- On the traffic of an app that has some, later evidence takes an evaluation no step back. -/
theorem evaluateOn_forward {bug bug' : List Occurrence} (h : BucketGrows app bucket t t')
    (htraffic : buildTrafficOf t app ≠ []) (hbug : ∀ o ∈ bug, o ∈ bug')
    (hnow : clockEpoch now ≤ clockEpoch now') (anchor : Option String) :
    (evaluateOn cfg bug (evidenceOf cfg t {} app).weighted (evidenceOf cfg t {} app).recent anchor
        now).status.rank ≤
      (evaluateOn cfg bug' (evidenceOf cfg t' {} app).weighted (evidenceOf cfg t' {} app).recent
        anchor now').status.rank := by
  have hempty : ∀ {u : TenantStore}, buildTrafficOf u app ≠ [] →
      (evidenceOf cfg u {} app).weighted.isEmpty = false := by
    intro u hu
    rw [List.isEmpty_eq_false_iff]
    exact fun hnil => hu (List.map_eq_nil_iff.1 hnil)
  rw [evaluateOn, evaluateOn, appStreamOf, appStreamOf, hempty htraffic,
    hempty (h.traffic_ne_nil htraffic)]
  refine evaluate_forward anchor h.firstSeen hbug ?_ hnow
  cases anchor with
  | none => exact Nat.le_refl 0
  | some fixed =>
    rw [Option.elim_some, Option.elim_some, trafficAfter, trafficAfter, hempty htraffic,
      hempty (h.traffic_ne_nil htraffic)]
    exact h.postFixTraffic fixed

/-- What both endpoints answer goes forward. -/
theorem answerOn_forward (h : BucketGrows app bucket t t') (htraffic : buildTrafficOf t app ≠ [])
    (hnow : clockEpoch now ≤ clockEpoch now') {r : Outcome}
    (hfound : answerOn cfg t {} app bucket now (rowsRead cfg t app bucket) = .found r) :
    ∃ r', answerOn cfg t' {} app bucket now' (rowsRead cfg t' app bucket) = .found r' ∧
      r.status.rank ≤ r'.status.rank := by
  simp only [answerOn, Bool.false_eq_true, if_false] at hfound
  split at hfound
  · cases hfound
  · rename_i hrows
    cases hfound
    have hrows' : (errorsForBucket t' app bucket cfg.baselineSample).isEmpty = false := by
      rw [List.isEmpty_eq_false_iff]
      intro hnil
      have hprefix := (h.rows.take cfg.baselineSample).map ErrorRow.withMeta
      rw [errorsForBucket] at hnil
      rw [hnil, List.prefix_nil] at hprefix
      exact hrows (List.isEmpty_iff.2 hprefix)
    refine ⟨_, by rw [answerOn, hrows']; rfl, ?_⟩
    rw [h.anchor]
    exact evaluateOn_forward h htraffic (h.rowsRead cfg.baselineSample) hnow _

/-- A bucket that grows has its verdicts go forward. -/
theorem BucketGrows.forward (h : BucketGrows app bucket t t') (htraffic : buildTrafficOf t app ≠ [])
    (hnow : clockEpoch now ≤ clockEpoch now') :
    GoesForward cfg app bucket t now t' now' where
  list := by
    rw [listResolution_of_traffic htraffic,
      listResolution_of_traffic (h.traffic_ne_nil htraffic), h.anchor]
    exact evaluateOn_forward h htraffic h.windowsRead hnow _
  detail r hr := by
    rw [getBucketDetail_eq] at hr ⊢
    exact answerOn_forward h htraffic hnow hr
  timeline r hr := by
    rw [getBucketTimeline_eq] at hr ⊢
    exact answerOn_forward h htraffic hnow hr
  sweep fixed r hr := by
    rw [computeForBucket_eq] at hr ⊢
    cases hr
    exact ⟨_, rfl, evaluateOn_forward h htraffic (h.rowsRead cfg.baselineSample) hnow _⟩

end Verdicts

/-! ## Runs -/

/-- The step takes no row of the bucket and leaves its anchor. -/
structure KeepsBucket (app bucket : String) (s : Sweeping) (_ : SweepEvent) (s' : Sweeping) :
    Prop where
  rows : ∀ r ∈ s.store.telemetry.bucketRows app bucket,
    r ∈ s'.store.telemetry.bucketRows app bucket
  anchor : anchorOf s'.store.telemetry app bucket = anchorOf s.store.telemetry app bucket

section Runs

variable {P : Platform} {cfg : ResolutionConfig} {app bucket : String} {s s' : Sweeping}

/-- A sweep writes statuses and events only. -/
theorem bucketGrows_effect (app bucket : String) (s : SweepStore) (op : SweepOp) :
    BucketGrows app bucket s.telemetry (op.effect s).telemetry := by
  have hsame : ∀ t : TenantStore, t.errors = s.telemetry.errors →
      t.bucketWindows = s.telemetry.bucketWindows → t.buildTraffic = s.telemetry.buildTraffic →
      t.bucketTriage = s.telemetry.bucketTriage → BucketGrows app bucket s.telemetry t := by
    intro t herrors hwindows htraffic htriage
    refine ⟨?_, fun hour build hk => ?_, fun build v hv => ?_, ?_⟩
    · rw [TenantStore.bucketRows, TenantStore.bucketRows, herrors]
    · rwa [hwindows]
    · rw [htraffic]
      exact ⟨v, hv, rfl, le_rfl⟩
    · rw [anchorOf, anchorOf, htriage]
  cases op with
  | anchoring now => exact .refl app bucket s.telemetry
  | sweeping b rest now point => cases point <;> exact hsame _ rfl rfl rfl rfl

/-- A triage statement writes the anchor only. -/
theorem bucketGrows_triaged {t : TenantStore} (triage : Table (String × String) TriageRow)
    (hanchor : anchorOf { t with bucketTriage := triage } app bucket = anchorOf t app bucket) :
    BucketGrows app bucket t { t with bucketTriage := triage } :=
  ⟨List.prefix_rfl, fun _ _ hk => hk, fun _ v hv => ⟨v, hv, rfl, le_rfl⟩, hanchor⟩

theorem bucketGrows_commit {c : SweepCommit} {store : SweepStore}
    (h : commitSweep P s.store c = some store)
    (hrows : ∀ r ∈ s.store.telemetry.bucketRows app bucket,
      r ∈ store.telemetry.bucketRows app bucket)
    (hanchor : anchorOf store.telemetry app bucket = anchorOf s.store.telemetry app bucket) :
    BucketGrows app bucket s.store.telemetry store.telemetry := by
  cases c with
  | ingest now b =>
    simp only [commitSweep, Option.map_eq_some_iff] at h
    obtain ⟨t, ht, rfl⟩ := h
    cases telemetryStep_of_commit ht with
    | ingest hingest => exact bucketGrows_ingest hingest
  | expire now days limit ids =>
    simp only [commitSweep, Option.map_eq_some_iff] at h
    obtain ⟨t, ht, rfl⟩ := h
    cases telemetryStep_of_commit ht with
    | deleteErrors horder hdelete =>
      refine bucketGrows_deleteErrors horder hdelete fun r hr => ?_
      have hkept := (List.mem_filter.1 (hrows r hr)).1
      rw [(errors_deleteErrors hdelete).1, ErrorTable.delete, List.mem_filter] at hkept
      simpa using hkept.2
  | triage a b status assignee fixedInBuild =>
    cases h
    exact bucketGrows_triaged _ hanchor
  | advance a b status fixedInBuild =>
    cases h
    exact bucketGrows_triaged _ hanchor

theorem bucketGrows_step {e : SweepEvent} (h : (sweeps P cfg).step s e = some s')
    (hok : KeepsBucket app bucket s e s') :
    BucketGrows app bucket s.store.telemetry s'.store.telemetry := by
  cases Program.effect_of_step h with
  | start _ => exact .refl app bucket _
  | abandon _ => exact .refl app bucket _
  | @advance i result op store next hop hnext =>
    have hstore : store = (sweepNext cfg s.store result op).1 := by
      have heq := Option.some.inj hnext
      rw [heq]
    rcases sweepNext_cases cfg s.store result op with ⟨-, hcall⟩ | ⟨-, hcall⟩
    · rw [hstore, hcall]
      exact .refl app bucket _
    · rw [hstore, hcall]
      exact bucketGrows_effect app bucket s.store op
  | commit hwrite => exact bucketGrows_commit hwrite hok.rows hok.anchor

/-- A run that takes no row of the bucket and leaves its anchor only adds to its verdicts. -/
theorem bucketGrows_run {es : List SweepEvent}
    (h : Run (Guarded (stepOf (sweeps P cfg).step) (KeepsBucket app bucket)) s es s') :
    BucketGrows app bucket s.store.telemetry s'.store.telemetry := by
  induction h with
  | nil s => exact .refl app bucket _
  | cons hstep _ ih => exact (bucketGrows_step hstep.1 hstep.2).trans ih

end Runs

/-- While a bucket keeps its anchor and its rows, sweeps, ingested batches, errors of other buckets
that expire, and triage take no verdict on it a step back, in the list, in the detail, in the
timeline or in a sweep.  What the app's traffic is read from is a different stream before its first
batch, so there has to be one. -/
theorem verdicts_go_forward {P : Platform} {cfg : ResolutionConfig} {app bucket : String}
    {s s' : Sweeping} {es : List SweepEvent} {now now' : Rfc3339}
    (h : Run (Guarded (stepOf (sweeps P cfg).step) (KeepsBucket app bucket)) s es s')
    (htraffic : buildTrafficOf s.store.telemetry app ≠ [])
    (hnow : clockEpoch now ≤ clockEpoch now') :
    GoesForward cfg app bucket s.store.telemetry now s'.store.telemetry now' :=
  (bucketGrows_run h).forward htraffic hnow

/-- A crash before the fix, claimed to be fixed in a build that is to come. -/
def crashBeforeFix : Except SqlError TenantStore := do
  let (_, t) ← ingestBatch oneBucket .empty 0
    { twoCrashes (some "c0") with batchId := "batch-0", errors := [boom (onCommit "c0")] }
  return upsertTriage t "shop" "bkt_dd250179f692" "fixed" none (some "c1")

/-- The fix comes, with crashes on it. -/
theorem verdicts_go_forward_regressed :
    ∃ s s' es, Run (Guarded (stepOf (sweeps oneBucket {}).step)
        (KeepsBucket "shop" "bkt_dd250179f692")) s es s' ∧
      listStatus {} s.store.telemetry "shop" "bkt_dd250179f692" (toRfc3339 0) = some .resolving ∧
      listStatus {} s'.store.telemetry "shop" "bkt_dd250179f692" (toRfc3339 1) = some .regressed ∧
      GoesForward {} "shop" "bkt_dd250179f692" s.store.telemetry (toRfc3339 0)
        s'.store.telemetry (toRfc3339 1) := by
  have hsome : crashBeforeFix.toOption.bind (fun t =>
      (ingestBatch oneBucket t 0 (twoCrashes (some "c1"))).toOption.map fun r =>
        (listStatus {} t "shop" "bkt_dd250179f692" (toRfc3339 0),
          listStatus {} r.2 "shop" "bkt_dd250179f692" (toRfc3339 1),
          (buildTrafficOf t "shop").length)) =
      some (some .resolving, some .regressed, 1) := by decide
  obtain ⟨t, -, hrest⟩ := Option.bind_eq_some_iff.1 hsome
  obtain ⟨⟨dup, t'⟩, hingest, hread⟩ := Option.map_eq_some_iff.1 hrest
  simp only [Prod.mk.injEq] at hread
  obtain ⟨hbefore, hafter, htraffic⟩ := hread
  have hok : ingestBatch oneBucket t 0 (twoCrashes (some "c1")) = .ok (dup, t') := by
    cases hbatch : ingestBatch oneBucket t 0 (twoCrashes (some "c1")) with
    | error e =>
      rw [hbatch] at hingest
      cases hingest
    | ok r =>
      rw [hbatch] at hingest
      cases hingest
      rfl
  have hgrows : BucketGrows "shop" "bkt_dd250179f692" t t' := bucketGrows_ingest hok
  have hrun : Run (Guarded (stepOf (sweeps oneBucket {}).step)
      (KeepsBucket "shop" "bkt_dd250179f692")) ⟨{ telemetry := t }, []⟩
        [.commit (.ingest 0 (twoCrashes (some "c1")))] ⟨{ telemetry := t' }, []⟩ := by
    refine .cons ⟨?_, fun r hr => hgrows.rows.subset hr, hgrows.anchor⟩ (.nil _)
    simp [stepOf, Program.step, sweeps, commitSweep, commitTelemetry, hok, Except.toOption]
  refine ⟨_, _, _, hrun, hbefore, hafter, verdicts_go_forward hrun ?_ (by decide)⟩
  intro hnil
  rw [hnil] at htraffic
  cases htraffic

end ReproitCloud
