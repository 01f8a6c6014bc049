import ReproitCloud.Lib.Groups
import ReproitCloud.Telemetry.ErrorLog
import ReproitCloud.Triage.Impact
import ReproitCloud.Triage.Packages

/-!
# The bucket list is a grouping of the log

The list is made from the summaries, which ingest and the delete trigger change row by row.
`group` is the grouping of errors by their content-addressed id, which the source keeps beside
the summaries as what they mean.

In every run the list has the groups of the app's errors, each once, with the number of its
occurrences and its oldest and newest record (`bucket_list_groups`).  The two sorted parts of the
list are the groups whose newest record is a capture of a tester that no replay has confirmed,
and the others; and the counts add up to the errors that there are.
-/

namespace ReproitCloud

open Lib

/-- `buckets::group`: the places of the occurrences of each bucket, the largest bucket first. -/
def group (P : Platform) (occ : List ErrorMeta) : List (String × List Nat) :=
  (groupPlaces (fun o => P.bucketId o.2.2) occ).insertionSort fun a b => b.2.length ≤ a.2.length

/-- The errors of an app, oldest first. -/
def appErrors (t : TenantStore) (app : String) : List ErrorMeta :=
  (t.errors.rows.filter fun r => r.appId = app).map ErrorRow.withMeta

/-- A bucket with the number of its occurrences and the two at the ends. -/
structure BucketEnds where
  bucketId : String
  count : Nat
  oldest : ErrorRec
  newest : ErrorRec

/-- What the list has of a bucket. -/
def BucketRollup.ends (r : BucketRollup) : BucketEnds := ⟨r.bucketId, r.count, r.oldest, r.newest⟩

/-- The same of a group. -/
def groupEnds (occ : List ErrorMeta) (g : String × List Nat) : Option BucketEnds :=
  match g.2.head?.bind fun i => occ[i]?, g.2.getLast?.bind fun i => occ[i]? with
  | some first, some last => some ⟨g.1, g.2.length, first.2.2, last.2.2⟩
  | _, _ => none

/-- The groups of the errors of an app. -/
def groupsOf (P : Platform) (t : TenantStore) (app : String) : List BucketEnds :=
  (group P (appErrors t app)).filterMap (groupEnds (appErrors t app))

/-- A capture of a tester that no replay has confirmed. -/
def BucketEnds.pending (confirmed : String → Bool) (e : BucketEnds) : Bool :=
  isTesterCapture e.newest && !confirmed e.bucketId

/-- The bucket has these rows. -/
def EndsOf (rows : List ErrorRow) (e : BucketEnds) : Prop :=
  ∃ first last, rows.head? = some first ∧ rows.getLast? = some last ∧
    e = ⟨e.bucketId, rows.length, first.record, last.record⟩

/-! ## The list -/

section List

variable {t : TenantStore} {app bucket : String}

/-- The rollup of a bucket has the ends of its rows. -/
theorem rollupOf_of_agrees (h : SummariesAgree t) {s : BucketSummary}
    (hs : t.bucketSummaries.get? (app, bucket) = some s) :
    ∃ first last, (t.bucketRows app bucket).head? = some first ∧
      (t.bucketRows app bucket).getLast? = some last ∧
      rollupOf t ((app, bucket), s) = some ⟨bucket, (t.bucketRows app bucket).length,
        toRfc3339 s.lastSeen, first.record, last.record⟩ := by
  have hsummary := h app bucket
  rw [hs] at hsummary
  obtain ⟨hcount, hleast, hgreatest⟩ := hsummary
  have hne : t.bucketRows app bucket ≠ [] := by
    obtain ⟨r, hr, -⟩ := hleast.1
    exact List.ne_nil_of_mem hr
  obtain ⟨first, hfirst⟩ := Option.isSome_iff_exists.1 (List.isSome_head?.2 hne)
  obtain ⟨last, hlast⟩ := Option.isSome_iff_exists.1 (List.getLast?_isSome.2 hne)
  have holdest := ErrorTable.find?_of_id (t := t.errors)
    (List.mem_filter.1 (List.mem_of_head? hfirst)).1
  have hnewest := ErrorTable.find?_of_id (t := t.errors)
    (List.mem_filter.1 (List.mem_of_getLast? hlast)).1
  rw [head_of_isLeast (bucketRows_sorted t app bucket) hleast hfirst] at holdest
  rw [getLast_of_isGreatest (bucketRows_sorted t app bucket) hgreatest hlast] at hnewest
  refine ⟨first, last, hfirst, hlast, ?_⟩
  rw [rollupOf, holdest, hnewest, hcount, Int.toNat_natCast]

theorem mem_rollups_iff (h : SummariesAgree t) {e : BucketEnds} :
    e ∈ (bucketRollups t app).map BucketRollup.ends ↔ EndsOf (t.bucketRows app e.bucketId) e := by
  constructor
  · intro he
    obtain ⟨r, hr, rfl⟩ := List.mem_map.1 he
    obtain ⟨s, hs, hrollup⟩ := mem_bucketRollups_iff.1 hr
    obtain ⟨first, last, hfirst, hlast, hthis⟩ := rollupOf_of_agrees h hs
    rw [hthis] at hrollup
    refine ⟨first, last, hfirst, hlast, ?_⟩
    have hr := Option.some.inj hrollup
    rw [← hr]
    rfl
  · rintro ⟨first, last, hfirst, hlast, he⟩
    cases hs : t.bucketSummaries.get? (app, e.bucketId) with
    | none =>
      have hnil := h app e.bucketId
      rw [hs] at hnil
      rw [show t.bucketRows app e.bucketId = [] from hnil] at hfirst
      cases hfirst
    | some s =>
      obtain ⟨first', last', hfirst', hlast', hrollup⟩ := rollupOf_of_agrees h hs
      rw [hfirst] at hfirst'
      rw [hlast] at hlast'
      cases hfirst'
      cases hlast'
      exact List.mem_map.2 ⟨⟨e.bucketId, (t.bucketRows app e.bucketId).length,
        toRfc3339 s.lastSeen, first.record, last.record⟩,
        mem_bucketRollups_iff.2 ⟨s, hs, hrollup⟩, he.symm⟩

/-- The list has no bucket twice. -/
theorem rollups_pairwise (t : TenantStore) (app : String) :
    ((bucketRollups t app).map BucketRollup.ends).Pairwise
      fun a b => a.bucketId ≠ b.bucketId := by
  have hkeys : (t.bucketSummaries.rows.filter fun r => r.1.1 = app).Pairwise
      fun a b => a.1.2 ≠ b.1.2 := by
    refine List.Pairwise.imp_of_mem (fun {a b} ha hb hne hsame => hne ?_)
      ((List.pairwise_map.1 t.bucketSummaries.keys_nodup).filter _)
    have happ := of_decide_eq_true (List.mem_filter.1 ha).2
    rw [← of_decide_eq_true (List.mem_filter.1 hb).2] at happ
    exact Prod.ext happ hsame
  have hsorted := (List.perm_insertionSort (fun a b : (String × String) × BucketSummary =>
    a.2.firstSeen < b.2.firstSeen ∨ a.2.firstSeen = b.2.firstSeen ∧ a.1.2 ≤ b.1.2)
    (t.bucketSummaries.rows.filter fun r => r.1.1 = app)).pairwise_iff
      (fun h => Ne.symm h) |>.2 hkeys
  rw [List.pairwise_map, bucketRollups, List.pairwise_filterMap]
  have hid : ∀ {row : (String × String) × BucketSummary} {r : BucketRollup},
      rollupOf t row = some r → r.bucketId = row.1.2 := by
    intro row r hr
    unfold rollupOf at hr
    split at hr <;> cases hr
    rfl
  exact hsorted.imp fun hne r hr r' hr' => by
    show r.bucketId ≠ r'.bucketId
    rw [hid hr, hid hr']
    exact hne

end List

/-! ## The groups -/

section Groups

variable {P : Platform} {t : TenantStore} {app : String}

/-- The occurrences of a bucket are its rows. -/
theorem filter_appErrors (h : RowsBucketed P t.errors) (bucket : String) :
    (appErrors t app).filter (fun o => P.bucketId o.2.2 = bucket) =
      (t.bucketRows app bucket).map ErrorRow.withMeta := by
  rw [appErrors, List.filter_map, List.filter_filter, TenantStore.bucketRows]
  congr 1
  refine List.filter_congr fun r hr => ?_
  rw [Bool.eq_iff_iff]
  simp only [ErrorRow.inBucket, h r hr, ErrorRow.withMeta, Function.comp_apply, Bool.and_eq_true,
    decide_eq_true_iff, Option.some.injEq, and_comm]
  exact and_congr_right fun _ => decide_eq_true_iff

/-- A group has the ends of the rows of its bucket. -/
theorem groupEnds_of_mem (h : RowsBucketed P t.errors) {g : String × List Nat}
    (hg : g ∈ group P (appErrors t app)) :
    ∃ e, groupEnds (appErrors t app) g = some e ∧ e.bucketId = g.1 ∧ e.count = g.2.length ∧
      EndsOf (t.bucketRows app g.1) e := by
  obtain ⟨bucket, is⟩ := g
  obtain ⟨rfl, hne⟩ := mem_groupPlaces.1 ((List.mem_insertionSort _).1 hg)
  have hrows : (appErrors t app).filter (fun o => P.bucketId o.2.2 = bucket) =
      (t.bucketRows app bucket).map ErrorRow.withMeta := filter_appErrors h bucket
  have hfirst := getElem?_head?_places (fun o => P.bucketId o.2.2 = bucket) (appErrors t app)
  have hlast := getElem?_getLast?_places (fun o => P.bucketId o.2.2 = bucket) (appErrors t app)
  have hlength := length_places (fun o => P.bucketId o.2.2 = bucket) (appErrors t app)
  rw [hrows, List.head?_map] at hfirst
  rw [hrows, List.getLast?_map] at hlast
  rw [hrows, List.length_map] at hlength
  have hrowsne : t.bucketRows app bucket ≠ [] := by
    intro hnil
    rw [hnil, List.length_nil, List.length_eq_zero_iff] at hlength
    exact hne hlength
  obtain ⟨first, hhead⟩ := Option.isSome_iff_exists.1 (List.isSome_head?.2 hrowsne)
  obtain ⟨last, htail⟩ := Option.isSome_iff_exists.1 (List.getLast?_isSome.2 hrowsne)
  rw [hhead, Option.map_some] at hfirst
  rw [htail, Option.map_some] at hlast
  refine ⟨⟨bucket, (t.bucketRows app bucket).length, first.record, last.record⟩, ?_, rfl,
    hlength.symm, first, last, hhead, htail, rfl⟩
  simp only [groupEnds, hfirst, hlast, hlength]
  rfl

theorem mem_groupsOf_iff (h : RowsBucketed P t.errors) {e : BucketEnds} :
    e ∈ groupsOf P t app ↔ EndsOf (t.bucketRows app e.bucketId) e := by
  rw [groupsOf, List.mem_filterMap]
  constructor
  · rintro ⟨g, hg, hends⟩
    obtain ⟨e', he', hid, -, hrows⟩ := groupEnds_of_mem h hg
    rw [he', Option.some.injEq] at hends
    subst hends
    rwa [hid]
  · rintro ⟨first, last, hfirst, hlast, he⟩
    have hmem : (e.bucketId, places (fun o => P.bucketId o.2.2 = e.bucketId) (appErrors t app)) ∈
        group P (appErrors t app) := by
      refine (List.mem_insertionSort _).2 (mem_groupPlaces.2 ⟨rfl, fun hnil => ?_⟩)
      rw [places_eq_nil_iff, filter_appErrors h, List.map_eq_nil_iff] at hnil
      rw [hnil] at hfirst
      cases hfirst
    obtain ⟨e', he', hid, -, first', last', hfirst', hlast', hthis⟩ := groupEnds_of_mem h hmem
    rw [hfirst] at hfirst'
    rw [hlast] at hlast'
    cases hfirst'
    cases hlast'
    refine ⟨_, hmem, ?_⟩
    rw [he', he, hthis, hid]

theorem groupsOf_pairwise (h : RowsBucketed P t.errors) :
    (groupsOf P t app).Pairwise fun a b => a.bucketId ≠ b.bucketId := by
  have hkeys := List.pairwise_map.1
    (groupPlaces_keys_nodup (fun o : ErrorMeta => P.bucketId o.2.2) (appErrors t app))
  have hsorted := (List.perm_insertionSort (fun a b : String × List Nat =>
    b.2.length ≤ a.2.length) (groupPlaces (fun o => P.bucketId o.2.2)
      (appErrors t app))).pairwise_iff (fun h => Ne.symm h) |>.2 hkeys
  rw [groupsOf, List.pairwise_filterMap]
  refine List.Pairwise.imp_of_mem (fun {a b} ha hb hne e he e' he' => ?_) hsorted
  obtain ⟨_, hthis, hid, -⟩ := groupEnds_of_mem h ha
  obtain ⟨_, hthis', hid', -⟩ := groupEnds_of_mem h hb
  rw [he] at hthis
  rw [he'] at hthis'
  cases hthis
  cases hthis'
  rw [hid, hid']
  exact hne

/-- No group is left out. -/
theorem groupsOf_counts (h : RowsBucketed P t.errors) :
    (groupsOf P t app).map (fun e => (e.bucketId, e.count)) =
      (group P (appErrors t app)).map fun g => (g.1, g.2.length) := by
  rw [groupsOf, List.map_filterMap, ← List.filterMap_eq_map]
  refine List.filterMap_congr fun g hg => ?_
  obtain ⟨e, he, hid, hcount, -⟩ := groupEnds_of_mem h hg
  rw [he, Option.map_some, hid, hcount]
  rfl

end Groups

/-! ## Both -/

/-- The list has the groups. -/
theorem rollups_perm {P : Platform} {t : TenantStore} (hsummaries : SummariesAgree t)
    (hrows : RowsBucketed P t.errors) (app : String) :
    ((bucketRollups t app).map BucketRollup.ends).Perm (groupsOf P t app) := by
  have hnodup : ∀ {l : List BucketEnds}, l.Pairwise (fun a b => a.bucketId ≠ b.bucketId) →
      l.Nodup := fun h => h.imp fun hne heq => hne (congrArg BucketEnds.bucketId heq)
  rw [List.perm_ext_iff_of_nodup (hnodup (rollups_pairwise t app))
    (hnodup (groupsOf_pairwise hrows))]
  intro e
  rw [mem_rollups_iff hsummaries, mem_groupsOf_iff hrows]

/-- A sorted part of the list has the groups of that part. -/
theorem ranked_perm {P : Platform} {t : TenantStore} {app : String} {cfg : ResolutionConfig}
    {now : Rfc3339} (h : ((bucketRollups t app).map BucketRollup.ends).Perm (groupsOf P t app))
    (p : BucketEnds → Bool) {r : RankedItem → RankedItem → Prop} [DecidableRel r] :
    (((((bucketRollups t app).filter fun b => p b.ends).map
      (rankedItem cfg t app now)).insertionSort r).map RankedItem.bucketId).Perm
        (((groupsOf P t app).filter p).map BucketEnds.bucketId) := by
  refine ((List.perm_insertionSort r _).map _).trans ?_
  have hpart := ((h.filter p).map BucketEnds.bucketId)
  rw [List.filter_map, List.map_map] at hpart
  rw [List.map_map]
  exact hpart

/-- In every run of ingest and deletions the bucket list is the grouping of the errors of the
app by their content-addressed ids. -/
theorem bucket_list_groups {P : Platform} {es : List TelemetryEvent} {t : TenantStore}
    (hrun : Run (TelemetryStep P) .empty es t) (cfg : ResolutionConfig) (app : String)
    (now : Rfc3339) (confirmed : String → Bool) :
    ((bucketRollups t app).map BucketRollup.ends).Perm (groupsOf P t app) ∧
      ((rankedBuckets cfg t app now confirmed).1.map RankedItem.bucketId).Perm
        (((groupsOf P t app).filter fun e => !e.pending confirmed).map BucketEnds.bucketId) ∧
      ((rankedBuckets cfg t app now confirmed).2.map RankedItem.bucketId).Perm
        (((groupsOf P t app).filter fun e => e.pending confirmed).map BucketEnds.bucketId) ∧
      (groupsOf P t app).map (fun e => (e.bucketId, e.count)) =
        (group P (appErrors t app)).map (fun g => (g.1, g.2.length)) ∧
      ((bucketRollups t app).map BucketRollup.count).sum = (appErrors t app).length := by
  have hrows : RowsBucketed P t.errors := rowsBucketed_run hrun
  have hsummaries : SummariesAgree t :=
    summariesAgree_run (readModelAgrees_empty P.toRenderings).summaries hrun
  have hperm := rollups_perm hsummaries hrows app
  have hcounts : (groupsOf P t app).map (fun e => (e.bucketId, e.count)) =
      (group P (appErrors t app)).map fun g => (g.1, g.2.length) := groupsOf_counts hrows
  classical
  refine ⟨hperm, ?_, ?_, hcounts, ?_⟩
  · exact ranked_perm hperm fun e => !e.pending confirmed
  · exact ranked_perm hperm fun e => e.pending confirmed
  have hsum := (hperm.map BucketEnds.count).sum_eq
  rw [List.map_map] at hsum
  calc ((bucketRollups t app).map BucketRollup.count).sum
      = ((groupsOf P t app).map BucketEnds.count).sum := hsum
    _ = (((groupsOf P t app).map fun e => (e.bucketId, e.count)).map Prod.snd).sum := by
        rw [List.map_map]
        rfl
    _ = ((group P (appErrors t app)).map fun g => g.2.length).sum := by
        rw [hcounts, List.map_map]
        rfl
    _ = ((groupPlaces (fun o => P.bucketId o.2.2) (appErrors t app)).map fun g =>
          g.2.length).sum := ((List.perm_insertionSort _ _).map _).sum_eq
    _ = (appErrors t app).length := sum_length_groupPlaces _ _

/-- A platform that tells crashes apart by their signature. -/
def bySignature : Platform := { oneBucket with bucketId := fun record => "bkt_" ++ record.sig }

/-- A batch of crashes with these signatures. -/
def crashesAt (signatures : List String) : IngestBatch where
  appId := "shop"
  errors := signatures.map fun sig => ⟨sig, "boom", [], .empty⟩
  batchId := "batch-1"

theorem bucket_list_groups_two :
    ∃ t, Run (TelemetryStep bySignature) .empty [.ingest 0 (crashesAt ["a", "b", "a"])] t ∧
      group bySignature (appErrors t "shop") = [("bkt_a", [0, 2]), ("bkt_b", [1])] ∧
      ((bucketRollups t "shop").map BucketRollup.ends).Perm (groupsOf bySignature t "shop") := by
  obtain ⟨⟨dup, t⟩, ht⟩ := ok_of_isOk
    (by decide : (ingestBatch bySignature .empty 0 (crashesAt ["a", "b", "a"])).isOk = true)
  have hgroups : (ingestBatch bySignature .empty 0 (crashesAt ["a", "b", "a"])).toOption.map
      (fun r => group bySignature (appErrors r.2 "shop")) =
        some [("bkt_a", [0, 2]), ("bkt_b", [1])] := by decide
  rw [ht] at hgroups
  have hrun : Run (TelemetryStep bySignature) .empty [.ingest 0 (crashesAt ["a", "b", "a"])] t :=
    .cons (.ingest ht) (.nil t)
  exact ⟨t, hrun, Option.some.inj hgroups,
    (bucket_list_groups hrun {} "shop" (.instant 0) fun _ => false).1⟩

end ReproitCloud
