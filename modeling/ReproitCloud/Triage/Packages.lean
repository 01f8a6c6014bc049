import ReproitCloud.Lib.Extremes
import ReproitCloud.Telemetry.Consistency
import ReproitCloud.Telemetry.Replay
import ReproitCloud.Triage.Reads

/-!
# The replay of a bucket

The list of buckets shows how long a bucket's replay is, and the package of a bucket has
the replay itself.  Both prefer the shortest that is not empty, for a crash can be reported
without a path.  The package chooses among the rows of the bucket, and the list among the
two that its summary names, the oldest and the newest.

So the list shows the length of another replay, or none, when the shortest one came with a
row in between.  `listed_replay_iff` says that this is the only way.
-/

namespace ReproitCloud

open Lib

/-! ## The package -/

/-- A step of `display_path`. -/
structure DisplayStep where
  sig : String
  action : String
  label : Option String
  display : String
deriving DecidableEq, Repr

/-- `display_path`. -/
def displayPath (rec : ErrorRec) : List DisplayStep :=
  rec.path.map fun s => ⟨s.sig, s.action, s.label, s.label.getD s.action⟩

/-- The replay package of a bucket, the fields that are read off its records. -/
structure BucketPackage where
  appId : String
  bucketId : String
  message : String
  expectedError : String
  crashSig : String
  startSig : Option String
  count : Nat
  replay : List String
  actions : List String
  displayPath : List DisplayStep
  context : Context

/-- `bucket_package`. -/
def bucketPackage (app bucket : String) (newest replaySource : ErrorRec) (count : Nat) :
    BucketPackage where
  appId := app
  bucketId := bucket
  message := newest.message
  expectedError := newest.message
  crashSig := newest.sig
  startSig := replaySource.path.head?.map Step.sig
  count := count
  replay := replayActions replaySource
  actions := replayActions replaySource
  displayPath := displayPath replaySource
  context := replaySource.context

/-- The record whose replay the package has.  Among the shortest it is the newest. -/
def replaySource (records : List ErrorRec) (newest : ErrorRec) : ErrorRec :=
  ((records.reverse.filter fun r => !(replayActions r).isEmpty).argmin fun r =>
    (replayActions r).length).getD newest

/-- `bucket_package_for_tenant`, with the cap of `max_error_scan`. -/
def bucketPackageForTenant (t : TenantStore) (app bucket : String) (cap : Nat) :
    Option BucketPackage :=
  let records := (errorsForBucket t app bucket cap).map fun r => r.2.2
  records.getLast?.map fun newest =>
    bucketPackage app bucket newest (replaySource records newest) records.length

/-! ## The list -/

/-- An item of the list, as far as it speaks of the records of the bucket. -/
structure ListedBucket where
  bucketId : String
  count : Nat
  message : String
  crashSig : String
  startSig : Option String
  replayLen : Nat
deriving DecidableEq, Repr

/-- The item of a rollup. -/
def listedBucket (rollup : BucketRollup) : ListedBucket where
  bucketId := rollup.bucketId
  count := rollup.count
  message := rollup.newest.message
  crashSig := rollup.newest.sig
  startSig := rollup.newest.path.head?.map Step.sig
  replayLen := leastPositive ([rollup.newest, rollup.oldest].map fun r => (replayActions r).length)

/-- The items of `bucket_list_for_tenant`, in the order of the rollups. -/
def listedBuckets (t : TenantStore) (app : String) : List ListedBucket :=
  (bucketRollups t app).map listedBucket

/-- The replay length that the list shows for a bucket, if it lists it. -/
def listedReplayLen (t : TenantStore) (app bucket : String) : Option Nat :=
  ((listedBuckets t app).find? fun item => item.bucketId = bucket).map ListedBucket.replayLen

/-! ## The ends of a bucket -/

section Ends

variable {t : TenantStore} {app bucket : String} {rows : List ErrorRow}

/-- The first of sorted rows has the least id. -/
theorem head_of_isLeast {first : ErrorRow} {n : Nat} (h : rows.Pairwise fun a b => a.id < b.id)
    (hleast : IsLeast {i | ∃ r ∈ rows, r.id = i} n) (hfirst : rows.head? = some first) :
    first.id = n := by
  cases rows with
  | nil => cases hfirst
  | cons r rows =>
    cases hfirst
    obtain ⟨⟨r, hr, hid⟩, hle⟩ := hleast
    have hn := hle ⟨first, List.mem_cons_self, rfl⟩
    rcases List.mem_cons.1 hr with rfl | hr
    · exact hid
    · have := (List.pairwise_cons.1 h).1 r hr
      omega

/-- The last of sorted rows has the greatest id. -/
theorem getLast_of_isGreatest {last : ErrorRow} {n : Nat}
    (h : rows.Pairwise fun a b => a.id < b.id)
    (hgreatest : IsGreatest {i | ∃ r ∈ rows, r.id = i} n) (hlast : rows.getLast? = some last) :
    last.id = n := by
  obtain ⟨before, rfl⟩ := List.getLast?_eq_some_iff.1 hlast
  obtain ⟨⟨r, hr, hid⟩, hle⟩ := hgreatest
  have hn := hle ⟨last, by simp, rfl⟩
  rcases List.mem_append.1 hr with hr | hr
  · have := (List.pairwise_append.1 h).2.2 r hr last (List.mem_singleton_self last)
    omega
  · rw [← List.mem_singleton.1 hr]
    exact hid

theorem bucketRows_sorted (t : TenantStore) (app bucket : String) :
    (t.bucketRows app bucket).Pairwise fun a b => a.id < b.id :=
  t.errors.sorted.filter _

theorem mem_bucketRollups_iff {r : BucketRollup} : r ∈ bucketRollups t app ↔
    ∃ s, t.bucketSummaries.get? (app, r.bucketId) = some s ∧
      rollupOf t ((app, r.bucketId), s) = some r := by
  have hid : ∀ {row : (String × String) × BucketSummary}, rollupOf t row = some r →
      row.1.2 = r.bucketId := by
    intro row hrow
    unfold rollupOf at hrow
    split at hrow
    · cases hrow
      rfl
    · cases hrow
  simp only [bucketRollups, List.mem_filterMap, List.mem_insertionSort, List.mem_filter,
    decide_eq_true_eq]
  constructor
  · rintro ⟨⟨⟨app', bucket'⟩, s⟩, ⟨hrow, rfl⟩, hrollup⟩
    obtain rfl : bucket' = r.bucketId := hid hrollup
    exact ⟨s, Table.get?_eq_some_iff.2 hrow, hrollup⟩
  · rintro ⟨s, hs, hrollup⟩
    exact ⟨((app, r.bucketId), s), ⟨Table.get?_eq_some_iff.1 hs, rfl⟩, hrollup⟩

/-- The list has the item of the rollup of a bucket, and of no other. -/
theorem listedReplayLen_eq_of_rollup {r : BucketRollup} {s : BucketSummary}
    (hs : t.bucketSummaries.get? (app, bucket) = some s)
    (hrollup : rollupOf t ((app, bucket), s) = some r) (hid : r.bucketId = bucket) :
    listedReplayLen t app bucket = some (listedBucket r).replayLen := by
  subst hid
  have hmem : listedBucket r ∈ listedBuckets t app :=
    List.mem_map_of_mem (mem_bucketRollups_iff.2 ⟨s, hs, hrollup⟩)
  have hlisted : ((listedBuckets t app).find? fun item => item.bucketId = r.bucketId).isSome := by
    rw [List.find?_isSome]
    exact ⟨_, hmem, decide_eq_true rfl⟩
  obtain ⟨item, hfound⟩ := Option.isSome_iff_exists.1 hlisted
  obtain ⟨r', hr', rfl⟩ := List.mem_map.1 (List.mem_of_find?_eq_some hfound)
  have hsame : r'.bucketId = r.bucketId := by
    have hid := List.find?_some hfound
    exact of_decide_eq_true hid
  obtain ⟨s', hs', hrollup'⟩ := mem_bucketRollups_iff.1 hr'
  rw [hsame, hs, Option.some.injEq] at hs'
  subst hs'
  rw [hsame, hrollup, Option.some.injEq] at hrollup'
  rw [listedReplayLen, hfound, hrollup']
  rfl

theorem listedReplayLen_eq_none (hs : t.bucketSummaries.get? (app, bucket) = none) :
    listedReplayLen t app bucket = none := by
  rw [listedReplayLen, Option.map_eq_none_iff, List.find?_eq_none]
  intro item hitem hid
  obtain ⟨r, hr, rfl⟩ := List.mem_map.1 hitem
  obtain ⟨s, hs', -⟩ := mem_bucketRollups_iff.1 hr
  rw [show r.bucketId = bucket from of_decide_eq_true hid, hs] at hs'
  cases hs'

/-- The list shows the ends of the rows of a bucket, and no bucket without rows. -/
theorem listedReplayLen_eq (h : SummariesAgree t) :
    (t.bucketRows app bucket = [] ∧ listedReplayLen t app bucket = none) ∨
      ∃ first last, (t.bucketRows app bucket).head? = some first ∧
        (t.bucketRows app bucket).getLast? = some last ∧
        listedReplayLen t app bucket = some (leastPositive
          ([last.record, first.record].map fun r => (replayActions r).length)) := by
  have hsummary := h app bucket
  cases hs : t.bucketSummaries.get? (app, bucket) with
  | none =>
    rw [hs] at hsummary
    exact .inl ⟨hsummary, listedReplayLen_eq_none hs⟩
  | some s =>
    rw [hs] at hsummary
    obtain ⟨-, hleast, hgreatest⟩ := hsummary
    have hne : t.bucketRows app bucket ≠ [] := by
      obtain ⟨r, hr, -⟩ := hleast.1
      exact List.ne_nil_of_mem hr
    obtain ⟨first, hfirst⟩ := Option.isSome_iff_exists.1 (List.isSome_head?.2 hne)
    obtain ⟨last, hlast⟩ := Option.isSome_iff_exists.1 (List.getLast?_isSome.2 hne)
    have holdest := ErrorTable.find?_of_id (t := t.errors)
      (List.mem_filter.1 (List.mem_of_head? hfirst)).1
    have hnewest := ErrorTable.find?_of_id (t := t.errors)
      (List.mem_filter.1 (List.mem_of_getLast? hlast)).1
    rw [head_of_isLeast (bucketRows_sorted t app bucket) hleast hfirst] at holdest
    rw [getLast_of_isGreatest (bucketRows_sorted t app bucket) hgreatest hlast] at hnewest
    have hrollup : rollupOf t ((app, bucket), s) = some ⟨bucket, s.count.toNat,
        toRfc3339 s.lastSeen, first.record, last.record⟩ := by
      rw [rollupOf, holdest, hnewest]
    exact .inr ⟨first, last, hfirst, hlast, listedReplayLen_eq_of_rollup hs hrollup rfl⟩

/-- The package has a shortest replay of the records, when some is not empty. -/
theorem length_replaySource {records : List ErrorRec} {newest : ErrorRec}
    (h : newest ∈ records) : (replayActions (replaySource records newest)).length =
      leastPositive (records.map fun r => (replayActions r).length) := by
  have hfilter : (records.reverse.filter fun r => !(replayActions r).isEmpty) =
      records.reverse.filter fun r => 0 < (replayActions r).length := by
    refine List.filter_congr fun r _ => ?_
    cases replayActions r <;> rfl
  have hsame : leastPositive (records.map fun r => (replayActions r).length) =
      leastPositive (records.reverse.map fun r => (replayActions r).length) := by
    refine (leastPositive_eq_iff fun n hn => by simpa using hn).2 fun n hn hpos => ?_
    exact ⟨n, by simpa using hn, hpos, le_rfl⟩
  rw [replaySource, hfilter, hsame]
  cases hchosen : (records.reverse.filter fun r => 0 < (replayActions r).length).argmin
      fun r => (replayActions r).length with
  | none =>
    obtain ⟨hzero, hall⟩ := leastPositive_of_no_argmin hchosen
    rw [hzero, Option.getD_none]
    exact hall newest (List.mem_reverse.2 h)
  | some r =>
    rw [Option.getD_some]
    exact (leastPositive_of_argmin hchosen).symm

end Ends

/-! ## Both -/

/-- A shortest replay of the rows came with the first or the last of them. -/
def ShortestAtEnd (rows : List ErrorRow) : Prop :=
  ∀ r ∈ rows, replayActions r.record ≠ [] →
    ∃ e ∈ rows.head?.toList ++ rows.getLast?.toList, replayActions e.record ≠ [] ∧
      (replayActions e.record).length ≤ (replayActions r.record).length

instance (rows : List ErrorRow) : Decidable (ShortestAtEnd rows) :=
  inferInstanceAs (Decidable (∀ r ∈ rows, replayActions r.record ≠ [] →
    ∃ e ∈ rows.head?.toList ++ rows.getLast?.toList, replayActions e.record ≠ [] ∧
      (replayActions e.record).length ≤ (replayActions r.record).length))

/-- In every history the list shows the length of the replay in the package of a bucket,
of at most as many rows as are read, exactly when a shortest replay is that of an end. -/
theorem listed_replay_iff {P : Platform} {t : TenantStore} {es : List TelemetryEvent}
    {app bucket : String} {cap : Nat} (hrun : Run (TelemetryStep P) .empty es t)
    (hcap : (t.bucketRows app bucket).length ≤ cap) :
    listedReplayLen t app bucket =
        (bucketPackageForTenant t app bucket cap).map (fun p => p.replay.length) ↔
      ShortestAtEnd (t.bucketRows app bucket) := by
  have hagree : SummariesAgree t :=
    summariesAgree_run (readModelAgrees_empty P.toRenderings).summaries hrun
  have hrecords : (errorsForBucket t app bucket cap).map (fun r => r.2.2) =
      (t.bucketRows app bucket).map ErrorRow.record := by
    rw [errorsForBucket, List.take_of_length_le hcap, List.map_map]
    rfl
  rw [bucketPackageForTenant, hrecords]
  rcases listedReplayLen_eq hagree with ⟨hnil, hnone⟩ | ⟨first, last, hfirst, hlast, hlisted⟩
  · rw [hnil, hnone]
    exact iff_of_true rfl fun r hr => by cases hr
  · have hnewest : ((t.bucketRows app bucket).map ErrorRow.record).getLast? = some last.record := by
      rw [List.getLast?_map, hlast, Option.map_some]
    rw [hlisted]
    simp only [hnewest, Option.map_some, Option.some.injEq, bucketPackage]
    rw [length_replaySource (List.mem_of_getLast? hnewest), leastPositive_eq_iff]
    · simp only [List.forall_mem_map, List.map_cons, List.map_nil, List.mem_cons, List.not_mem_nil,
        or_false, exists_eq_or_imp, exists_eq_left, List.length_pos_iff, ShortestAtEnd, hfirst,
        hlast, Option.toList_some, List.cons_append, List.nil_append]
      exact forall₃_congr fun r _ _ => or_comm
    · intro n hn
      simp only [List.map_cons, List.map_nil, List.mem_cons, List.not_mem_nil, or_false] at hn
      rw [List.map_map]
      rcases hn with rfl | rfl
      · exact List.mem_map.2 ⟨last, List.mem_of_getLast? hlast, rfl⟩
      · exact List.mem_map.2 ⟨first, List.mem_of_head? hfirst, rfl⟩

/-- Crashes with these actions, in one batch. -/
def crashesAfter (paths : List (List String)) : IngestBatch where
  appId := "shop"
  errors := paths.map fun actions =>
    ⟨"crash", "boom", actions.map fun action => ⟨"screen", action, none⟩, .empty⟩
  batchId := "batch-1"
  deployment := none

/-- The tenant after the batch. -/
def afterCrashes (paths : List (List String)) : Except SqlError TenantStore :=
  (ingestBatch oneBucket .empty 0 (crashesAfter paths)).map Prod.snd

theorem run_afterCrashes {paths : List (List String)} {t : TenantStore}
    (h : afterCrashes paths = .ok t) :
    Run (TelemetryStep oneBucket) .empty [.ingest 0 (crashesAfter paths)] t := by
  unfold afterCrashes at h
  cases hingest : ingestBatch oneBucket .empty 0 (crashesAfter paths) with
  | error e =>
    rw [hingest] at h
    cases h
  | ok r =>
    rw [hingest] at h
    cases h
    exact .cons (.ingest hingest) (.nil _)

theorem listed_replay_iff_after_pathless :
    ∃ t, Run (TelemetryStep oneBucket) .empty [.ingest 0 (crashesAfter [["back"], []])] t ∧
      listedReplayLen t "shop" "bkt_dd250179f692" =
        (bucketPackageForTenant t "shop" "bkt_dd250179f692" 20000).map fun p =>
          p.replay.length := by
  obtain ⟨t, ht⟩ := ok_of_isOk (by decide : (afterCrashes [["back"], []]).isOk = true)
  have hrows : (afterCrashes [["back"], []]).toOption.all (fun t =>
      ShortestAtEnd (t.bucketRows "shop" "bkt_dd250179f692") &&
        (t.bucketRows "shop" "bkt_dd250179f692").length = 2) = true := by decide
  rw [ht] at hrows
  have hboth : (decide (ShortestAtEnd (t.bucketRows "shop" "bkt_dd250179f692")) &&
      decide ((t.bucketRows "shop" "bkt_dd250179f692").length = 2)) = true := hrows
  rw [Bool.and_eq_true, decide_eq_true_eq, decide_eq_true_eq] at hboth
  have hrun := run_afterCrashes ht
  exact ⟨t, hrun, (listed_replay_iff hrun (by omega)).2 hboth.1⟩

/-- The replay of a crash between two crashes without a path is in the package, and the list
shows none. -/
theorem middle_replay_is_not_listed :
    ¬∀ (P : Platform) (es : List TelemetryEvent) (t : TenantStore) (app bucket : String)
      (cap : Nat), Run (TelemetryStep P) .empty es t → (t.bucketRows app bucket).length ≤ cap →
        listedReplayLen t app bucket =
          (bucketPackageForTenant t app bucket cap).map fun p => p.replay.length := by
  intro hall
  obtain ⟨t, ht⟩ := ok_of_isOk (by decide : (afterCrashes [[], ["back"], []]).isOk = true)
  have hread : (afterCrashes [[], ["back"], []]).toOption.map (fun t =>
      ((t.bucketRows "shop" "bkt_dd250179f692").length,
        listedReplayLen t "shop" "bkt_dd250179f692",
        (bucketPackageForTenant t "shop" "bkt_dd250179f692" 20000).map fun p =>
          p.replay.length)) = some (3, some 0, some 1) := by decide
  rw [ht] at hread
  have hthree := Option.some.inj hread
  rw [Prod.mk.injEq, Prod.mk.injEq] at hthree
  obtain ⟨hlength, hlisted, hpackage⟩ := hthree
  have hsame := hall oneBucket _ t "shop" "bkt_dd250179f692" 20000 (run_afterCrashes ht)
    (by omega)
  rw [hlisted, hpackage] at hsame
  cases hsame

end ReproitCloud
