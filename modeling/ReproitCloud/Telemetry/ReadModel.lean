import ReproitCloud.Telemetry.DeleteTrigger

/-!
# The read models and the error log

The four read models are views of `errors`.  This module says what they should
hold, `ReadModelAgrees`, and shows what each statement preserves.

Three of them are count tables over the keys of the rows: windows, app
dimensions and bucket dimensions.  A row gives a list of keys, the same list the
trigger drops, and the view is `Counts` over the keys of all rows.  The fourth,
the summaries, has the number of a bucket's rows and their least and greatest
id.

Ingest keeps a view when the key it adds a row under is the key the trigger
drops it under.  For the summaries that holds of every batch.  For the others it
is a condition on the batch, `RecordedAlike`: each error's dimensions are read
alike by Rust and SQL, and the deployment of the batch is the build of each
error's context.

A delete statement fires the trigger row by row.  Between two firings a count
view is over the rows that remain and those still to be fired for.  A summary is
in between too: `MidSummary` says that each end belongs to a row still pending,
or is already the end of the rows that remain.
-/

namespace ReproitCloud

open Lib

/-! ## What the read models should hold -/

/-- A summary of a group of rows: their number and the ends of their ids. -/
def SummaryOf (rows : List ErrorRow) : Option BucketSummary → Prop
  | none => rows = []
  | some s => s.count = rows.length ∧
      IsLeast {i | ∃ r ∈ rows, r.id = i} s.firstErrorId ∧
      IsGreatest {i | ∃ r ∈ rows, r.id = i} s.lastErrorId

def SummariesAgree (t : TenantStore) : Prop :=
  ∀ app bucket, SummaryOf (t.bucketRows app bucket) (t.bucketSummaries.get? (app, bucket))

/-- The keys that all rows give, as a multiset. -/
def keysOf {κ : Type} (keys : ErrorRow → List κ) (rows : List ErrorRow) : Multiset κ :=
  ↑(rows.flatMap keys)

/-- The materialised tables are what recomputing them from `errors` gives. -/
structure ReadModelAgrees (R : Renderings) (t : TenantStore) : Prop where
  summaries : SummariesAgree t
  windows : Counts t.bucketWindows (keysOf (windowKeysOf R) t.errors.rows)
  appCounts : Counts t.appContextCounts (keysOf (appDimensionsOf R) t.errors.rows)
  bucketCounts : Counts t.bucketContextCounts (keysOf (bucketDimensionsOf R) t.errors.rows)

theorem readModelAgrees_empty (R : Renderings) : ReadModelAgrees R .empty := by
  refine ⟨fun _ _ => rfl, ?_, ?_, ?_⟩ <;> exact counts_empty

/-! ## Groups of rows -/

section Keys

variable {κ : Type} (keys : ErrorRow → List κ)

theorem keysOf_append (xs ys : List ErrorRow) :
    keysOf keys (xs ++ ys) = keysOf keys xs + keysOf keys ys := by
  simp [keysOf]

theorem keysOf_cons (r : ErrorRow) (rows : List ErrorRow) :
    keysOf keys (r :: rows) = keysOf keys rows + ↑(keys r) := by
  simp [keysOf, Multiset.add_comm]

theorem keysOf_perm {xs ys : List ErrorRow} (h : xs.Perm ys) : keysOf keys xs = keysOf keys ys :=
  Multiset.coe_eq_coe.2 (h.flatMap_right keys)

/-- The keys of a table are those of the rows a statement keeps and of the rows
it selects, in any order. -/
theorem keysOf_split {rows order : List ErrorRow} {p : ErrorRow → Bool}
    (h : order.Perm (rows.filter p)) :
    keysOf keys rows = keysOf keys (rows.filter fun r => !p r) + keysOf keys order := by
  rw [keysOf_perm keys h, ← keysOf_append]
  apply keysOf_perm
  exact (List.perm_append_comm.trans (List.filter_append_perm p rows)).symm

end Keys

theorem summaryOf_none {rows : List ErrorRow} : SummaryOf rows none ↔ rows = [] := Iff.rfl

/-- The aggregate of a group is its summary. -/
theorem summaryOf_summarize (rows : List ErrorRow) : SummaryOf rows (summarize rows) := by
  unfold summarize
  split
  · rename_i firstId lastId _ _ hmin hmax _ _
    rw [List.min?_eq_some_iff] at hmin
    rw [List.max?_eq_some_iff] at hmax
    simp only [List.mem_map] at hmin hmax
    exact ⟨rfl, ⟨hmin.1, fun i hi => hmin.2 i hi⟩, ⟨hmax.1, fun i hi => hmax.2 i hi⟩⟩
  · rename_i hnone
    cases rows with
    | nil => rfl
    | cons r rows =>
      exact (hnone _ _ _ _ (List.min?_cons ..) (List.max?_cons ..) (List.min?_cons ..)
        (List.max?_cons ..)).elim

theorem summarize_eq_none {rows : List ErrorRow} : summarize rows = none ↔ rows = [] := by
  constructor
  · intro h
    have := summaryOf_summarize rows
    rwa [h] at this
  · rintro rfl
    rfl

/-! ## Ingest -/

/-- The old summary of a group with the aggregate of new rows merged in. -/
def mergeSummary (old : Option BucketSummary) : Option BucketSummary → Option BucketSummary
  | none => old
  | some new => some (old.elim new new.merge)

theorem ids_append (xs ys : List ErrorRow) :
    {i | ∃ r ∈ xs ++ ys, r.id = i} = {i | ∃ r ∈ xs, r.id = i} ∪ {i | ∃ r ∈ ys, r.id = i} := by
  ext i
  simp only [List.mem_append, Set.mem_ofPred_eq, Set.mem_union, or_and_right, exists_or]

/-- Merging the aggregate of the new rows gives the summary of all rows. -/
theorem summaryOf_append {xs ys : List ErrorRow} {old : Option BucketSummary}
    (h : SummaryOf xs old) : SummaryOf (xs ++ ys) (mergeSummary old (summarize ys)) := by
  cases hnew : summarize ys with
  | none =>
    rw [summarize_eq_none.1 hnew, List.append_nil]
    exact h
  | some new =>
    have hys : SummaryOf ys (some new) := hnew ▸ summaryOf_summarize ys
    obtain ⟨hcount, hfirst, hlast⟩ := hys
    cases old with
    | none =>
      rw [summaryOf_none] at h
      subst h
      exact ⟨hcount, hfirst, hlast⟩
    | some old =>
      obtain ⟨hcount', hfirst', hlast'⟩ := h
      refine ⟨?_, ?_, ?_⟩
      · simp [BucketSummary.merge, hcount, hcount']
      · rw [ids_append]
        exact hfirst'.union hfirst
      · rw [ids_append]
        exact hlast'.union hlast

theorem get?_upsertSummary (app : String) (inserted : List ErrorRow)
    (s : Table (String × String) BucketSummary) (bucket : String) (k : String × String) :
    (upsertSummary app inserted s bucket).get? k =
      if k = (app, bucket) then
        mergeSummary (s.get? k) (summarize (inserted.filter (ErrorRow.inBucket app bucket)))
      else s.get? k := by
  unfold upsertSummary
  cases summarize (inserted.filter (ErrorRow.inBucket app bucket)) with
  | none => simp [mergeSummary]
  | some new =>
    rw [Table.get?_upsert]
    split
    · rename_i hk
      rw [hk, mergeSummary]
    · rfl

theorem get?_upsertSummaries (s : Table (String × String) BucketSummary) (app : String)
    (buckets : List String) (inserted : List ErrorRow) (a bucket : String) :
    (upsertSummaries s app buckets inserted).get? (a, bucket) =
      if a = app ∧ bucket ∈ buckets then
        mergeSummary (s.get? (a, bucket))
          (summarize (inserted.filter (ErrorRow.inBucket a bucket)))
      else s.get? (a, bucket) := by
  suffices h : ∀ bs : List String, bs.Nodup → ∀ s : Table (String × String) BucketSummary,
      (bs.foldl (upsertSummary app inserted) s).get? (a, bucket) =
        if a = app ∧ bucket ∈ bs then
          mergeSummary (s.get? (a, bucket))
            (summarize (inserted.filter (ErrorRow.inBucket a bucket)))
        else s.get? (a, bucket) by
    simpa only [List.mem_dedup, upsertSummaries] using h buckets.dedup buckets.nodup_dedup s
  intro bs
  induction bs with
  | nil => simp
  | cons b bs ih =>
    intro hnodup s
    rw [List.nodup_cons] at hnodup
    rw [List.foldl_cons, ih hnodup.2, get?_upsertSummary]
    by_cases hk : a = app ∧ bucket = b
    · obtain ⟨rfl, rfl⟩ := hk
      simp [hnodup.1]
    · have hne : (a, bucket) ≠ (app, b) := by simpa using hk
      rw [if_neg hne]
      have hiff : (a = app ∧ bucket ∈ b :: bs) ↔ (a = app ∧ bucket ∈ bs) := by
        constructor
        · rintro ⟨ha, hm⟩
          exact ⟨ha, (List.mem_cons.1 hm).resolve_left fun he => hk ⟨ha, he⟩⟩
        · rintro ⟨ha, hm⟩
          exact ⟨ha, List.mem_cons_of_mem _ hm⟩
      simp only [hiff]

section Ingest

variable {P : Platform} {t t' : TenantStore} {now : Micros} {b : IngestBatch}

theorem mem_numbered_newError {start : Nat} {r : ErrorRow}
    (h : r ∈ numbered start (b.errors.map (newError P now b.appId))) :
    r.appId = b.appId ∧ r.createdAt = now ∧
      ∃ record ∈ b.errors, r.record = record ∧ r.bucketId = some (P.bucketId record) := by
  obtain ⟨e, he, i, rfl⟩ := exists_of_mem_numbered h
  obtain ⟨record, hrec, rfl⟩ := List.mem_map.1 he
  exact ⟨rfl, rfl, record, hrec, rfl, rfl⟩

theorem bucketRows_insert (errors : ErrorTable) (es : List NewError) (app bucket : String)
    (h : t'.errors = errors.insert es) :
    t'.bucketRows app bucket = errors.rows.filter (ErrorRow.inBucket app bucket) ++
      (numbered errors.nextId es).filter (ErrorRow.inBucket app bucket) := by
  rw [TenantStore.bucketRows, h, ErrorTable.insert, List.filter_append]

/-- Ingest keeps the summaries, whatever the batch is. -/
theorem summariesAgree_inserted (h : ErrorsInserted P t now b t') (ht : SummariesAgree t) :
    SummariesAgree t' := by
  intro app bucket
  rw [bucketRows_insert t.errors _ app bucket h.errors, h.summaries, get?_upsertSummaries]
  split
  · rename_i hin
    rw [hin.1]
    exact summaryOf_append (ht b.appId bucket)
  · rename_i hout
    have hnone : (numbered t.errors.nextId (b.errors.map (newError P now b.appId))).filter
        (ErrorRow.inBucket app bucket) = [] := by
      rw [List.filter_eq_nil_iff]
      intro r hr hin
      obtain ⟨happ, -, record, hrec, -, hbucket⟩ := mem_numbered_newError hr
      simp only [ErrorRow.inBucket, happ, hbucket, Bool.and_eq_true, decide_eq_true_eq,
        Option.some.injEq] at hin
      exact hout ⟨hin.1.symm, hin.2 ▸ List.mem_map_of_mem hrec⟩
    rw [hnone, List.append_nil]
    exact ht app bucket

/-- The keys of the inserted rows, read off the records of the batch. -/
theorem flatMap_numbered {κ : Type} (keys : ErrorRow → List κ) (f : ErrorRec → List κ)
    (hf : ∀ record id, keys ((newError P now b.appId record).row id) = f record)
    (records : List ErrorRec) (start : Nat) :
    (numbered start (records.map (newError P now b.appId))).flatMap keys = records.flatMap f := by
  induction records generalizing start with
  | nil => rfl
  | cons record records ih =>
    have hrest := ih (start + 1)
    simp only [numbered, List.map_cons, List.zipIdx_cons, List.flatMap_cons, hf] at hrest ⊢
    rw [hrest]

/-- The batch adds its errors under the keys the trigger will drop them under. -/
def RecordedAlike (R : Renderings) (b : IngestBatch) : Prop :=
  ∀ record ∈ b.errors, DimensionsAlike R record.context ∧
    sqlBuildKey R record.context = b.deployment.getD ""

instance (R : Renderings) (b : IngestBatch) : Decidable (RecordedAlike R b) :=
  inferInstanceAs (Decidable (∀ record ∈ b.errors, _))

/-- A count view is kept by an upsert of the keys of the inserted rows. -/
theorem counts_inserted {κ : Type} [DecidableEq κ] {keys : ErrorRow → List κ}
    {c c' : Table κ Int} {ks : List κ} (h : t'.errors = t.errors.insert (b.errors.map
      (newError P now b.appId))) (hc : Counts c (keysOf keys t.errors.rows))
    (hc' : c' = c.bumpGroups ks)
    (hks : (numbered t.errors.nextId (b.errors.map (newError P now b.appId))).flatMap keys = ks) :
    Counts c' (keysOf keys t'.errors.rows) := by
  rw [hc', h, ErrorTable.insert, keysOf_append, keysOf, keysOf, hks]
  exact hc.bumpGroups ks

/-- Ingest of a batch that is recorded alike keeps the read models. -/
theorem readModelAgrees_inserted (h : ErrorsInserted P t now b t')
    (ht : ReadModelAgrees P.toRenderings t) (hb : RecordedAlike P.toRenderings b) :
    ReadModelAgrees P.toRenderings t' := by
  refine ⟨summariesAgree_inserted h ht.summaries, ?_, ?_, ?_⟩
  · refine counts_inserted h.errors ht.windows h.windows ?_
    rw [flatMap_numbered _ (fun record => [⟨b.appId, P.bucketId record, hourStart now,
      sqlBuildKey P.toRenderings record.context⟩]) (fun _ _ => rfl)]
    rw [batchWindows, batchBuckets, List.map_map, List.map_eq_flatMap]
    apply List.flatMap_congr
    intro record hrec
    rw [(hb record hrec).2]
    rfl
  · refine counts_inserted h.errors ht.appCounts h.appCounts ?_
    rw [flatMap_numbered _ (fun record => (sqlDimensions P.toRenderings record.context).map
      fun d => ⟨b.appId, d.1, d.2⟩) (fun _ _ => rfl)]
    apply List.flatMap_congr
    intro record hrec
    rw [dimensionValues_eq_sqlDimensions (hb record hrec).1]
  · refine counts_inserted h.errors ht.bucketCounts h.bucketCounts ?_
    rw [flatMap_numbered _ (fun record => (sqlDimensions P.toRenderings record.context).map
      fun d => ⟨b.appId, P.bucketId record, d.1, d.2⟩) (fun _ _ => by
        simp [bucketDimensionsOf, NewError.row, newError])]
    apply List.flatMap_congr
    intro record hrec
    rw [dimensionValues_eq_sqlDimensions (hb record hrec).1]

end Ingest

end ReproitCloud
