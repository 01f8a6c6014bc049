import ReproitCloud.Telemetry.Consistency

/-!
# The migration of a tenant database

A database that is older than the read models has rows in `errors` and nothing beside them, and
rows that are older than the bucket ids have none.  `migrate` is what the schema does to such a
database: it fills the read models, gives every row its bucket id, and fills the read models
again.

A group that has a row already is passed over.  So the second filling reaches the groups that
consist of old rows alone, and a group with rows of both kinds keeps the counts of the first.
`Mendable` is the condition on one key that this leaves, and `migration_recomputes_iff` says
that the read models are right after the migration exactly when every key meets it.
-/

namespace Lib

namespace Table

variable {κ ν : Type} [DecidableEq κ]

/-- `INSERT ... SELECT ... GROUP BY ... ON CONFLICT DO NOTHING`: the aggregate of every group that
has no row. -/
def insertGroups (t : Table κ ν) (groups : List κ) (aggregate : κ → Option ν) : Table κ ν :=
  groups.dedup.foldl
    (fun t k => match aggregate k with
      | some v => t.insertIgnore k v
      | none => t) t

section Groups

variable {t : Table κ ν} {groups : List κ} {aggregate : κ → Option ν}

theorem get?_insertGroups (k : κ) :
    (t.insertGroups groups aggregate).get? k =
      (t.get? k).or (if k ∈ groups then aggregate k else none) := by
  have hfold (ds : List κ) : ∀ t : Table κ ν,
      (ds.foldl (fun t k => match aggregate k with
        | some v => t.insertIgnore k v
        | none => t) t).get? k = (t.get? k).or (if k ∈ ds then aggregate k else none) := by
    induction ds with
    | nil => simp
    | cons d ds ih =>
      intro t
      rw [List.foldl_cons, ih]
      by_cases hd : k = d
      · subst hd
        cases haggregate : aggregate k with
        | none => simp
        | some v => cases hrow : t.get? k <;> simp [hrow]
      · cases aggregate d <;> simp [hd]
  rw [insertGroups, hfold]
  simp only [List.mem_dedup]

theorem insertIgnore_of_has {k : κ} {v : ν} (h : t.has k = true) : t.insertIgnore k v = t := by
  rw [insertIgnore, dif_neg (by simp [h])]

/-- When every group has its row, nothing is inserted. -/
theorem insertGroups_of_has (h : ∀ k ∈ groups, t.has k = true) :
    t.insertGroups groups aggregate = t := by
  have hfold (ds : List κ) (hds : ∀ k ∈ ds, t.has k = true) :
      ds.foldl (fun t k => match aggregate k with
        | some v => t.insertIgnore k v
        | none => t) t = t := by
    induction ds with
    | nil => rfl
    | cons d ds ih =>
      rw [List.forall_mem_cons] at hds
      rw [List.foldl_cons]
      cases aggregate d with
      | none => exact ih hds.2
      | some v =>
        show ds.foldl _ (t.insertIgnore d v) = t
        rw [insertIgnore_of_has hds.1]
        exact ih hds.2
  exact hfold _ fun k hk => h k (List.mem_dedup.1 hk)

/-- A group with an aggregate has its row afterwards. -/
theorem has_insertGroups {k : κ} (hk : k ∈ groups) (haggregate : (aggregate k).isSome = true) :
    (t.insertGroups groups aggregate).has k = true := by
  rw [has, get?_insertGroups, if_pos hk, Option.isSome_or, haggregate, Bool.or_true]

end Groups

end Table

end Lib

namespace ReproitCloud

open Lib

/-! ## Filling the read models -/

/-- The buckets of the rows that have one. -/
def bucketGroups (rows : List ErrorRow) : List (String × String) :=
  rows.filterMap fun r => r.bucketId.map fun bucket => (r.appId, bucket)

/-- The `COUNT(*)` of a group. -/
def groupCount {κ : Type} [DecidableEq κ] (keys : List κ) (k : κ) : Option Int :=
  some (keys.count k : Int)

/-- A dimension that the schema selects.  Its clause for `build` wants a member in it. -/
def schemaCohortValue (R : Renderings) (key : String) (value : Json) : Option String :=
  if key = "build" && ((value.arrowText R "version").or (value.arrowText R "commit")).isNone then
    none
  else sqlCohortValue R key value

/-- The dimensions that the schema selects of a context. -/
def schemaDimensions (R : Renderings) (context : Context) : List (String × String) :=
  (context.rows.filter fun r => safeCohortKey r.1).filterMap fun r =>
    (schemaCohortValue R r.1 r.2).map fun value => (r.1, value)

def schemaAppDimensions (R : Renderings) (r : ErrorRow) : List AppDimension :=
  (schemaDimensions R r.record.context).map fun d => ⟨r.appId, d.1, d.2⟩

def schemaBucketDimensions (R : Renderings) (r : ErrorRow) : List BucketDimension :=
  r.bucketId.toList.flatMap fun bucket =>
    (schemaDimensions R r.record.context).map fun d => ⟨r.appId, bucket, d.1, d.2⟩

/-- The build of a row, for `build_traffic`. -/
def buildGroups (R : Renderings) (rows : List ErrorRow) : List (String × String) :=
  rows.filterMap fun r => (sqlBuild R r.record.context).map fun build => (r.appId, build)

/-- `COUNT(*), MIN(created_at), MAX(created_at)` of the rows of a build. -/
def buildAggregate (R : Renderings) (rows : List ErrorRow) (k : String × String) :
    Option BuildTraffic :=
  (summarize (rows.filter fun r => r.appId = k.1 && sqlBuild R r.record.context = some k.2)).map
    fun s => ⟨s.count, s.firstSeen, s.lastSeen⟩

/-- The part of the schema that fills the read models from the rows. -/
def backfillRollups (R : Renderings) (t : TenantStore) : TenantStore :=
  let rows := t.errors.rows
  { t with
    bucketSummaries := t.bucketSummaries.insertGroups (bucketGroups rows)
      fun k => summarize (rows.filter (ErrorRow.inBucket k.1 k.2))
    buildTraffic := t.buildTraffic.insertGroups (buildGroups R rows) (buildAggregate R rows)
    bucketWindows := t.bucketWindows.insertGroups (rows.flatMap (windowKeysOf R))
      (groupCount (rows.flatMap (windowKeysOf R)))
    appContextCounts := t.appContextCounts.insertGroups (rows.flatMap (schemaAppDimensions R))
      (groupCount (rows.flatMap (schemaAppDimensions R)))
    bucketContextCounts :=
      t.bucketContextCounts.insertGroups (rows.flatMap (schemaBucketDimensions R))
        (groupCount (rows.flatMap (schemaBucketDimensions R))) }

/-! ## The bucket ids of old rows -/

/-- A row that the update of one id is about, or not. -/
def ErrorRow.setBucket (r : ErrorRow) (bucket : String) (id : Nat) : ErrorRow :=
  if r.id = id && r.bucketId.isNone then { r with bucketId := some bucket } else r

@[simp] theorem ErrorRow.id_setBucket (r : ErrorRow) (bucket : String) (id : Nat) :
    (r.setBucket bucket id).id = r.id := by
  unfold setBucket
  split <;> rfl

/-- `UPDATE errors SET bucket_id=$1 WHERE id=$2 AND bucket_id IS NULL`. -/
def ErrorTable.setBucket (t : ErrorTable) (bucket : String) (id : Nat) : ErrorTable where
  rows := t.rows.map fun r => r.setBucket bucket id
  nextId := t.nextId
  sorted := by
    rw [List.pairwise_map]
    simpa using t.sorted
  bounded := by
    intro r hr
    obtain ⟨old, hold, rfl⟩ := List.mem_map.1 hr
    simpa using t.bounded old hold

/-- `backfill_missing_bucket_ids`. -/
def backfillMissingBucketIds (P : Platform) (t : TenantStore) : TenantStore :=
  let missing := t.errors.rows.filter fun r => r.bucketId.isNone
  { t with
    errors := missing.foldl (fun errors r => errors.setBucket (P.bucketId r.record) r.id)
      t.errors }

/-! ## The migration -/

/-- What `apply` runs when the version is behind. -/
def migrate (P : Platform) (t : TenantStore) : TenantStore :=
  backfillRollups P.toRenderings
    (backfillMissingBucketIds P (backfillRollups P.toRenderings t))

/-- `TENANT_SCHEMA_VERSION`. -/
def tenantSchemaVersion : Int := 2

/-- A tenant database with the highest version in `tenant_schema_migrations`. -/
structure TenantDatabase where
  applied : Option Int := none
  tenant : TenantStore

/-- `schema::apply`. -/
def applySchema (P : Platform) (d : TenantDatabase) : TenantDatabase :=
  if d.applied.getD 0 < tenantSchemaVersion then
    { applied := some tenantSchemaVersion, tenant := migrate P d.tenant }
  else d

/-! ## The rows after the migration -/

/-- The row with a bucket id, which is its own or the computed one. -/
def ErrorRow.withBucket (P : Platform) (r : ErrorRow) : ErrorRow :=
  { r with bucketId := some (r.bucketId.getD (P.bucketId r.record)) }

/-- All rows with a bucket id. -/
def TenantStore.finalRows (P : Platform) (t : TenantStore) : List ErrorRow :=
  t.errors.rows.map (ErrorRow.withBucket P)

/-- The rows that had none, with theirs. -/
def TenantStore.legacyRows (P : Platform) (t : TenantStore) : List ErrorRow :=
  (t.errors.rows.filter fun r => r.bucketId.isNone).map (ErrorRow.withBucket P)

section Rows

variable {P : Platform} {t : TenantStore}

theorem withBucket_of_some {r : ErrorRow} {bucket : String} (h : r.bucketId = some bucket) :
    r.withBucket P = r := by
  obtain ⟨id, appId, record, bucketId, createdAt⟩ := r
  cases h
  rfl

theorem setBucket_of_ne {r : ErrorRow} {bucket : String} {id : Nat} (h : r.id ≠ id) :
    r.setBucket bucket id = r := by
  simp [ErrorRow.setBucket, h]

/-- One update after another gives each of the missing rows its bucket. -/
theorem rows_setBuckets (missing : List ErrorRow) (errors : ErrorTable)
    (hmissing : ∀ r ∈ missing, r ∈ errors.rows ∧ r.bucketId = none)
    (hnodup : (missing.map ErrorRow.id).Nodup) :
    (missing.foldl (fun errors r => errors.setBucket (P.bucketId r.record) r.id) errors).rows =
      errors.rows.map fun r =>
        if r.id ∈ missing.map ErrorRow.id then r.withBucket P else r := by
  induction missing generalizing errors with
  | nil => simp
  | cons m missing ih =>
    rw [List.forall_mem_cons] at hmissing
    rw [List.map_cons, List.nodup_cons] at hnodup
    have hrest : ∀ r ∈ missing,
        r ∈ (errors.setBucket (P.bucketId m.record) m.id).rows ∧ r.bucketId = none := by
      intro r hr
      have hne : r.id ≠ m.id := fun heq => hnodup.1 (heq ▸ List.mem_map_of_mem hr)
      have hset := List.mem_map_of_mem (f := fun r => r.setBucket (P.bucketId m.record) m.id)
        (hmissing.2 r hr).1
      rw [setBucket_of_ne hne] at hset
      exact ⟨hset, (hmissing.2 r hr).2⟩
    rw [List.foldl_cons, ih _ hrest hnodup.2]
    show (errors.rows.map _).map _ = _
    rw [List.map_map]
    refine List.map_congr_left fun r hr => ?_
    simp only [Function.comp_apply, ErrorRow.id_setBucket, List.map_cons, List.mem_cons]
    by_cases hid : r.id = m.id
    · have heq : r = m := ErrorTable.eq_of_id hr hmissing.1.1 hid
      subst heq
      have hset : r.setBucket (P.bucketId r.record) r.id = r.withBucket P := by
        simp [ErrorRow.setBucket, ErrorRow.withBucket, hmissing.1.2]
      rw [if_neg hnodup.1, if_pos (.inl rfl), hset]
    · rw [setBucket_of_ne hid]
      simp only [hid, false_or]

theorem rows_backfillMissingBucketIds (P : Platform) (t : TenantStore) :
    (backfillMissingBucketIds P t).errors.rows = t.finalRows P := by
  have hmissing : ∀ r ∈ t.errors.rows.filter fun r => r.bucketId.isNone,
      r ∈ t.errors.rows ∧ r.bucketId = none := by
    intro r hr
    exact ⟨(List.mem_filter.1 hr).1, Option.isNone_iff_eq_none.1 (List.mem_filter.1 hr).2⟩
  have hnodup := t.errors.ids_nodup.sublist
    ((List.filter_sublist (p := fun r : ErrorRow => r.bucketId.isNone)).map ErrorRow.id)
  simp only [backfillMissingBucketIds, rows_setBuckets _ _ hmissing hnodup, TenantStore.finalRows]
  refine List.map_congr_left fun r hr => ?_
  cases hbucket : r.bucketId with
  | none =>
    rw [if_pos]
    exact List.mem_map_of_mem (List.mem_filter.2 ⟨hr, by simp [hbucket]⟩)
  | some bucket =>
    rw [withBucket_of_some hbucket, ite_self]

/-- The keys of all rows are those of the rows with a bucket and those of the old ones. -/
theorem count_finalRows {κ : Type} [DecidableEq κ] {keys : ErrorRow → List κ}
    (hkeys : ∀ r, r.bucketId = none → keys r = []) (k : κ) :
    ((t.finalRows P).flatMap keys).count k =
      (t.errors.rows.flatMap keys).count k + ((t.legacyRows P).flatMap keys).count k := by
  rw [TenantStore.finalRows, TenantStore.legacyRows]
  generalize t.errors.rows = rows
  induction rows with
  | nil => rfl
  | cons r rows ih =>
    cases hbucket : r.bucketId with
    | none =>
      simp [hbucket, hkeys r hbucket, ih]
      omega
    | some bucket =>
      simp [hbucket, withBucket_of_some hbucket, ih]
      omega

/-- A bucket without old rows has the rows that it had. -/
theorem filter_finalRows {app bucket : String}
    (h : ∀ r ∈ t.legacyRows P, r.inBucket app bucket = false) :
    (t.finalRows P).filter (ErrorRow.inBucket app bucket) =
      t.errors.rows.filter (ErrorRow.inBucket app bucket) := by
  have hsame : ∀ r ∈ t.errors.rows,
      (r.withBucket P).inBucket app bucket = r.inBucket app bucket := by
    intro r hr
    cases hbucket : r.bucketId with
    | none =>
      have hlegacy : r.withBucket P ∈ t.legacyRows P :=
        List.mem_map_of_mem (List.mem_filter.2 ⟨hr, by simp [hbucket]⟩)
      rw [h _ hlegacy]
      simp [ErrorRow.inBucket, hbucket]
    | some own => rw [withBucket_of_some hbucket]
  have hfilter : t.errors.rows.filter (ErrorRow.inBucket app bucket ∘ ErrorRow.withBucket P) =
      t.errors.rows.filter (ErrorRow.inBucket app bucket) := List.filter_congr hsame
  rw [TenantStore.finalRows, List.filter_map, hfilter]
  refine (List.map_congr_left fun r hr => ?_).trans (List.map_id _)
  have hin := (List.mem_filter.1 hr).2
  simp only [ErrorRow.inBucket, Bool.and_eq_true, decide_eq_true_eq] at hin
  exact withBucket_of_some hin.2

/-- A bucket with old rows has these as well. -/
theorem length_finalRows (app bucket : String) :
    ((t.finalRows P).filter (ErrorRow.inBucket app bucket)).length =
      (t.errors.rows.filter (ErrorRow.inBucket app bucket)).length +
        ((t.legacyRows P).filter (ErrorRow.inBucket app bucket)).length := by
  rw [TenantStore.finalRows, TenantStore.legacyRows]
  simp only [← List.countP_eq_length_filter]
  generalize t.errors.rows = rows
  induction rows with
  | nil => rfl
  | cons r rows ih =>
    cases hbucket : r.bucketId with
    | none =>
      have hout : r.inBucket app bucket = false := by simp [ErrorRow.inBucket, hbucket]
      simp only [List.map_cons, List.filter_cons, hbucket, Option.isNone_none, if_true,
        List.countP_cons, hout, ih]
      simp
      omega
    | some own =>
      simp only [List.map_cons, List.filter_cons, hbucket, Option.isNone_some,
        Bool.false_eq_true, if_false, List.countP_cons, ih, withBucket_of_some hbucket]
      omega

end Rows

/-! ## When the read models are right -/

/-- The row of a key, recomputed. -/
def viewRow {κ : Type} [DecidableEq κ] (keys : List κ) (k : κ) : Option Int :=
  if k ∈ keys then some (keys.count k : Int) else none

/-- The read models of the buckets are what recomputing them from the rows gives. -/
structure Recomputed (R : Renderings) (t : TenantStore) : Prop where
  summaries : ∀ app bucket,
    t.bucketSummaries.get? (app, bucket) = summarize (t.bucketRows app bucket)
  windows : Counts t.bucketWindows (keysOf (windowKeysOf R) t.errors.rows)
  bucketCounts : Counts t.bucketContextCounts (keysOf (bucketDimensionsOf R) t.errors.rows)

/-- A key that the migration gets right: it has the right row already, or it has none and its rows
are all with a bucket id or all without. -/
def Mendable {ν : Type} (held right : Option ν) (marked legacy : Prop) : Prop :=
  match held with
  | some v => right = some v
  | none => ¬ marked ∨ ¬ legacy

/-- A text, a number or a truth value. -/
def Json.isScalar : Json → Bool
  | string _ | number _ | bool _ => true
  | _ => false

/-- The `build` of the context is a text, a number or a truth value. -/
def scalarBuild (context : Context) : Bool := (context.get? "build").any Json.isScalar

/-- Every key of the read models is one that the migration gets right. -/
structure Backfillable (P : Platform) (t : TenantStore) : Prop where
  summaries : ∀ app bucket, Mendable (t.bucketSummaries.get? (app, bucket))
    (summarize ((t.finalRows P).filter (ErrorRow.inBucket app bucket)))
    (∃ r ∈ t.errors.rows, r.inBucket app bucket = true)
    (∃ r ∈ t.legacyRows P, r.inBucket app bucket = true)
  windows : ∀ k, Mendable (t.bucketWindows.get? k)
    (viewRow ((t.finalRows P).flatMap (windowKeysOf P.toRenderings)) k)
    (∃ r ∈ t.errors.rows, k ∈ windowKeysOf P.toRenderings r)
    (∃ r ∈ t.legacyRows P, k ∈ windowKeysOf P.toRenderings r)
  bucketCounts : ∀ k, Mendable (t.bucketContextCounts.get? k)
    (viewRow ((t.finalRows P).flatMap (bucketDimensionsOf P.toRenderings)) k)
    (∃ r ∈ t.errors.rows, k ∈ bucketDimensionsOf P.toRenderings r)
    (∃ r ∈ t.legacyRows P, k ∈ bucketDimensionsOf P.toRenderings r)
  /-- The schema passes over these builds. -/
  builds : ∀ k, t.bucketContextCounts.get? k = none → k.key = "build" →
    ∀ r ∈ t.finalRows P, k ∈ bucketDimensionsOf P.toRenderings r →
      scalarBuild r.record.context = false

section Mending

variable {P : Platform} {t : TenantStore}

/-- Of the keys of a count, what is in the table after two fillings is right exactly when the key
is mendable. -/
theorem filled_twice_iff {κ : Type} [DecidableEq κ] {held : Option Int} {marked legacy all : List κ}
    {k : κ} (hcount : all.count k = marked.count k + legacy.count k) :
    (held.or (if k ∈ marked then groupCount marked k else none)).or
        (if k ∈ all then groupCount all k else none) = viewRow all k ↔
      Mendable held (viewRow all k) (k ∈ marked) (k ∈ legacy) := by
  have hmarked := List.count_pos_iff (a := k) (l := marked)
  have hlegacy := List.count_pos_iff (a := k) (l := legacy)
  have hall := List.count_pos_iff (a := k) (l := all)
  cases held with
  | some v => simp [Mendable, eq_comm]
  | none =>
    simp only [Mendable, viewRow, groupCount, Option.none_or]
    by_cases hm : k ∈ marked
    · have hin : k ∈ all := hall.1 (by have := hmarked.2 hm; omega)
      simp only [hm, hin, if_true, Option.some_or, Option.some.injEq, Nat.cast_inj, hcount,
        not_true_eq_false, false_or, ← hlegacy]
      omega
    · simp [hm]

/-! ### The dimensions that the schema selects -/

theorem schemaCohortValue_eq (R : Renderings) (key : String) (v : Json) :
    schemaCohortValue R key v =
      if key = "build" && v.isScalar then none else sqlCohortValue R key v := by
  by_cases hkey : key = "build"
  · subst hkey
    cases v with
    | object members =>
      -- without a text the trigger has no dimension either
      simp only [schemaCohortValue, sqlCohortValue, sqlIsDimension, sqlDimensionText,
        Json.jsonbTypeof, Json.isScalar, decide_true, Bool.true_and, Bool.false_eq_true, if_false,
        if_true]
      cases ((Json.object members).arrowText R "version").or
        ((Json.object members).arrowText R "commit") <;> rfl
    | _ => simp [schemaCohortValue, sqlCohortValue, sqlIsDimension, sqlDimensionText,
        Json.jsonbTypeof, Json.arrowText, Json.get, Json.isScalar]
  · simp [schemaCohortValue, hkey]

/-- The schema selects the dimensions of the trigger, without a scalar build. -/
theorem schemaDimensions_eq (R : Renderings) (context : Context) :
    schemaDimensions R context =
      (sqlDimensions R context).filter fun d => !(d.1 = "build" && scalarBuild context) := by
  rw [schemaDimensions, sqlDimensions, List.filter_filterMap]
  refine List.filterMap_congr fun r hr => ?_
  have hrow : context.get? r.1 = some r.2 := Table.get?_eq_some_iff.2 (List.mem_filter.1 hr).1
  rw [schemaCohortValue_eq]
  by_cases hkey : r.1 = "build"
  · have hscalar : scalarBuild context = r.2.isScalar := by
      rw [scalarBuild, ← hkey, hrow, Option.any_some]
    rw [hscalar]
    cases r.2.isScalar <;> cases sqlCohortValue R r.1 r.2 <;>
      simp [hkey, Option.filter_some]
  · cases sqlCohortValue R r.1 r.2 <;> simp [hkey, Option.filter_some]

/-- A row counts for a dimension in the schema as in the trigger, but for a scalar build. -/
theorem count_schemaBucketDimensions (R : Renderings) (r : ErrorRow) (k : BucketDimension) :
    (schemaBucketDimensions R r).count k =
      if k.key = "build" ∧ scalarBuild r.record.context = true then 0
      else (bucketDimensionsOf R r).count k := by
  have hdims : schemaBucketDimensions R r = (bucketDimensionsOf R r).filter fun d =>
      !(d.key = "build" && scalarBuild r.record.context) := by
    rw [schemaBucketDimensions, bucketDimensionsOf, schemaDimensions_eq]
    cases r.bucketId with
    | none => rfl
    | some bucket =>
      simp only [Option.toList_some, List.flatMap_cons, List.flatMap_nil, List.append_nil,
        List.filter_map]
      rfl
  rw [hdims]
  split
  · rename_i hbuild
    exact List.count_eq_zero_of_not_mem (by simp [hbuild])
  · rename_i hbuild
    refine List.count_filter ?_
    simpa [imp_iff_not_or] using hbuild

/-- Without a scalar build of the key, the schema counts it in full. -/
theorem count_schema_eq (R : Renderings) {rows : List ErrorRow} {k : BucketDimension}
    (h : k.key = "build" → ∀ r ∈ rows, k ∈ bucketDimensionsOf R r →
      scalarBuild r.record.context = false) :
    (rows.flatMap (schemaBucketDimensions R)).count k =
      (rows.flatMap (bucketDimensionsOf R)).count k := by
  rw [List.count_flatMap, List.count_flatMap]
  refine congrArg List.sum (List.map_congr_left fun r hr => ?_)
  rw [Function.comp_apply, Function.comp_apply, count_schemaBucketDimensions]
  split
  · rename_i hbuild
    refine (List.count_eq_zero_of_not_mem fun hk => ?_).symm
    rw [h hbuild.1 r hr hk] at hbuild
    exact Bool.false_ne_true hbuild.2
  · rfl

/-- With one, it counts fewer. -/
theorem count_schema_lt (R : Renderings) {rows : List ErrorRow} {k : BucketDimension}
    (hkey : k.key = "build") {r : ErrorRow} (hr : r ∈ rows) (hk : k ∈ bucketDimensionsOf R r)
    (hscalar : scalarBuild r.record.context = true) :
    (rows.flatMap (schemaBucketDimensions R)).count k <
      (rows.flatMap (bucketDimensionsOf R)).count k := by
  have hle (r : ErrorRow) : (schemaBucketDimensions R r).count k ≤
      (bucketDimensionsOf R r).count k := by
    rw [count_schemaBucketDimensions]
    split
    · exact Nat.zero_le _
    · exact le_rfl
  have hlt : (schemaBucketDimensions R r).count k < (bucketDimensionsOf R r).count k := by
    rw [count_schemaBucketDimensions, if_pos ⟨hkey, hscalar⟩]
    exact List.count_pos_iff.2 hk
  rw [List.count_flatMap, List.count_flatMap]
  exact List.sum_lt_sum _ _ (fun r _ => hle r) ⟨r, hr, hlt⟩

/-! ### The read models after the migration -/

theorem mem_bucketGroups {rows : List ErrorRow} {k : String × String} :
    k ∈ bucketGroups rows ↔ ∃ r ∈ rows, r.inBucket k.1 k.2 = true := by
  obtain ⟨app, bucket⟩ := k
  simp only [bucketGroups, List.mem_filterMap, Option.map_eq_some_iff, Prod.mk.injEq,
    ErrorRow.inBucket, Bool.and_eq_true, decide_eq_true_eq]
  constructor
  · rintro ⟨r, hr, own, hown, happ, rfl⟩
    exact ⟨r, hr, happ, hown⟩
  · rintro ⟨r, hr, happ, hown⟩
    exact ⟨r, hr, bucket, hown, happ, rfl⟩

/-- The aggregate of a bucket without rows is none in either case. -/
theorem summarize_group (rows : List ErrorRow) (k : String × String)
    [Decidable (k ∈ bucketGroups rows)] :
    (if k ∈ bucketGroups rows then summarize (rows.filter (ErrorRow.inBucket k.1 k.2)) else none) =
      summarize (rows.filter (ErrorRow.inBucket k.1 k.2)) := by
  split
  · rfl
  · rename_i hnone
    rw [mem_bucketGroups] at hnone
    refine (summarize_eq_none.2 (List.filter_eq_nil_iff.2 fun r hr hin => ?_)).symm
    exact hnone ⟨r, hr, hin⟩

theorem errors_migrate (P : Platform) (t : TenantStore) :
    (migrate P t).errors.rows = t.finalRows P :=
  rows_backfillMissingBucketIds P (backfillRollups P.toRenderings t)

theorem get?_summaries_migrate (P : Platform) (t : TenantStore) (k : String × String) :
    (migrate P t).bucketSummaries.get? k =
      ((t.bucketSummaries.get? k).or
        (summarize (t.errors.rows.filter (ErrorRow.inBucket k.1 k.2)))).or
        (summarize ((t.finalRows P).filter (ErrorRow.inBucket k.1 k.2))) := by
  have hfill (u : TenantStore) : (backfillRollups P.toRenderings u).bucketSummaries.get? k =
      (u.bucketSummaries.get? k).or
        (summarize (u.errors.rows.filter (ErrorRow.inBucket k.1 k.2))) :=
    (Table.get?_insertGroups k).trans (by rw [summarize_group])
  have hrows : (backfillMissingBucketIds P (backfillRollups P.toRenderings t)).errors.rows =
      t.finalRows P := rows_backfillMissingBucketIds P _
  rw [migrate, hfill, hrows]
  exact congrArg (Option.or · _) (hfill t)

theorem get?_windows_migrate (P : Platform) (t : TenantStore) (k : WindowKey) :
    (migrate P t).bucketWindows.get? k =
      ((t.bucketWindows.get? k).or
        (if k ∈ t.errors.rows.flatMap (windowKeysOf P.toRenderings) then
          groupCount (t.errors.rows.flatMap (windowKeysOf P.toRenderings)) k else none)).or
        (if k ∈ (t.finalRows P).flatMap (windowKeysOf P.toRenderings) then
          groupCount ((t.finalRows P).flatMap (windowKeysOf P.toRenderings)) k else none) := by
  have hrows : (backfillMissingBucketIds P (backfillRollups P.toRenderings t)).errors.rows =
      t.finalRows P := rows_backfillMissingBucketIds P _
  rw [← hrows]
  exact (Table.get?_insertGroups k).trans (congrArg (Option.or · _) (Table.get?_insertGroups k))

theorem get?_dimensions_migrate (P : Platform) (t : TenantStore) (k : BucketDimension) :
    (migrate P t).bucketContextCounts.get? k =
      ((t.bucketContextCounts.get? k).or
        (if k ∈ t.errors.rows.flatMap (schemaBucketDimensions P.toRenderings) then
          groupCount (t.errors.rows.flatMap (schemaBucketDimensions P.toRenderings)) k
          else none)).or
        (if k ∈ (t.finalRows P).flatMap (schemaBucketDimensions P.toRenderings) then
          groupCount ((t.finalRows P).flatMap (schemaBucketDimensions P.toRenderings)) k
          else none) := by
  have hrows : (backfillMissingBucketIds P (backfillRollups P.toRenderings t)).errors.rows =
      t.finalRows P := rows_backfillMissingBucketIds P _
  rw [← hrows]
  exact (Table.get?_insertGroups k).trans (congrArg (Option.or · _) (Table.get?_insertGroups k))

theorem summary_migrate_iff (app bucket : String) :
    (migrate P t).bucketSummaries.get? (app, bucket) =
        summarize ((t.finalRows P).filter (ErrorRow.inBucket app bucket)) ↔
      Mendable (t.bucketSummaries.get? (app, bucket))
        (summarize ((t.finalRows P).filter (ErrorRow.inBucket app bucket)))
        (∃ r ∈ t.errors.rows, r.inBucket app bucket = true)
        (∃ r ∈ t.legacyRows P, r.inBucket app bucket = true) := by
  rw [get?_summaries_migrate]
  cases t.bucketSummaries.get? (app, bucket) with
  | some s => simp [Mendable, eq_comm]
  | none =>
    simp only [Mendable, Option.none_or]
    by_cases hmarked : ∃ r ∈ t.errors.rows, r.inBucket app bucket = true
    · by_cases hlegacy : ∃ r ∈ t.legacyRows P, r.inBucket app bucket = true
      · -- the first filling has counted fewer rows than there are now
        refine iff_of_false (fun heq => ?_) (not_or.2 ⟨not_not.2 hmarked, not_not.2 hlegacy⟩)
        have hrows := summaryOf_summarize (t.errors.rows.filter (ErrorRow.inBucket app bucket))
        have hfinal := summaryOf_summarize
          ((t.finalRows P).filter (ErrorRow.inBucket app bucket))
        obtain ⟨r, hr, hin⟩ := hmarked
        cases hsome : summarize (t.errors.rows.filter (ErrorRow.inBucket app bucket)) with
        | none =>
          have hmem := List.mem_filter.2 ⟨hr, hin⟩
          rw [summarize_eq_none.1 hsome] at hmem
          cases hmem
        | some s =>
          rw [hsome] at hrows heq
          rw [Option.some_or] at heq
          rw [← heq] at hfinal
          have hlength := length_finalRows (P := P) (t := t) app bucket
          have hpos : 0 < ((t.legacyRows P).filter (ErrorRow.inBucket app bucket)).length := by
            obtain ⟨old, hold, hin⟩ := hlegacy
            exact List.length_pos_of_mem (List.mem_filter.2 ⟨hold, hin⟩)
          have hcount : ((t.errors.rows.filter (ErrorRow.inBucket app bucket)).length : Int) =
              ((t.finalRows P).filter (ErrorRow.inBucket app bucket)).length :=
            hrows.1.symm.trans hfinal.1
          omega
      · refine iff_of_true ?_ (.inr hlegacy)
        have hnone : ∀ r ∈ t.legacyRows P, r.inBucket app bucket = false := fun r hr =>
          Bool.eq_false_iff.2 fun hin => hlegacy ⟨r, hr, hin⟩
        rw [filter_finalRows hnone, Option.or_self]
    · refine iff_of_true ?_ (.inl hmarked)
      have hempty : t.errors.rows.filter (ErrorRow.inBucket app bucket) = [] :=
        List.filter_eq_nil_iff.2 fun r hr hin => hmarked ⟨r, hr, hin⟩
      rw [summarize_eq_none.2 hempty, Option.none_or]

theorem window_migrate_iff (k : WindowKey) :
    (migrate P t).bucketWindows.get? k =
        viewRow ((t.finalRows P).flatMap (windowKeysOf P.toRenderings)) k ↔
      Mendable (t.bucketWindows.get? k)
        (viewRow ((t.finalRows P).flatMap (windowKeysOf P.toRenderings)) k)
        (∃ r ∈ t.errors.rows, k ∈ windowKeysOf P.toRenderings r)
        (∃ r ∈ t.legacyRows P, k ∈ windowKeysOf P.toRenderings r) := by
  have hkeys : ∀ r : ErrorRow, r.bucketId = none → windowKeysOf P.toRenderings r = [] := by
    intro r hr
    simp [windowKeysOf, hr]
  rw [get?_windows_migrate, filled_twice_iff (count_finalRows hkeys k), List.mem_flatMap,
    List.mem_flatMap]

theorem dimension_migrate_iff (k : BucketDimension) :
    (migrate P t).bucketContextCounts.get? k =
        viewRow ((t.finalRows P).flatMap (bucketDimensionsOf P.toRenderings)) k ↔
      Mendable (t.bucketContextCounts.get? k)
        (viewRow ((t.finalRows P).flatMap (bucketDimensionsOf P.toRenderings)) k)
        (∃ r ∈ t.errors.rows, k ∈ bucketDimensionsOf P.toRenderings r)
        (∃ r ∈ t.legacyRows P, k ∈ bucketDimensionsOf P.toRenderings r) ∧
      (t.bucketContextCounts.get? k = none → k.key = "build" →
        ∀ r ∈ t.finalRows P, k ∈ bucketDimensionsOf P.toRenderings r →
          scalarBuild r.record.context = false) := by
  have hkeys : ∀ r : ErrorRow, r.bucketId = none →
      schemaBucketDimensions P.toRenderings r = [] := by
    intro r hr
    simp [schemaBucketDimensions, hr]
  have hcount := count_finalRows (P := P) (t := t) hkeys k
  rw [get?_dimensions_migrate]
  cases hheld : t.bucketContextCounts.get? k with
  | some n =>
    rw [Option.some_or, Option.some_or, Mendable]
    exact ⟨fun h => ⟨h.symm, nofun⟩, fun h => h.1.symm⟩
  | none =>
    simp only [forall_const]
    by_cases hbuilds : k.key = "build" → ∀ r ∈ t.finalRows P,
        k ∈ bucketDimensionsOf P.toRenderings r → scalarBuild r.record.context = false
    · -- the schema counts the key as the trigger does, in each of the three lists
      have hfinal := count_schema_eq P.toRenderings hbuilds
      have hrows : ∀ r ∈ t.errors.rows, k ∈ bucketDimensionsOf P.toRenderings r →
          r ∈ t.finalRows P := by
        intro r hr hk
        cases hbucket : r.bucketId with
        | none => simp [bucketDimensionsOf, hbucket] at hk
        | some bucket =>
          rw [← withBucket_of_some (P := P) hbucket]
          exact List.mem_map_of_mem hr
      have hmarked : (t.errors.rows.flatMap (schemaBucketDimensions P.toRenderings)).count k =
          (t.errors.rows.flatMap (bucketDimensionsOf P.toRenderings)).count k :=
        count_schema_eq P.toRenderings fun hkey r hr hk => hbuilds hkey r (hrows r hr hk) hk
      have hlegacy : ((t.legacyRows P).flatMap (schemaBucketDimensions P.toRenderings)).count k =
          ((t.legacyRows P).flatMap (bucketDimensionsOf P.toRenderings)).count k := by
        refine count_schema_eq P.toRenderings fun hkey r hr hk => hbuilds hkey r ?_ hk
        obtain ⟨old, hold, rfl⟩ := List.mem_map.1 hr
        exact List.mem_map_of_mem (List.mem_filter.1 hold).1
      have hview : viewRow ((t.finalRows P).flatMap (bucketDimensionsOf P.toRenderings)) k =
          viewRow ((t.finalRows P).flatMap (schemaBucketDimensions P.toRenderings)) k := by
        simp only [viewRow, ← List.count_pos_iff, hfinal]
      have hmarked' : k ∈ t.errors.rows.flatMap (schemaBucketDimensions P.toRenderings) ↔
          ∃ r ∈ t.errors.rows, k ∈ bucketDimensionsOf P.toRenderings r := by
        rw [← List.count_pos_iff, hmarked, List.count_pos_iff, List.mem_flatMap]
      have hlegacy' : k ∈ (t.legacyRows P).flatMap (schemaBucketDimensions P.toRenderings) ↔
          ∃ r ∈ t.legacyRows P, k ∈ bucketDimensionsOf P.toRenderings r := by
        rw [← List.count_pos_iff, hlegacy, List.count_pos_iff, List.mem_flatMap]
      rw [hview, filled_twice_iff hcount, hmarked', hlegacy']
      exact (and_iff_left hbuilds).symm
    · -- a scalar build is in no filling
      refine iff_of_false (fun heq => ?_) fun h => hbuilds h.2
      push Not at hbuilds
      obtain ⟨hkey, r, hr, hk, hscalar⟩ := hbuilds
      have hlt := count_schema_lt P.toRenderings hkey hr hk (Bool.eq_true_of_not_eq_false hscalar)
      have hin : k ∈ (t.finalRows P).flatMap (bucketDimensionsOf P.toRenderings) :=
        List.mem_flatMap.2 ⟨r, hr, hk⟩
      simp only [viewRow, hin, if_true, Option.none_or, groupCount] at heq
      split at heq
      · rw [Option.some_or, Option.some.injEq, Nat.cast_inj] at heq
        omega
      · rw [Option.none_or] at heq
        split at heq
        · rw [Option.some.injEq, Nat.cast_inj] at heq
          omega
        · cases heq

/-! ### Once more -/

/-- Filling the read models again changes nothing when no row and no group is new. -/
theorem backfillRollups_again (R : Renderings) (t : TenantStore) :
    backfillRollups R (backfillRollups R t) = backfillRollups R t := by
  have hsummaries : ∀ k ∈ bucketGroups t.errors.rows,
      (backfillRollups R t).bucketSummaries.has k = true := by
    intro k hk
    refine Table.has_insertGroups hk (Option.isSome_iff_ne_none.2 fun hnone => ?_)
    obtain ⟨r, hr, hin⟩ := mem_bucketGroups.1 hk
    have hmem := List.mem_filter.2 ⟨hr, hin⟩
    rw [summarize_eq_none.1 hnone] at hmem
    cases hmem
  have htraffic : ∀ k ∈ buildGroups R t.errors.rows,
      (backfillRollups R t).buildTraffic.has k = true := by
    intro k hk
    refine Table.has_insertGroups hk ?_
    rw [buildAggregate, Option.isSome_map]
    refine Option.isSome_iff_ne_none.2 fun hnone => ?_
    obtain ⟨r, hr, hgroup⟩ := List.mem_filterMap.1 hk
    obtain ⟨build, hbuild, rfl⟩ := Option.map_eq_some_iff.1 hgroup
    have hmem : r ∈ t.errors.rows.filter fun r' =>
        r'.appId = r.appId && sqlBuild R r'.record.context = some build :=
      List.mem_filter.2 ⟨hr, by simpa using hbuild⟩
    rw [summarize_eq_none.1 hnone] at hmem
    cases hmem
  have h1 : (backfillRollups R t).bucketSummaries.insertGroups (bucketGroups t.errors.rows)
      (fun k => summarize (t.errors.rows.filter (ErrorRow.inBucket k.1 k.2))) =
      (backfillRollups R t).bucketSummaries := Table.insertGroups_of_has hsummaries
  have h2 : (backfillRollups R t).buildTraffic.insertGroups (buildGroups R t.errors.rows)
      (buildAggregate R t.errors.rows) = (backfillRollups R t).buildTraffic :=
    Table.insertGroups_of_has htraffic
  have h3 : (backfillRollups R t).bucketWindows.insertGroups
      (t.errors.rows.flatMap (windowKeysOf R))
      (groupCount (t.errors.rows.flatMap (windowKeysOf R))) =
      (backfillRollups R t).bucketWindows :=
    Table.insertGroups_of_has fun k hk => Table.has_insertGroups hk rfl
  have h4 : (backfillRollups R t).appContextCounts.insertGroups
      (t.errors.rows.flatMap (schemaAppDimensions R))
      (groupCount (t.errors.rows.flatMap (schemaAppDimensions R))) =
      (backfillRollups R t).appContextCounts :=
    Table.insertGroups_of_has fun k hk => Table.has_insertGroups hk rfl
  have h5 : (backfillRollups R t).bucketContextCounts.insertGroups
      (t.errors.rows.flatMap (schemaBucketDimensions R))
      (groupCount (t.errors.rows.flatMap (schemaBucketDimensions R))) =
      (backfillRollups R t).bucketContextCounts :=
    Table.insertGroups_of_has fun k hk => Table.has_insertGroups hk rfl
  calc backfillRollups R (backfillRollups R t)
      = { backfillRollups R t with
          bucketSummaries := (backfillRollups R t).bucketSummaries.insertGroups
            (bucketGroups t.errors.rows)
            (fun k => summarize (t.errors.rows.filter (ErrorRow.inBucket k.1 k.2)))
          buildTraffic := (backfillRollups R t).buildTraffic.insertGroups
            (buildGroups R t.errors.rows) (buildAggregate R t.errors.rows)
          bucketWindows := (backfillRollups R t).bucketWindows.insertGroups
            (t.errors.rows.flatMap (windowKeysOf R))
            (groupCount (t.errors.rows.flatMap (windowKeysOf R)))
          appContextCounts := (backfillRollups R t).appContextCounts.insertGroups
            (t.errors.rows.flatMap (schemaAppDimensions R))
            (groupCount (t.errors.rows.flatMap (schemaAppDimensions R)))
          bucketContextCounts := (backfillRollups R t).bucketContextCounts.insertGroups
            (t.errors.rows.flatMap (schemaBucketDimensions R))
            (groupCount (t.errors.rows.flatMap (schemaBucketDimensions R))) } := rfl
    _ = backfillRollups R t := by rw [h1, h2, h3, h4, h5]

/-- Where every row has a bucket id, no row is updated. -/
theorem backfillMissingBucketIds_of_marked (h : ∀ r ∈ t.errors.rows, r.bucketId.isNone = false) :
    backfillMissingBucketIds P t = t := by
  have hnone : (t.errors.rows.filter fun r => r.bucketId.isNone) = [] :=
    List.filter_eq_nil_iff.2 fun r hr => Bool.eq_false_iff.1 (h r hr)
  simp only [backfillMissingBucketIds, hnone]
  rfl

/-- A second migration changes nothing. -/
theorem migrate_again (P : Platform) (t : TenantStore) : migrate P (migrate P t) = migrate P t := by
  have hfilled : backfillRollups P.toRenderings (migrate P t) = migrate P t :=
    backfillRollups_again _ _
  have hmarked : ∀ r ∈ (migrate P t).errors.rows, r.bucketId.isNone = false := by
    intro r hr
    rw [errors_migrate] at hr
    obtain ⟨old, -, rfl⟩ := List.mem_map.1 hr
    rfl
  calc migrate P (migrate P t)
      = backfillRollups P.toRenderings (backfillMissingBucketIds P
          (backfillRollups P.toRenderings (migrate P t))) := rfl
    _ = backfillRollups P.toRenderings (backfillMissingBucketIds P (migrate P t)) := by
      rw [hfilled]
    _ = backfillRollups P.toRenderings (migrate P t) := by
      rw [backfillMissingBucketIds_of_marked hmarked]
    _ = migrate P t := hfilled

end Mending

/-! ## The migration recomputes the read models -/

/-- Of a database that is behind, the migration makes the read models what recomputing them gives
exactly when every key is one that it gets right.  Applying the schema again changes nothing. -/
theorem migration_recomputes_iff (P : Platform) (d : TenantDatabase)
    (hbehind : d.applied.getD 0 < tenantSchemaVersion) :
    (Recomputed P.toRenderings (applySchema P d).tenant ↔ Backfillable P d.tenant) ∧
      applySchema P (applySchema P d) = applySchema P d ∧
      migrate P (applySchema P d).tenant = (applySchema P d).tenant := by
  have happly : applySchema P d =
      { applied := some tenantSchemaVersion, tenant := migrate P d.tenant } := if_pos hbehind
  have hview {κ : Type} [DecidableEq κ] (table : Table κ Int) (keys : ErrorRow → List κ) :
      Counts table (keysOf keys (d.tenant.finalRows P)) ↔
        ∀ k, table.get? k = viewRow ((d.tenant.finalRows P).flatMap keys) k := by
    simp only [Counts, keysOf, Multiset.mem_coe, Multiset.coe_count, viewRow]
  rw [happly]
  refine ⟨?_, ?_, migrate_again P d.tenant⟩
  · constructor
    · intro h
      have hsummaries := h.summaries
      have hwindows := h.windows
      have hcounts := h.bucketCounts
      simp only [TenantStore.bucketRows, errors_migrate] at hsummaries
      rw [errors_migrate, hview] at hwindows hcounts
      exact ⟨fun app bucket => (summary_migrate_iff app bucket).1 (hsummaries app bucket),
        fun k => (window_migrate_iff k).1 (hwindows k),
        fun k => ((dimension_migrate_iff k).1 (hcounts k)).1,
        fun k => ((dimension_migrate_iff k).1 (hcounts k)).2⟩
    · intro h
      refine ⟨fun app bucket => ?_, ?_, ?_⟩
      · rw [TenantStore.bucketRows, errors_migrate]
        exact (summary_migrate_iff app bucket).2 (h.summaries app bucket)
      · rw [errors_migrate, hview]
        exact fun k => (window_migrate_iff k).2 (h.windows k)
      · rw [errors_migrate, hview]
        exact fun k => (dimension_migrate_iff k).2 ⟨h.bucketCounts k, h.builds k⟩
  · rw [applySchema, if_neg]
    exact lt_irrefl tenantSchemaVersion

/-- A crash of an app, with a bucket id or without. -/
def oldCrash (id : Nat) (bucketId : Option String) : ErrorRow :=
  ⟨id, "shop", boom .empty, bucketId, 0⟩

/-- A database with the two crashes of which only the first has a bucket id. -/
def halfMarked : TenantDatabase where
  tenant := { errors := {
    rows := [oldCrash 1 (some "bkt_dd250179f692"), oldCrash 2 none]
    nextId := 3
    sorted := by decide
    bounded := by decide } }

/-- A database with two crashes without a bucket id. -/
def unmarked : TenantDatabase where
  tenant := { errors := {
    rows := [oldCrash 1 none, oldCrash 2 none]
    nextId := 3
    sorted := by decide
    bounded := by decide } }

theorem migration_recomputes_iff_unmarked :
    unmarked.applied.getD 0 < tenantSchemaVersion ∧
      Recomputed oneBucket.toRenderings (applySchema oneBucket unmarked).tenant := by
  have hbehind : unmarked.applied.getD 0 < tenantSchemaVersion := by decide
  refine ⟨hbehind, (migration_recomputes_iff oneBucket unmarked hbehind).1.2 ?_⟩
  have hnone : ∀ r ∈ unmarked.tenant.errors.rows, r.bucketId = none := by decide
  refine ⟨fun app bucket => .inl ?_, fun k => .inl ?_, fun k => .inl ?_, fun k _ _ r hr _ => ?_⟩
  · rintro ⟨r, hr, hin⟩
    simp [ErrorRow.inBucket, hnone r hr] at hin
  · rintro ⟨r, hr, hk⟩
    simp [windowKeysOf, hnone r hr] at hk
  · rintro ⟨r, hr, hk⟩
    simp [bucketDimensionsOf, hnone r hr] at hk
  · have hbuilds : ∀ r ∈ unmarked.tenant.finalRows oneBucket,
        scalarBuild r.record.context = false := by decide
    exact hbuilds r hr

/-- The crash without a bucket id is left out of the summary. -/
theorem half_marked_is_undercounted :
    ¬ Recomputed oneBucket.toRenderings (applySchema oneBucket halfMarked).tenant := by
  intro h
  have hsummary := h.summaries "shop" "bkt_dd250179f692"
  revert hsummary
  decide

end ReproitCloud
