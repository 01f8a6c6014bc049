import ReproitCloud.Telemetry.Store

/-!
# Cohort dimensions and build keys of a context

Two programs turn an error's context into counter keys.  Ingest does it in Rust
when the row is added (`dimensionValues`, `cohortValue`), and the delete trigger
does it in SQL when the row goes (`sqlDimensions`, a `CASE` over `jsonb`).  The
build of a row is read in two ways as well: `buildVersion` in Rust, and the
`COALESCE` of the trigger and of the schema's backfill, `sqlBuildKey`.

`cohortValue_eq_sql_iff` says on which values the two dimension readers agree.
Strings, booleans and integers always agree.  A float agrees when both sides
print it alike.  A `build` object agrees when its members are strings, or
absent, as far as they are looked at (`BuildTextual`).
-/

namespace ReproitCloud

open Lib

/-! ## The Rust readers -/

/-- `safe_cohort_key`: structured input data is never a dimension. -/
def safeCohortKey (key : String) : Bool :=
  !(key = "fingerprint" || key = "input" || key = "inputs")

/-- `cohort_value`. -/
def cohortValue (R : Renderings) (key : String) : Json → Option String
  | .string s => some s
  | .number n => some (Json.serdeNumber R n)
  | .bool b => some (Json.boolText b)
  | .object members =>
    if key = "build" then
      (((Json.object members).get "version").or ((Json.object members).get "commit")).bind
        Json.asStr
    else none
  | _ => none

/-- `dimension_values`: the dimensions ingest counts a context under. -/
def dimensionValues (R : Renderings) (context : Context) : List (String × String) :=
  (context.rows.filter fun r => safeCohortKey r.1).filterMap fun r =>
    (cohortValue R r.1 r.2).map fun value => (r.1, value)

/-- `buckets::build_version`: the build of a record, if it is a string. -/
def buildVersion (record : ErrorRec) : Option String :=
  (record.context.get? "build").bind fun build =>
    ((build.get "commit").bind Json.asStr).or ((build.get "version").bind Json.asStr)

/-! ## The SQL readers -/

/-- The `WHERE` clause of the trigger's loop, for a safe key. -/
def sqlIsDimension (key : String) (value : Json) : Bool :=
  match value.jsonbTypeof with
  | .string | .number | .boolean => true
  | _ => key = "build"

/-- The `CASE` expression of the trigger's loop. -/
def sqlDimensionText (R : Renderings) (key : String) (value : Json) : Option String :=
  match value.jsonbTypeof with
  | .string | .number | .boolean => value.scalarText R
  | _ =>
    if key = "build" then (value.arrowText R "version").or (value.arrowText R "commit") else none

/-- The dimension text of an entry the loop visits, if it is not NULL. -/
def sqlCohortValue (R : Renderings) (key : String) (value : Json) : Option String :=
  if sqlIsDimension key value then sqlDimensionText R key value else none

/-- The dimensions the trigger takes a deleted context off. -/
def sqlDimensions (R : Renderings) (context : Context) : List (String × String) :=
  (context.rows.filter fun r => safeCohortKey r.1).filterMap fun r =>
    (sqlCohortValue R r.1 r.2).map fun value => (r.1, value)

/-- `COALESCE(context->'build'->>'commit', context->'build'->>'version')`. -/
def sqlBuild (R : Renderings) (context : Context) : Option String :=
  (Context.arrowText R context "build" "commit").or (Context.arrowText R context "build" "version")

/-- The build key of a window: the build, or the empty string. -/
def sqlBuildKey (R : Renderings) (context : Context) : String := (sqlBuild R context).getD ""

/-! ## Where the two dimension readers agree -/

/-- A member that is absent or null has no text on either side. -/
def Blank : Option Json → Bool
  | none => true
  | some .null => true
  | some _ => false

/-- A member that is blank or a string has the same text on both sides. -/
def Textual : Option Json → Bool
  | some (.string _) => true
  | member => Blank member

/-- The members of a `build` object that decide its dimension are strings or
missing.  A null `version` hides the `commit` from the Rust reader only. -/
def BuildTextual (build : Json) : Bool :=
  match build.get "version" with
  | some (.string _) => true
  | none => Textual (build.get "commit")
  | some .null => Blank (build.get "commit")
  | some _ => false

/-- The entry is read alike by both sides. -/
def ReadsAlike (R : Renderings) (key : String) : Json → Bool
  | .number (.float bits) => R.serdeFloat bits = R.jsonbFloat bits
  | .object members => if key = "build" then BuildTextual (.object members) else true
  | _ => true

/-- The two readers of a `build` object agree exactly on textual ones. -/
theorem build_read_alike_iff (R : Renderings) (build : Json) :
    ((build.get "version").or (build.get "commit")).bind Json.asStr =
        (build.arrowText R "version").or (build.arrowText R "commit") ↔
      BuildTextual build = true := by
  unfold Json.arrowText BuildTextual
  cases build.get "version" with
  | none =>
    cases build.get "commit" with
    | none => simp [Textual, Blank]
    | some c => cases c <;> simp [Json.asStr, Json.scalarText, Textual, Blank]
  | some v =>
    cases v with
    | null =>
      cases build.get "commit" with
      | none => simp [Json.asStr, Json.scalarText, Blank]
      | some c => cases c <;> simp [Json.asStr, Json.scalarText, Blank]
    | _ => simp [Json.asStr, Json.scalarText]

theorem cohortValue_eq_sql_iff (R : Renderings) (key : String) (v : Json) :
    cohortValue R key v = sqlCohortValue R key v ↔ ReadsAlike R key v = true := by
  cases v with
  | null => simp [cohortValue, sqlCohortValue, sqlIsDimension, sqlDimensionText, ReadsAlike,
      Json.jsonbTypeof, Json.arrowText, Json.get]
  | bool b => simp [cohortValue, sqlCohortValue, sqlIsDimension, sqlDimensionText, ReadsAlike,
      Json.jsonbTypeof, Json.scalarText]
  | string s => simp [cohortValue, sqlCohortValue, sqlIsDimension, sqlDimensionText, ReadsAlike,
      Json.jsonbTypeof, Json.scalarText]
  | array items => simp [cohortValue, sqlCohortValue, sqlIsDimension, sqlDimensionText, ReadsAlike,
      Json.jsonbTypeof, Json.arrowText, Json.get]
  | number n =>
    cases n <;> simp [cohortValue, sqlCohortValue, sqlIsDimension, sqlDimensionText, ReadsAlike,
      Json.jsonbTypeof, Json.scalarText, Json.serdeNumber, Json.jsonbNumber]
  | object members =>
    by_cases hk : key = "build"
    · have h := build_read_alike_iff R (.object members)
      simpa [cohortValue, sqlCohortValue, sqlIsDimension, sqlDimensionText, ReadsAlike,
        Json.jsonbTypeof, hk] using h
    · simp [cohortValue, sqlCohortValue, sqlIsDimension, ReadsAlike, Json.jsonbTypeof, hk]

/-- A context whose dimensions ingest adds and the trigger removes alike: every
safe entry is read alike. -/
def DimensionsAlike (R : Renderings) (context : Context) : Prop :=
  ∀ r ∈ context.rows, safeCohortKey r.1 = true → ReadsAlike R r.1 r.2 = true

instance (R : Renderings) (context : Context) : Decidable (DimensionsAlike R context) :=
  inferInstanceAs (Decidable (∀ r ∈ context.rows, _))

/-- Such a context has the same dimensions on both sides. -/
theorem dimensionValues_eq_sqlDimensions {R : Renderings} {context : Context}
    (h : DimensionsAlike R context) : dimensionValues R context = sqlDimensions R context := by
  unfold dimensionValues sqlDimensions
  apply List.filterMap_congr
  intro r hr
  obtain ⟨hmem, hsafe⟩ := List.mem_filter.1 hr
  rw [(cohortValue_eq_sql_iff R r.1 r.2).2 (h r hmem hsafe)]

end ReproitCloud
