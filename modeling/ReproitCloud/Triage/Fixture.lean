import ReproitCloud.Protocol.Evidence
import ReproitCloud.Telemetry.Discriminators
import ReproitCloud.Triage.Packages

/-!
# The fixture of a package

A package says with which data its replay is to be run.  `fixtureSpec` pins the values that stand
out among the rows of the bucket, and turns the fingerprint of the inputs of one row into
directives.

What is pinned under a key is the value that most of the rows have, so it is never of fewer than
`kAnon` of the bucket's stored errors (`fixture_is_shared`).  A key named `inputs` is lost: the
directives take its place.
-/

namespace ReproitCloud

open Lib Protocol

/-! ## The spec -/

/-- `Value::as_u64`: an integer that fits. -/
def Json.asU64 : Json → Option Nat
  | .number (.int n) => if 0 ≤ n ∧ n < 2 ^ 64 then some n.toNat else none
  | _ => none

/-- `Value::as_array`. -/
def Json.asArray : Json → Option (List Json)
  | .array items => some items
  | _ => none

/-- A number of a fingerprint, under the name of its directive. -/
def atLeast (fp : Json) (key directive : String) : List (String × Json) :=
  (((fp.get key).bind Json.asU64).map fun n => (directive, Json.number (.int n))).toList

/-- A mark of a fingerprint, if it is set. -/
def flagged (fp : Json) (key directive : String) : List (String × Json) :=
  if ((fp.get key).bind asBool).getD false then [(directive, .bool true)] else []

/-- `field_to_input`. -/
def fieldToInput (fp : Json) : Option Json :=
  ((fp.get "field").bind Json.asStr).map fun field =>
    let charset := (((fp.get "charset").bind Json.asStr).map fun c =>
      ("charset", Json.string c)).toList
    let scripts := (((fp.get "scripts").bind Json.asArray).filter fun s => !s.isEmpty).map fun s =>
      ("scripts", Json.array s)
    .object [("field", .string field),
      ("generate", .object (atLeast fp "len" "minLen" ++ charset ++
        flagged fp "hasEmoji" "emoji" ++ flagged fp "isRtl" "rtl" ++ flagged fp "isEmpty" "empty" ++
        atLeast fp "bytes" "minBytes" ++ atLeast fp "graphemes" "minGraphemes" ++
        scripts.toList ++ flagged fp "hasCombiningMarks" "combining" ++
        flagged fp "hasZeroWidth" "zeroWidth" ++ flagged fp "hasNewline" "newline" ++
        flagged fp "leadingTrailingWhitespace" "edgeWhitespace"))]

/-- A discriminator is pinned unless its key has a value. -/
def pin (spec : Context) (d : Discriminator) : Context :=
  if d.key = "fingerprint" then spec else spec.insertIgnore d.key (.string d.value)

/-- The directives of a fingerprint. -/
def fixtureInputs (context : Context) : List Json :=
  (((context.get? "fingerprint").bind Json.asArray).getD []).filterMap fieldToInput

/-- `fixture_spec`. -/
def fixtureSpec (context : Context) (discriminators : List Discriminator) : Context :=
  (discriminators.foldl pin .empty).upsert "inputs" (.array (fixtureInputs context)) fun _ =>
    .array (fixtureInputs context)

/-- The contexts of the rows that a package is made from. -/
def packageCohort (t : TenantStore) (app bucket : String) (cap : Nat) : List Context :=
  (errorsForBucket t app bucket cap).map fun r => r.2.2.context

/-- The contexts of the recent errors of the app. -/
def packageBaseline (t : TenantStore) (app : String) (sample : Nat) : List Context :=
  (recentErrorsWithMeta t app sample).map fun r => r.2.2.context

/-- The fixture of `bucket_package_for_tenant`. -/
def packageFixture (R : Renderings) (t : TenantStore) (app bucket : String) (cap sample : Nat) :
    Option Context :=
  (bucketPackageForTenant t app bucket cap).map fun package =>
    fixtureSpec package.context
      (discriminators R (packageCohort t app bucket cap) (packageBaseline t app sample))

/-! ## What is pinned -/

section Pins

variable {R : Renderings} {cohort baseline : List Context} {ds : List Discriminator}
  {spec context : Context} {key : String}

/-- The first discriminator of a key is pinned, unless it is the fingerprint. -/
theorem get?_foldl_pin (ds : List Discriminator) (spec : Context) (key : String) :
    (ds.foldl pin spec).get? key = (spec.get? key).or
      (if key = "fingerprint" then none
        else (ds.find? fun d => d.key = key).map fun d => .string d.value) := by
  induction ds generalizing spec with
  | nil => simp
  | cons d ds ih =>
    rw [List.foldl_cons, ih, List.find?_cons, pin]
    by_cases hd : d.key = key
    · subst hd
      split
      · rfl
      · rw [Table.get?_insertIgnore, if_pos rfl]
        cases spec.get? d.key <;> simp
    · have hother : (if d.key = "fingerprint" then spec
          else spec.insertIgnore d.key (.string d.value)).get? key = spec.get? key := by
        split
        · rfl
        · rw [Table.get?_insertIgnore, if_neg (Ne.symm hd)]
      simp [hother, hd]

theorem get?_fixtureSpec (hinputs : key ≠ "inputs") :
    (fixtureSpec context ds).get? key =
      if key = "fingerprint" then none
      else (ds.find? fun d => d.key = key).map fun d => .string d.value := by
  rw [fixtureSpec, Table.get?_upsert, if_neg hinputs, get?_foldl_pin, Table.get?_empty,
    Option.none_or]

/-- The first of a key has the largest share. -/
theorem share_le_of_find? (hsorted : ds.Pairwise Discriminator.before) {d other : Discriminator}
    (hd : ds.find? (fun d => d.key = key) = some d) (hother : other ∈ ds)
    (hsame : other.key = key) : other.cohortShare ≤ d.cohortShare := by
  induction ds with
  | nil => cases hd
  | cons first ds ih =>
    rw [List.pairwise_cons] at hsorted
    rw [List.find?_cons] at hd
    split at hd
    · cases hd
      rcases List.mem_cons.1 hother with rfl | hmem
      · exact le_rfl
      · exact Discriminator.before.share_le (hsorted.1 other hmem)
    · rename_i hfirst
      rcases List.mem_cons.1 hother with rfl | hmem
      · exact absurd hsame (of_decide_eq_false hfirst)
      · exact ih hsorted.2 hd hmem

end Pins

/-- Whatever the fixture of a package pins is a value that at least `kAnon` stored errors of the
bucket have, and that stands out most under its key; and under every other key than the two it
keeps for itself, the fixture pins a value if and only if one stands out. -/
theorem fixture_is_shared (R : Renderings) (t : TenantStore) (app bucket : String)
    (cap sample : Nat) (fixture : Context)
    (hfixture : packageFixture R t app bucket cap sample = some fixture) :
    (∀ key j, fixture.get? key = some j → key ≠ "inputs" →
      ∃ d ∈ discriminators R (packageCohort t app bucket cap) (packageBaseline t app sample),
        d.key = key ∧ j = .string d.value ∧
        kAnon ≤ (t.bucketRows app bucket).countP (fun r =>
          readsText R key d.value r.record.context) ∧
        ∀ other ∈ discriminators R (packageCohort t app bucket cap)
          (packageBaseline t app sample), other.key = key → other.cohortShare ≤ d.cohortShare) ∧
    ∀ d ∈ discriminators R (packageCohort t app bucket cap) (packageBaseline t app sample),
      d.key ≠ "fingerprint" → d.key ≠ "inputs" → fixture.has d.key = true := by
  obtain ⟨package, -, rfl⟩ := Option.map_eq_some_iff.1 hfixture
  constructor
  · intro key j hj hinputs
    rw [get?_fixtureSpec hinputs] at hj
    split at hj
    · cases hj
    rw [Option.map_eq_some_iff] at hj
    obtain ⟨d, hd, rfl⟩ := hj
    have hmem := List.mem_of_find?_eq_some hd
    have hdkey : d.key = key := by simpa using List.find?_some hd
    refine ⟨d, hmem, hdkey, rfl, ?_, fun other hother hsame =>
      share_le_of_find? (discriminators_sorted R _ _) hd hother hsame⟩
    obtain ⟨-, -, -, -, hk⟩ := weigh_eq_some (mem_discriminators_iff.1 hmem)
    rw [hdkey] at hk
    refine hk.trans ?_
    rw [packageCohort, errorsForBucket, List.map_map, List.countP_map]
    exact (List.take_sublist cap _).countP_le
  · intro d hd hkey hinputs
    have hfound : ((discriminators R (packageCohort t app bucket cap)
        (packageBaseline t app sample)).find? fun d' => d'.key = d.key).isSome = true := by
      rw [List.find?_isSome]
      exact ⟨d, hd, by simp⟩
    rw [Table.has, get?_fixtureSpec hinputs, if_neg hkey, Option.isSome_map, hfound]

/-- Five errors of a bucket in a locale, and five of another bucket. -/
def localeStore : TenantStore :=
  { TenantStore.empty with
    errors := ErrorTable.empty.insert
      (List.replicate 5 ⟨"shop", boom (Table.empty.insertIgnore "locale" (.string "tr")),
          some "bkt_a", 0⟩ ++
        List.replicate 5 ⟨"shop", boom .empty, some "bkt_b", 0⟩) }

theorem fixture_is_shared_locale : ∃ fixture,
    packageFixture oneBucket.toRenderings localeStore "shop" "bkt_a" 20 20 = some fixture ∧
      fixture.has "locale" = true := by
  have hcohort : (packageCohort localeStore "shop" "bkt_a" 20).countP
      (readsText oneBucket.toRenderings "locale" "tr") = 5 := by decide
  have hbaseline : (packageBaseline localeStore "shop" 20).countP
      (readsText oneBucket.toRenderings "locale" "tr") = 5 := by decide
  have hlocale : (⟨"locale", "tr", 1, 1 / 2, some 2⟩ : Discriminator) ∈
      discriminators oneBucket.toRenderings (packageCohort localeStore "shop" "bkt_a" 20)
        (packageBaseline localeStore "shop" 20) := by
    rw [mem_discriminators_iff, hcohort, hbaseline,
      show (packageCohort localeStore "shop" "bkt_a" 20).length = 5 from rfl,
      show (packageBaseline localeStore "shop" 20).length = 10 from rfl]
    norm_num [weigh, kAnon]
  have hfixture : (packageFixture oneBucket.toRenderings localeStore "shop" "bkt_a" 20 20).isSome =
      true := rfl
  obtain ⟨fixture, hfixture⟩ := Option.isSome_iff_exists.1 hfixture
  exact ⟨fixture, hfixture, (fixture_is_shared oneBucket.toRenderings localeStore "shop" "bkt_a" 20
    20 fixture hfixture).2 _ hlocale (by decide) (by decide)⟩

end ReproitCloud
