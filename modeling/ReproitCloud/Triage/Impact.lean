import ReproitCloud.Integrations.Outbox
import ReproitCloud.Lib.Scores
import ReproitCloud.Telemetry.Timeline

/-!
# The impact of a bucket

The bucket list is ordered by `impactScore`: a weighted sum of five factors, each
between 0 and 1, and a boost for a bucket that is new or regressed.  Factors are
real numbers here and `f64` in the source.  The counts of a timeline are summed
in 64 bits.

The boost of a regression is above the sum of the weights.  It is not above that
sum and the boost of a new bucket together.  That every regression is still first
rests on the least severity (`regressed_outranks`).
-/

namespace ReproitCloud

open Lib

/-! ## Weights and boosts -/

def wSeverity : ℝ := 40
def wBlast : ℝ := 25
def wFrequency : ℝ := 15
def wTrend : ℝ := 20
def wRecency : ℝ := 15

/-- The boost of a bucket nobody has touched. -/
def boostNew : ℝ := 12

/-- The boost of a bucket whose fix did not hold. -/
def boostRegressed : ℝ := 120

/-! ## Severity -/

/-- The class of a bucket's oracle. -/
inductive Severity where
  | crash
  | leak
  | operability
  | jank
  | unclassified
deriving DecidableEq, Repr

namespace Severity

/-- `weight`. -/
noncomputable def weight : Severity → ℝ
  | crash => 1
  | leak => 0.8
  | operability => 0.55
  | jank => 0.3
  | unclassified => 0.5

/-- `as_str`, the wire string. -/
def asStr : Severity → String
  | crash => "crash"
  | leak => "leak"
  | operability => "operability"
  | jank => "jank"
  | unclassified => "unclassified"

end Severity

/-- The `severity` map of the vendored registry. -/
def oracleRegistry : List (Severity × List String) :=
  [(.crash, ["crash", "hang", "backend-server-error", "backend-data-loss",
      "backend-resource-create-missing", "backend-transaction-atomicity",
      "backend-concurrent-update", "backend-concurrent-conservation"]),
    (.leak, ["leak", "wakelock"]),
    (.operability, ["occlusion", "overflow", "detached-indicator", "choice-anomaly",
      "broken-route", "stuck-keyboard", "duplicate-submit", "focus-loss", "accessibility-state",
      "blank-screen", "zoom-reflow", "security", "divergence", "invariant", "contract",
      "rotation", "background-restore", "scroll-round-trip", "safe-area", "permission-walk",
      "zero-contrast", "dead-input", "backend-response-status",
      "backend-accepted-invalid-input", "backend-response-shape",
      "backend-response-selection", "backend-read-only-mutation", "backend-missing-effect",
      "backend-excess-effect", "backend-tenant-isolation", "backend-authored-invariant",
      "backend-query-pagination", "backend-query-pagination-reference",
      "backend-resource-delete-visible", "backend-resource-identity",
      "backend-resource-state", "backend-codec-round-trip", "backend-authorization-matrix",
      "backend-resource-round-trip", "backend-idempotency", "backend-fleet-consistency"]),
    (.jank, ["broken-asset", "jank", "content-bug", "flicker", "visual"]),
    (.unclassified, ["unclassified"])]

/-- `known_oracles`: the map as a table of ids. -/
def knownOracles : List (String × Severity) :=
  oracleRegistry.flatMap fun r => r.2.map fun id => (id, r.1)

/-- `severity_for_oracle`.  An id outside the registry is unclassified. -/
def severityForOracle (id : String) : Severity :=
  ((knownOracles.find? fun r => r.1 = id).map Prod.snd).getD .unclassified

example : severityForOracle "wakelock" = .leak := by decide
example : severityForOracle "no such oracle" = .unclassified := by decide

/-! ## The factors -/

/-- Seconds in which a quiet bucket loses half of its recency. -/
def recencyHalfLifeSecs : ℝ := 24 * 3600

/-- The seconds that count as recent. -/
def frequencyWindowSecs : Int := 24 * 3600

/-- The recent occurrences from which the frequency is full. -/
def frequencySaturation : ℝ := 50

/-- The occurrences from which the blast radius is full. -/
def blastSaturation : ℝ := 500

/-- `Iterator::sum` of `u64` counts. -/
def sumCounts (counts : List TimelineCount) : Nat :=
  (counts.map TimelineCount.count).sum % 2 ^ 64

/-- `blast_factor`, over `ln_1p`. -/
noncomputable def blastFactor (count : Nat) : ℝ :=
  if count = 0 then 0 else saturating (Real.log (1 + count)) (Real.log (1 + blastSaturation))

/-- The window starts at or after an epoch. -/
def startsFrom (cutoff : Int) (c : TimelineCount) : Bool := (parseEpoch c.window).any (cutoff ≤ ·)

/-- `frequency_factor`: 0 without a clock. -/
noncomputable def frequencyFactor (timeline : Timeline) (nowEpoch : Option Int) : ℝ :=
  match nowEpoch with
  | none => 0
  | some now =>
    let recent := sumCounts (timeline.total.filter (startsFrom (now - frequencyWindowSecs)))
    saturating recent frequencySaturation

/-- `trend_factor`: the part of the newer half of the windows. -/
noncomputable def trendFactor (timeline : Timeline) : ℝ :=
  let n := timeline.total.length
  if n < 2 then 0.5
  else
    let mid := n / 2
    let older := sumCounts (timeline.total.take mid)
    let newer := sumCounts (timeline.total.drop mid)
    part newer older

/-- `recency_factor`: 0 when either time does not parse. -/
noncomputable def recencyFactor (lastSeen : Option Rfc3339) (nowEpoch : Option Int) : ℝ :=
  match lastSeen.bind parseEpoch, nowEpoch with
  | some last, some now => halving (now - last : Int) recencyHalfLifeSecs
  | _, _ => 0

/-! ## The score -/

/-- The two flags of the boost. -/
structure Actionability where
  isNew : Bool := false
  isRegressed : Bool := false
deriving DecidableEq, Repr

/-- What a bucket brings to the ranking. -/
structure BucketSignals where
  oracle : Option String
  count : Nat
  timeline : Timeline
  lastSeen : Option Rfc3339
  action : Actionability

/-- A factor as the breakdown shows it. -/
structure FactorShown where
  factor : ℝ
  weight : ℝ

/-- `why`: the breakdown behind a score. -/
structure ImpactWhy where
  severityClass : String
  severity : FactorShown
  blast : FactorShown
  blastCount : Nat
  frequency : FactorShown
  trend : FactorShown
  /-- The trend is above its middle. -/
  spiking : Prop
  recency : FactorShown
  boostedNew : Bool
  boostedRegressed : Bool
  boostTotal : ℝ

/-- `Impact`: the sort key with its explanation. -/
structure Impact where
  score : ℝ
  severity : Severity
  why : ImpactWhy

/-- The severity of the signals: the one of the oracle, if there is one. -/
def severityOf (sig : BucketSignals) : Severity :=
  (sig.oracle.map severityForOracle).getD .unclassified

/-- The boost of the two flags. -/
noncomputable def boostOf (action : Actionability) : ℝ :=
  (if action.isNew then boostNew else 0) + if action.isRegressed then boostRegressed else 0

/-- The five weighted factors. -/
noncomputable def weightedFactors (sig : BucketSignals) (nowEpoch : Option Int) : ℝ :=
  wSeverity * (severityOf sig).weight + wBlast * blastFactor sig.count +
    wFrequency * frequencyFactor sig.timeline nowEpoch + wTrend * trendFactor sig.timeline +
    wRecency * recencyFactor sig.lastSeen nowEpoch

/-- `impact_score`. -/
noncomputable def impactScore (sig : BucketSignals) (now : Rfc3339) : Impact :=
  let severity := severityOf sig
  let nowEpoch := parseEpoch now
  let score := weightedFactors sig nowEpoch + boostOf sig.action
  { score := roundTo 2 score
    severity := severity
    why :=
      { severityClass := severity.asStr
        severity := ⟨roundTo 2 severity.weight, wSeverity⟩
        blast := ⟨roundTo 2 (blastFactor sig.count), wBlast⟩
        blastCount := sig.count
        frequency := ⟨roundTo 2 (frequencyFactor sig.timeline nowEpoch), wFrequency⟩
        trend := ⟨roundTo 2 (trendFactor sig.timeline), wTrend⟩
        spiking := 0.5 < trendFactor sig.timeline
        recency := ⟨roundTo 2 (recencyFactor sig.lastSeen nowEpoch), wRecency⟩
        boostedNew := sig.action.isNew
        boostedRegressed := sig.action.isRegressed
        boostTotal := roundTo 2 (boostOf sig.action) } }

/-! ## The ranges -/

theorem severity_weight_mem (s : Severity) : s.weight ∈ Set.Icc (0.3 : ℝ) 1 := by
  cases s <;> constructor <;> norm_num [Severity.weight]

theorem severity_weight_mem_unit (s : Severity) : s.weight ∈ Set.Icc (0 : ℝ) 1 :=
  Set.Icc_subset_Icc_left (by norm_num) (severity_weight_mem s)

theorem blastFactor_mem (count : Nat) : blastFactor count ∈ Set.Icc (0 : ℝ) 1 := by
  unfold blastFactor
  split
  · exact ⟨le_refl 0, zero_le_one⟩
  · have hcount : 0 ≤ Real.log (1 + count) :=
      Real.log_nonneg (le_add_of_nonneg_right count.cast_nonneg)
    have hcap : 0 ≤ Real.log (1 + blastSaturation) :=
      Real.log_nonneg (by norm_num [blastSaturation])
    exact saturating_mem_Icc hcount hcap

theorem frequencyFactor_mem (timeline : Timeline) (nowEpoch : Option Int) :
    frequencyFactor timeline nowEpoch ∈ Set.Icc (0 : ℝ) 1 := by
  cases nowEpoch with
  | none => exact ⟨le_refl 0, zero_le_one⟩
  | some now => exact saturating_mem_Icc (Nat.cast_nonneg _) (by norm_num [frequencySaturation])

theorem trendFactor_mem (timeline : Timeline) : trendFactor timeline ∈ Set.Icc (0 : ℝ) 1 := by
  unfold trendFactor
  simp only
  split
  · constructor <;> norm_num
  · exact part_mem_Icc (Nat.cast_nonneg _) (Nat.cast_nonneg _)

theorem recencyFactor_mem (lastSeen : Option Rfc3339) (nowEpoch : Option Int) :
    recencyFactor lastSeen nowEpoch ∈ Set.Icc (0 : ℝ) 1 := by
  unfold recencyFactor
  split
  · exact halving_mem_Icc _ (by norm_num [recencyHalfLifeSecs])
  · exact ⟨le_refl 0, zero_le_one⟩

/-- Every factor of the score of signals at a time is in its documented range. -/
structure FactorsInRange (sig : BucketSignals) (now : Rfc3339) : Prop where
  severity : (severityOf sig).weight ∈ Set.Icc (0 : ℝ) 1
  blast : blastFactor sig.count ∈ Set.Icc (0 : ℝ) 1
  frequency : frequencyFactor sig.timeline (parseEpoch now) ∈ Set.Icc (0 : ℝ) 1
  trend : trendFactor sig.timeline ∈ Set.Icc (0 : ℝ) 1
  recency : recencyFactor sig.lastSeen (parseEpoch now) ∈ Set.Icc (0 : ℝ) 1

theorem factors_inRange (sig : BucketSignals) (now : Rfc3339) : FactorsInRange sig now where
  severity := severity_weight_mem_unit _
  blast := blastFactor_mem _
  frequency := frequencyFactor_mem _ _
  trend := trendFactor_mem _
  recency := recencyFactor_mem _ _

/-- The factors weigh at least the least severity and at most the weights. -/
theorem weightedFactors_mem (sig : BucketSignals) (now : Rfc3339) :
    weightedFactors sig (parseEpoch now) ∈ Set.Icc (12 : ℝ) 115 := by
  obtain ⟨hsevLow, hsevHigh⟩ := severity_weight_mem (severityOf sig)
  obtain ⟨-, ⟨hblastLow, hblastHigh⟩, ⟨hfreqLow, hfreqHigh⟩, ⟨htrendLow, htrendHigh⟩,
    ⟨hrecLow, hrecHigh⟩⟩ := factors_inRange sig now
  unfold weightedFactors wSeverity wBlast wFrequency wTrend wRecency
  constructor <;> linarith

/-! ## The boost -/

theorem le_boostOf {action : Actionability} (h : action.isRegressed = true) :
    120 ≤ boostOf action := by
  rw [boostOf, if_pos h, boostRegressed, boostNew]
  split <;> norm_num

theorem boostOf_le {action : Actionability} (h : action.isRegressed = false) :
    boostOf action ≤ 12 := by
  rw [boostOf, h, boostNew]
  split <;> norm_num

/-- A regression scores at least 132. -/
theorem regressed_score {sig : BucketSignals} (h : sig.action.isRegressed = true)
    (now : Rfc3339) : 132 ≤ (impactScore sig now).score := by
  have hfactors := (weightedFactors_mem sig now).1
  have hboost := le_boostOf h
  have hsum : ((132 : ℤ) : ℝ) ≤ weightedFactors sig (parseEpoch now) + boostOf sig.action := by
    push_cast
    linarith
  exact_mod_cast le_roundTo hsum

/-- Any other bucket scores at most 127. -/
theorem other_score {sig : BucketSignals} (h : sig.action.isRegressed = false) (now : Rfc3339) :
    (impactScore sig now).score ≤ 127 := by
  have hfactors := (weightedFactors_mem sig now).2
  have hboost := boostOf_le h
  have hsum : weightedFactors sig (parseEpoch now) + boostOf sig.action ≤ ((127 : ℤ) : ℝ) := by
    push_cast
    linarith
  exact_mod_cast roundTo_le hsum

/-! ## The list -/

/-- The flags of a bucket: no triage row, and a regressed resolution. -/
def actionability (triage : Option TriageRow) (outcome : Outcome) : Actionability where
  isNew := triage.isNone
  isRegressed := outcome.status = .regressed

/-- The signals the list gathers for a bucket. -/
def signalsOf (cfg : ResolutionConfig) (t : TenantStore) (app : String) (now : Rfc3339)
    (rollup : BucketRollup) : BucketSignals where
  oracle := (rollup.newest.context.get? "oracle").bind Json.asStr
  count := rollup.count
  timeline := timelineWeighted (bucketWindowCounts t app rollup.bucketId) defaultTimelineWindowSecs
  lastSeen := some rollup.lastSeen
  action := actionability (t.bucketTriage.get? (app, rollup.bucketId))
    (listResolution cfg t app rollup.bucketId now)

/-- An item of the list with its sort key. -/
structure RankedItem where
  score : ℝ
  bucketId : String
  resolution : Outcome

/-- The item of a bucket. -/
noncomputable def rankedItem (cfg : ResolutionConfig) (t : TenantStore) (app : String)
    (now : Rfc3339) (rollup : BucketRollup) : RankedItem where
  score := (impactScore (signalsOf cfg t app now rollup) now).score
  bucketId := rollup.bucketId
  resolution := listResolution cfg t app rollup.bucketId now

/-- The order of the list: the score descending, then the bucket id. -/
def RankedItem.before (a b : RankedItem) : Prop :=
  b.score < a.score ∨ a.score = b.score ∧ a.bucketId ≤ b.bucketId

open Classical in
/-- The two sorted parts of `bucket_list_for_tenant`.  `confirmed` says of which
buckets a replay result is `reproduced`; a capture of a tester that is not is
pending. -/
noncomputable def rankedBuckets (cfg : ResolutionConfig) (t : TenantStore) (app : String)
    (now : Rfc3339) (confirmed : String → Bool) : List RankedItem × List RankedItem :=
  let pending (rollup : BucketRollup) : Bool :=
    isTesterCapture rollup.newest && !confirmed rollup.bucketId
  let sorted (rollups : List BucketRollup) : List RankedItem :=
    (rollups.map (rankedItem cfg t app now)).insertionSort RankedItem.before
  (sorted ((bucketRollups t app).filter fun r => !pending r),
    sorted ((bucketRollups t app).filter pending))

instance : Std.Total RankedItem.before where
  total a b := by
    rcases lt_trichotomy a.score b.score with h | h | h
    · exact Or.inr (Or.inl h)
    · rcases String.le_total a.bucketId b.bucketId with hid | hid
      · exact Or.inl (Or.inr ⟨h, hid⟩)
      · exact Or.inr (Or.inr ⟨h.symm, hid⟩)
    · exact Or.inl (Or.inl h)

instance : IsTrans RankedItem RankedItem.before where
  trans a b c := by
    rintro (hab | ⟨hab, hidab⟩) (hbc | ⟨hbc, hidbc⟩)
    · exact Or.inl (hbc.trans hab)
    · exact Or.inl (hbc ▸ hab)
    · exact Or.inl (hab ▸ hbc)
    · exact Or.inr ⟨hab.trans hbc, String.le_trans hidab hidbc⟩

/-- No item of a list stands behind an item that it outranks by being regressed. -/
def RegressionsFirst (items : List RankedItem) : Prop :=
  items.Pairwise fun a b => b.resolution.status = .regressed → a.resolution.status = .regressed

section Ranking

variable (cfg : ResolutionConfig) (t : TenantStore) (app : String) (now : Rfc3339)

theorem isRegressed_signalsOf (rollup : BucketRollup) :
    (signalsOf cfg t app now rollup).action.isRegressed =
      decide ((rankedItem cfg t app now rollup).resolution.status = .regressed) := rfl

/-- Items of the list whose order is that of the scores have the regressions first. -/
theorem regressed_of_before {r r' : BucketRollup}
    (hbefore : (rankedItem cfg t app now r).before (rankedItem cfg t app now r'))
    (h : (rankedItem cfg t app now r').resolution.status = .regressed) :
    (rankedItem cfg t app now r).resolution.status = .regressed := by
  have hhigh : 132 ≤ (impactScore (signalsOf cfg t app now r') now).score :=
    regressed_score (decide_eq_true h) now
  by_contra hother
  have hlow : (impactScore (signalsOf cfg t app now r) now).score ≤ 127 :=
    other_score (decide_eq_false hother) now
  have hless : (rankedItem cfg t app now r).score < (rankedItem cfg t app now r').score := by
    change (impactScore _ now).score < (impactScore _ now).score
    linarith
  rcases hbefore with hgreater | ⟨hequal, -⟩
  · exact absurd hgreater (not_lt.mpr hless.le)
  · exact absurd hequal hless.ne

open Classical in
theorem regressionsFirst_sorted (rollups : List BucketRollup) :
    RegressionsFirst
      ((rollups.map (rankedItem cfg t app now)).insertionSort RankedItem.before) := by
  have hitem : ∀ a ∈ (rollups.map (rankedItem cfg t app now)).insertionSort RankedItem.before,
      ∃ r, rankedItem cfg t app now r = a := by
    intro a ha
    obtain ⟨r, -, hr⟩ := List.mem_map.mp ((List.mem_insertionSort _).mp ha)
    exact ⟨r, hr⟩
  refine (List.pairwise_insertionSort RankedItem.before _).imp_of_mem ?_
  intro a b ha hb hbefore
  obtain ⟨r, rfl⟩ := hitem a ha
  obtain ⟨r', rfl⟩ := hitem b hb
  exact regressed_of_before cfg t app now hbefore

end Ranking

/-- A regressed bucket scores above every other one, whatever else is known of the two,
and so stands before it in the list.  Every factor is in its range. -/
theorem regressed_outranks :
    (∀ sig now, FactorsInRange sig now) ∧
    (∀ (a b : BucketSignals) (now now' : Rfc3339), a.action.isRegressed = true →
      b.action.isRegressed = false → (impactScore b now').score < (impactScore a now).score) ∧
    ∀ cfg t app now confirmed, RegressionsFirst (rankedBuckets cfg t app now confirmed).1 ∧
      RegressionsFirst (rankedBuckets cfg t app now confirmed).2 := by
  refine ⟨factors_inRange, ?_, ?_⟩
  · intro a b now now' ha hb
    have hhigh := regressed_score ha now
    have hlow := other_score hb now'
    linarith
  · intro cfg t app now confirmed
    exact ⟨regressionsFirst_sorted cfg t app now _, regressionsFirst_sorted cfg t app now _⟩

/-- A regression seen once long ago is above a new crash seen by everyone just now. -/
theorem regressed_outranks_new_crash :
    (impactScore ⟨some "crash", 1000000, ⟨[], [⟨.instant 0, 1000000⟩]⟩, some (.instant 0),
        { isNew := true }⟩ (.instant 0)).score <
      (impactScore ⟨some "visual", 1, ⟨[], []⟩, none, { isRegressed := true }⟩
        (.instant 0)).score :=
  regressed_outranks.2.1 _ _ _ _ rfl rfl

/-- The factors of the breakdown are in the range of the factors they show. -/
theorem why_inRange (sig : BucketSignals) (now : Rfc3339) :
    ∀ shown ∈ [(impactScore sig now).why.severity, (impactScore sig now).why.blast,
      (impactScore sig now).why.frequency, (impactScore sig now).why.trend,
      (impactScore sig now).why.recency], shown.factor ∈ Set.Icc (0 : ℝ) 1 := by
  intro shown hshown
  simp only [List.mem_cons, List.not_mem_nil, or_false] at hshown
  rcases hshown with rfl | rfl | rfl | rfl | rfl
  · exact roundTo_mem_Icc 2 (factors_inRange sig now).severity
  · exact roundTo_mem_Icc 2 (factors_inRange sig now).blast
  · exact roundTo_mem_Icc 2 (factors_inRange sig now).frequency
  · exact roundTo_mem_Icc 2 (factors_inRange sig now).trend
  · exact roundTo_mem_Icc 2 (factors_inRange sig now).recency

end ReproitCloud
