import ReproitCloud.Triage.Reads

/-!
# When the computed verdict is the stored truth

The verdict is computed from what was read, and reading loses information in two
ways.

**The cap.**  `errorsForBucket` keeps the oldest rows.  A bucket with more rows
than the cap hides the newest ones, which are where a regression shows.
`computeForBucket_regressed_iff` says when the sweep still sees it: whenever some
row of the bucket is post-fix, one of the oldest `cap` rows is
(`CapKeepsRecurrence`).

**Failed reads.**  The detail and timeline endpoints take a failed read as an
empty one.  An empty occurrence stream has no recurrence, and an empty traffic
table makes the error stream stand in for it.  `resolved_only_if_iff` says for
which failures an endpoint can report a bucket resolved that is not: the
*misled* cases, `DetailMisled` and `TimelineMisled`.

The evaluation works on a bug stream and on `Evidence`, which is the traffic and
the error stream it orders the builds by.  `Opens` is that the fix is seen there
and both gates are open, `SeesRecurrence` that the bug recurs.
-/

namespace ReproitCloud

open Lib

/-! ## The evidence of an evaluation -/

/-- What an evaluation orders the builds by and measures traffic on. -/
structure Evidence where
  weighted : List (Occurrence × Nat)
  recent : List Occurrence

/-- The evidence as a request with these failures reads it. -/
def evidenceOf (cfg : ResolutionConfig) (t : TenantStore) (fails : ReadFailures) (app : String) :
    Evidence where
  weighted := weightedTraffic (readOr fails.buildTraffic [] (buildTrafficOf t app))
  recent :=
    occurrencesOf (readOr fails.recentErrors [] (recentErrorsWithMeta t app cfg.baselineSample))

namespace Evidence

/-- The first sight of each build. -/
def firstSeen (e : Evidence) : FirstSeen := firstSeenByBuild (appStreamOf e.weighted e.recent)

/-- The fix is seen and both gates are open. -/
def Opens (e : Evidence) (fixed : String) (now : Rfc3339) (th : Thresholds) : Prop :=
  ∃ fixEpoch, e.firstSeen.get? fixed = some fixEpoch ∧
    Gates fixEpoch (trafficAfter e.weighted e.recent fixed) now th

/-- The fix is seen and the bug recurs on it. -/
def SeesRecurrence (e : Evidence) (fixed : String) (bug : List Occurrence) : Prop :=
  ∃ fixEpoch, e.firstSeen.get? fixed = some fixEpoch ∧ Recurs bug e.firstSeen fixed fixEpoch

theorem evaluateOn_resolved_iff (e : Evidence) (cfg : ResolutionConfig) (bug : List Occurrence)
    (anchor : Option String) (now : Rfc3339) :
    (evaluateOn cfg bug e.weighted e.recent anchor now).status = .resolved ↔
      ∃ fixed, anchor = some fixed ∧ e.Opens fixed now cfg.thresholds ∧
        ¬ e.SeesRecurrence fixed bug := by
  rw [evaluateOn, evaluate_resolved_iff]
  constructor
  · rintro ⟨fixed, fixEpoch, rfl, hseen, hrec, hgates⟩
    refine ⟨fixed, rfl, ⟨fixEpoch, hseen, hgates⟩, ?_⟩
    rintro ⟨fixEpoch', hseen', hrec'⟩
    rw [firstSeen, hseen, Option.some.injEq] at hseen'
    subst hseen'
    exact hrec hrec'
  · rintro ⟨fixed, rfl, ⟨fixEpoch, hseen, hgates⟩, hrec⟩
    exact ⟨fixed, fixEpoch, rfl, hseen, fun h => hrec ⟨fixEpoch, hseen, h⟩, hgates⟩

theorem evaluateOn_regressed_iff (e : Evidence) (cfg : ResolutionConfig) (bug : List Occurrence)
    (anchor : Option String) (now : Rfc3339) :
    (evaluateOn cfg bug e.weighted e.recent anchor now).status = .regressed ↔
      ∃ fixed, anchor = some fixed ∧ e.SeesRecurrence fixed bug := by
  rw [evaluateOn, evaluate_regressed_iff]
  constructor
  · rintro ⟨fixed, fixEpoch, rfl, hseen, hrec⟩
    exact ⟨fixed, rfl, fixEpoch, hseen, hrec⟩
  · rintro ⟨fixed, rfl, fixEpoch, hseen, hrec⟩
    exact ⟨fixed, fixEpoch, rfl, hseen, hrec⟩

/-- An empty stream has no recurrence. -/
theorem not_seesRecurrence_nil (e : Evidence) (fixed : String) :
    ¬ e.SeesRecurrence fixed [] := by
  rintro ⟨_, _, o, ho, _⟩
  cases ho

/-- Without traffic and errors no fix is seen. -/
theorem not_opens_of_empty {e : Evidence} {fixed : String} {now : Rfc3339} {th : Thresholds}
    (hw : e.weighted = []) (hr : e.recent = []) : ¬ e.Opens fixed now th := by
  rintro ⟨fixEpoch, hseen, -⟩
  rw [firstSeen, hw, hr] at hseen
  cases hseen

end Evidence

/-! ## The cap -/

section Cap

variable (cfg : ResolutionConfig) (t : TenantStore) (app bucket fixed : String)

/-- The row is a post-fix occurrence, in the order of builds the sweep uses. -/
def RowPostFix (r : ErrorRow) : Prop :=
  (evidenceOf cfg t {} app).SeesRecurrence fixed
    [⟨toRfc3339 r.createdAt, buildVersion r.record⟩]

/-- If any row of the bucket is post-fix, one of the oldest `cap` rows is. -/
def CapKeepsRecurrence : Prop :=
  (∃ r ∈ t.bucketRows app bucket, RowPostFix cfg t app fixed r) →
    ∃ r ∈ (t.bucketRows app bucket).take cfg.baselineSample, RowPostFix cfg t app fixed r

variable {cfg t app bucket fixed}

/-- The rows read recur exactly when one of them is post-fix. -/
theorem seesRecurrence_rows_iff (e : Evidence) (rows : List ErrorRow) :
    e.SeesRecurrence fixed (occurrencesOf (rows.map ErrorRow.withMeta)) ↔
      ∃ r ∈ rows, e.SeesRecurrence fixed [⟨toRfc3339 r.createdAt, buildVersion r.record⟩] := by
  constructor
  · rintro ⟨fixEpoch, hseen, o, ho, hpost⟩
    simp only [occurrencesOf, List.map_map, List.mem_map] at ho
    obtain ⟨r, hr, rfl⟩ := ho
    exact ⟨r, hr, fixEpoch, hseen, _, List.mem_singleton_self _, hpost⟩
  · rintro ⟨r, hr, fixEpoch, hseen, o, ho, hpost⟩
    rw [List.mem_singleton] at ho
    subst ho
    refine ⟨fixEpoch, hseen, _, ?_, hpost⟩
    rw [occurrencesOf, List.map_map, List.mem_map]
    exact ⟨r, hr, rfl⟩

/-- Without failures the sweep evaluates on the rows it reads. -/
theorem computeForBucket_eq (now : Rfc3339) :
    computeForBucket cfg t {} app bucket fixed now =
      some (evaluateOn cfg (occurrencesOf (errorsForBucket t app bucket cfg.baselineSample))
          (evidenceOf cfg t {} app).weighted (evidenceOf cfg t {} app).recent (some fixed) now,
        latestPostFixBuild (occurrencesOf (errorsForBucket t app bucket cfg.baselineSample))
          (evidenceOf cfg t {} app).firstSeen fixed) := by
  simp only [computeForBucket, Bool.and_false, Bool.or_self, Bool.false_eq_true, if_false]
  rfl

/-- The sweep reports a regression exactly when a row it reads is post-fix. -/
theorem computeForBucket_regressed (now : Rfc3339) :
    (∃ o build, computeForBucket cfg t {} app bucket fixed now = some (o, build) ∧
        o.status = .regressed) ↔
      ∃ r ∈ (t.bucketRows app bucket).take cfg.baselineSample, RowPostFix cfg t app fixed r := by
  have hiff := Evidence.evaluateOn_regressed_iff (evidenceOf cfg t {} app) cfg
    (occurrencesOf (errorsForBucket t app bucket cfg.baselineSample)) (some fixed) now
  rw [computeForBucket_eq]
  constructor
  · rintro ⟨o, build, heq, hstatus⟩
    cases heq
    obtain ⟨f, hf, hrec⟩ := hiff.1 hstatus
    cases hf
    exact (seesRecurrence_rows_iff _ _).1 hrec
  · intro h
    exact ⟨_, _, rfl, hiff.2 ⟨fixed, rfl, (seesRecurrence_rows_iff _ _).2 h⟩⟩

/-- The sweep reports regressed exactly for the buckets with a stored post-fix
row, if and only if the cap keeps a recurrence when there is one. -/
theorem computeForBucket_regressed_iff (cfg : ResolutionConfig) (t : TenantStore)
    (app bucket fixed : String) (now : Rfc3339) :
    ((∃ o build, computeForBucket cfg t {} app bucket fixed now = some (o, build) ∧
        o.status = .regressed) ↔
      ∃ r ∈ t.bucketRows app bucket, RowPostFix cfg t app fixed r) ↔
    CapKeepsRecurrence cfg t app bucket fixed := by
  rw [computeForBucket_regressed]
  constructor
  · intro h
    exact h.2
  · intro h
    refine ⟨?_, h⟩
    rintro ⟨r, hr, hpost⟩
    exact ⟨r, List.mem_of_mem_take hr, hpost⟩

/-- A bucket within the cap is read whole. -/
theorem capKeepsRecurrence_of_le (h : (t.bucketRows app bucket).length ≤ cfg.baselineSample) :
    CapKeepsRecurrence cfg t app bucket fixed := by
  intro hrow
  rwa [List.take_of_length_le h]

end Cap

/-! A bucket that filled its cap before the fix hides every later row. -/

section LongHistory

/-- A row of a build, written at an instant. -/
def rowOn (build : String) (moment : Micros) : NewError where
  appId := "shop"
  record := ⟨"crash", "boom", [],
    Table.empty.insertIgnore "build" (.object [("commit", .string build)])⟩
  bucketId := some "bkt_dd250179f692"
  createdAt := moment

/-- `b0` deployed at time zero, `b1` an hour later. -/
def twoBuilds : Table (String × String) BuildTraffic :=
  (Table.empty.insertIgnore ("shop", "b0") ⟨1, 0, 0⟩).insertIgnore ("shop", "b1")
    ⟨1, microsPerHour, microsPerHour⟩

/-- `cap` rows of `b0` at time zero, then one row of `b1` when it was deployed. -/
def longHistory (cap : Nat) : TenantStore :=
  { TenantStore.empty with
    errors := ErrorTable.empty.insert
      (List.replicate cap (rowOn "b0" 0) ++ [rowOn "b1" microsPerHour])
    buildTraffic := twoBuilds }

theorem firstSeen_longHistory (cfg : ResolutionConfig) (cap : Nat) :
    (evidenceOf cfg (longHistory cap) {} "shop").firstSeen =
      firstSeenByBuild [⟨toRfc3339 0, some "b0"⟩, ⟨toRfc3339 microsPerHour, some "b1"⟩] := by
  have htraffic : buildTrafficOf (longHistory cap) "shop" =
      [("b0", 1, toRfc3339 0), ("b1", 1, toRfc3339 microsPerHour)] := by
    change buildTrafficOf { TenantStore.empty with buildTraffic := twoBuilds } "shop" = _
    decide
  simp only [Evidence.firstSeen, evidenceOf, readOr, Bool.false_eq_true, if_false, htraffic]
  rfl

theorem bucketRows_longHistory (cap : Nat) :
    (longHistory cap).bucketRows "shop" "bkt_dd250179f692" =
      numbered 1 (List.replicate cap (rowOn "b0" 0)) ++
        numbered (1 + cap) [rowOn "b1" microsPerHour] := by
  have hrows : (longHistory cap).errors.rows =
      numbered 1 (List.replicate cap (rowOn "b0" 0)) ++
        numbered (1 + cap) [rowOn "b1" microsPerHour] := by
    have happend := numbered_append 1 (List.replicate cap (rowOn "b0" 0)) [rowOn "b1" microsPerHour]
    rw [List.length_replicate] at happend
    exact happend
  rw [TenantStore.bucketRows, hrows, List.filter_eq_self]
  intro r hr
  rcases List.mem_append.1 hr with hr | hr
  · obtain ⟨e, he, i, rfl⟩ := exists_of_mem_numbered hr
    rw [List.eq_of_mem_replicate he]
    rfl
  · obtain ⟨e, he, i, rfl⟩ := exists_of_mem_numbered hr
    rw [List.mem_singleton.1 he]
    rfl

/-- The order of the two builds: `b1` an hour after `b0`. -/
def twoBuildsSeen : FirstSeen :=
  firstSeenByBuild [⟨toRfc3339 0, some "b0"⟩, ⟨toRfc3339 microsPerHour, some "b1"⟩]

/-- A row is post-fix there exactly when it recurs on `b1` after its hour. -/
theorem rowPostFix_longHistory (cfg : ResolutionConfig) (cap : Nat) (r : ErrorRow) :
    RowPostFix cfg (longHistory cap) "shop" "b1" r ↔
      Recurs [⟨toRfc3339 r.createdAt, buildVersion r.record⟩] twoBuildsSeen "b1" 3600 := by
  have hseen : twoBuildsSeen.get? "b1" = some 3600 := by decide
  rw [RowPostFix, Evidence.SeesRecurrence, firstSeen_longHistory]
  constructor
  · rintro ⟨fixEpoch, hfix, hrec⟩
    rw [twoBuildsSeen] at hseen
    rw [hseen, Option.some.injEq] at hfix
    subst hfix
    exact hrec
  · intro hrec
    exact ⟨3600, hseen, hrec⟩

/-- Whatever the cap is, a bucket can hide its regression behind it. -/
theorem not_capKeepsRecurrence_longHistory (cfg : ResolutionConfig) :
    ¬ CapKeepsRecurrence cfg (longHistory cfg.baselineSample) "shop" "bkt_dd250179f692" "b1" := by
  intro hkeeps
  have hnew : (rowOn "b1" microsPerHour).row (1 + cfg.baselineSample) ∈
      (longHistory cfg.baselineSample).bucketRows "shop" "bkt_dd250179f692" := by
    rw [bucketRows_longHistory]
    exact List.mem_append_right _ (List.mem_singleton_self _)
  have hpost : RowPostFix cfg (longHistory cfg.baselineSample) "shop" "b1"
      ((rowOn "b1" microsPerHour).row (1 + cfg.baselineSample)) := by
    rw [rowPostFix_longHistory]
    change Recurs [⟨toRfc3339 microsPerHour, buildVersion (rowOn "b1" 0).record⟩] _ _ _
    decide
  obtain ⟨r, hr, hold⟩ := hkeeps ⟨_, hnew, hpost⟩
  rw [bucketRows_longHistory, List.take_left' (by rw [length_numbered, List.length_replicate])] at hr
  obtain ⟨e, he, i, rfl⟩ := exists_of_mem_numbered hr
  rw [List.eq_of_mem_replicate he, rowPostFix_longHistory] at hold
  revert hold
  change ¬ Recurs [⟨toRfc3339 0, buildVersion (rowOn "b0" 0).record⟩] _ _ _
  decide

/-- At the default cap, 20000 old rows hide a regression from the sweep. -/
theorem computeForBucket_misses_regression :
    ¬ ∀ (t : TenantStore) (app bucket fixed : String) (now : Rfc3339),
      (evidenceOf {} t {} app).firstSeen.get? fixed ≠ none →
      ((∃ o build, computeForBucket {} t {} app bucket fixed now = some (o, build) ∧
          o.status = .regressed) ↔
        ∃ r ∈ t.bucketRows app bucket, RowPostFix {} t app fixed r) := by
  intro hall
  apply not_capKeepsRecurrence_longHistory {}
  rw [← computeForBucket_regressed_iff _ _ _ _ _ (toRfc3339 0)]
  apply hall
  rw [firstSeen_longHistory]
  decide

end LongHistory

/-! ## Failed reads -/

section Failures

variable {cfg : ResolutionConfig} {t : TenantStore} {fails : ReadFailures}
variable {app bucket : String} {now : Rfc3339}

/-- The rows of the bucket as the endpoints read them. -/
def rowsRead (cfg : ResolutionConfig) (t : TenantStore) (app bucket : String) : List Occurrence :=
  occurrencesOf (errorsForBucket t app bucket cfg.baselineSample)

/-- The request gets as far as evaluating the bucket against a fix. -/
def Evaluates (cfg : ResolutionConfig) (t : TenantStore) (fails : ReadFailures)
    (app bucket fixed : String) : Prop :=
  fails.occurrences = false ∧ fails.triage = false ∧ anchorOf t app bucket = some fixed ∧
    errorsForBucket t app bucket cfg.baselineSample ≠ []

/-- The error stream stands in for traffic that is there but was not read. -/
def FallsBack (t : TenantStore) (fails : ReadFailures) (app : String) : Prop :=
  fails.buildTraffic = true ∧ fails.recentErrors = false ∧ buildTrafficOf t app ≠ []

/-- What the stored rows say: the fix is not seen, a gate is shut or the bug recurs. -/
def NotResolved (cfg : ResolutionConfig) (t : TenantStore) (app bucket fixed : String)
    (now : Rfc3339) : Prop :=
  ¬ (evidenceOf cfg t {} app).Opens fixed now cfg.thresholds ∨
    (evidenceOf cfg t {} app).SeesRecurrence fixed (rowsRead cfg t app bucket)

/-- The detail is misled: on the error stream in the place of the traffic the
gates open and no row recurs, while the traffic has it otherwise. -/
def DetailMisled (cfg : ResolutionConfig) (t : TenantStore) (fails : ReadFailures)
    (app bucket : String) (now : Rfc3339) : Prop :=
  ∃ fixed, Evaluates cfg t fails app bucket fixed ∧ FallsBack t fails app ∧
    (evidenceOf cfg t fails app).Opens fixed now cfg.thresholds ∧
    ¬ (evidenceOf cfg t fails app).SeesRecurrence fixed (rowsRead cfg t app bucket) ∧
    NotResolved cfg t app bucket fixed now

/-- The timeline is misled as the detail is, and when its second read of the rows
fails: then no row is there to recur. -/
def TimelineMisled (cfg : ResolutionConfig) (t : TenantStore) (fails : ReadFailures)
    (app bucket : String) (now : Rfc3339) : Prop :=
  ∃ fixed, Evaluates cfg t fails app bucket fixed ∧
    (fails.occurrencesAgain = true ∨ FallsBack t fails app) ∧
    (evidenceOf cfg t fails app).Opens fixed now cfg.thresholds ∧
    (fails.occurrencesAgain = true ∨
      ¬ (evidenceOf cfg t fails app).SeesRecurrence fixed (rowsRead cfg t app bucket)) ∧
    NotResolved cfg t app bucket fixed now

/-- Evidence that opens the gates is the full evidence, as far as an evaluation
can tell, unless the error stream stood in for the traffic. -/
theorem evidenceOf_alike {fixed : String} {th : Thresholds} (hback : ¬ FallsBack t fails app)
    (hopens : (evidenceOf cfg t fails app).Opens fixed now th) :
    (evidenceOf cfg t fails app).firstSeen = (evidenceOf cfg t {} app).firstSeen ∧
      trafficAfter (evidenceOf cfg t fails app).weighted (evidenceOf cfg t fails app).recent fixed =
        trafficAfter (evidenceOf cfg t {} app).weighted (evidenceOf cfg t {} app).recent fixed := by
  cases htraffic : fails.buildTraffic with
  | true =>
    cases herrors : fails.recentErrors with
    | true =>
      refine absurd hopens (Evidence.not_opens_of_empty ?_ ?_)
      · rw [evidenceOf, htraffic]
        rfl
      · rw [evidenceOf, herrors]
        rfl
    | false =>
      -- the table has nothing for the app, so the failed read lost nothing
      have hnil : buildTrafficOf t app = [] := by
        by_contra hne
        exact hback ⟨htraffic, herrors, hne⟩
      have heq : evidenceOf cfg t fails app = evidenceOf cfg t {} app := by
        simp only [evidenceOf, htraffic, herrors, hnil, readOr, ite_self]
      exact ⟨by rw [heq], by rw [heq]⟩
  | false =>
    cases herrors : fails.recentErrors with
    | false =>
      have heq : evidenceOf cfg t fails app = evidenceOf cfg t {} app := by
        simp only [evidenceOf, htraffic, herrors]
      exact ⟨by rw [heq], by rw [heq]⟩
    | true =>
      cases hrows : buildTrafficOf t app with
      | nil =>
        refine absurd hopens (Evidence.not_opens_of_empty ?_ ?_)
        · rw [evidenceOf, htraffic, hrows]
          rfl
        · rw [evidenceOf, herrors]
          rfl
      | cons r rs =>
        -- with traffic read, the error stream is not looked at
        simp only [Evidence.firstSeen, evidenceOf, htraffic, hrows]
        exact ⟨rfl, rfl⟩

theorem Evidence.opens_of_alike {e e' : Evidence} {fixed : String} {th : Thresholds}
    (hseen : e.firstSeen = e'.firstSeen)
    (htraffic : trafficAfter e.weighted e.recent fixed = trafficAfter e'.weighted e'.recent fixed)
    (h : e.Opens fixed now th) : e'.Opens fixed now th := by
  obtain ⟨fixEpoch, hfix, hgates⟩ := h
  rw [hseen] at hfix
  rw [htraffic] at hgates
  exact ⟨fixEpoch, hfix, hgates⟩

theorem Evidence.seesRecurrence_of_alike {e e' : Evidence} {fixed : String} {bug : List Occurrence}
    (hseen : e.firstSeen = e'.firstSeen) (h : e.SeesRecurrence fixed bug) :
    e'.SeesRecurrence fixed bug := by
  obtain ⟨fixEpoch, hfix, hrec⟩ := h
  rw [hseen] at hfix hrec
  exact ⟨fixEpoch, hfix, hrec⟩

/-- What both endpoints answer, for the rows their evaluation works on. -/
def answerOn (cfg : ResolutionConfig) (t : TenantStore) (fails : ReadFailures)
    (app bucket : String) (now : Rfc3339) (bug : List Occurrence) : BucketAnswer :=
  if fails.occurrences then .internalError
  else if (errorsForBucket t app bucket cfg.baselineSample).isEmpty then .notFound
  else .found (computeResolutionForOccurrences cfg t fails app
    (readOr fails.triage none (anchorOf t app bucket)) bug now)

theorem getBucketDetail_eq :
    getBucketDetail cfg t fails app bucket now =
      answerOn cfg t fails app bucket now (rowsRead cfg t app bucket) := rfl

theorem getBucketTimeline_eq :
    getBucketTimeline cfg t fails app bucket now =
      answerOn cfg t fails app bucket now
        (if fails.occurrencesAgain then [] else rowsRead cfg t app bucket) := by
  simp only [getBucketTimeline, computeResolution, readOr]
  cases fails.occurrencesAgain <;> rfl

/-- An endpoint reports resolved exactly when it evaluates, its evidence opens the
gates and the rows it works on do not recur. -/
theorem answerOn_resolved_iff {bug : List Occurrence} :
    (answerOn cfg t fails app bucket now bug).status = some .resolved ↔
      ∃ fixed, Evaluates cfg t fails app bucket fixed ∧
        (evidenceOf cfg t fails app).Opens fixed now cfg.thresholds ∧
        ¬ (evidenceOf cfg t fails app).SeesRecurrence fixed bug := by
  have hiff := (evidenceOf cfg t fails app).evaluateOn_resolved_iff cfg bug
    (readOr fails.triage none (anchorOf t app bucket)) now
  simp only [answerOn, Evaluates]
  cases fails.occurrences with
  | true => simp [BucketAnswer.status]
  | false =>
    cases hrows : errorsForBucket t app bucket cfg.baselineSample with
    | nil => simp [BucketAnswer.status]
    | cons r rs =>
      simp only [Bool.false_eq_true, if_false, List.isEmpty_cons, BucketAnswer.status,
        Option.some.injEq]
      refine hiff.trans ?_
      cases fails.triage <;> simp [readOr]

/-- An endpoint that works on `bug` reports resolved only where it is true, unless
it evaluates on evidence and rows that say resolved and the stored ones do not. -/
theorem answerOn_resolved_only_if {bug : List Occurrence} :
    ((answerOn cfg t fails app bucket now bug).status = some .resolved →
        (getBucketDetail cfg t {} app bucket now).status = some .resolved) ↔
      ¬ ∃ fixed, Evaluates cfg t fails app bucket fixed ∧
        (evidenceOf cfg t fails app).Opens fixed now cfg.thresholds ∧
        ¬ (evidenceOf cfg t fails app).SeesRecurrence fixed bug ∧
        NotResolved cfg t app bucket fixed now := by
  rw [getBucketDetail_eq, answerOn_resolved_iff, answerOn_resolved_iff]
  constructor
  · rintro honly ⟨fixed, heval, hopens, hrec, hnot⟩
    obtain ⟨fixed', ⟨-, -, hanchor, -⟩, hopens', hrec'⟩ := honly ⟨fixed, heval, hopens, hrec⟩
    rw [heval.2.2.1, Option.some.injEq] at hanchor
    subst hanchor
    rcases hnot with hnot | hnot
    · exact hnot hopens'
    · exact hrec' hnot
  · rintro hnot ⟨fixed, heval, hopens, hrec⟩
    refine ⟨fixed, ⟨rfl, rfl, heval.2.2⟩, ?_, ?_⟩
    · by_contra hshut
      exact hnot ⟨fixed, heval, hopens, hrec, .inl hshut⟩
    · intro hrec'
      exact hnot ⟨fixed, heval, hopens, hrec, .inr hrec'⟩

theorem timeline_status_full :
    (getBucketTimeline cfg t {} app bucket now).status =
      (getBucketDetail cfg t {} app bucket now).status := rfl

theorem detail_resolved_only_if :
    ((getBucketDetail cfg t fails app bucket now).status = some .resolved →
        (getBucketDetail cfg t {} app bucket now).status = some .resolved) ↔
      ¬ DetailMisled cfg t fails app bucket now := by
  refine Iff.trans answerOn_resolved_only_if (not_congr ?_)
  constructor
  · rintro ⟨fixed, heval, hopens, hrec, hnot⟩
    refine ⟨fixed, heval, ?_, hopens, hrec, hnot⟩
    by_contra hback
    obtain ⟨hseen, htraffic⟩ := evidenceOf_alike hback hopens
    rcases hnot with hnot | hnot
    · exact hnot (Evidence.opens_of_alike hseen htraffic hopens)
    · exact hrec (Evidence.seesRecurrence_of_alike hseen.symm hnot)
  · rintro ⟨fixed, heval, -, hrest⟩
    exact ⟨fixed, heval, hrest⟩

theorem timeline_resolved_only_if :
    ((getBucketTimeline cfg t fails app bucket now).status = some .resolved →
        (getBucketTimeline cfg t {} app bucket now).status = some .resolved) ↔
      ¬ TimelineMisled cfg t fails app bucket now := by
  rw [timeline_status_full, getBucketTimeline_eq]
  cases hagain : fails.occurrencesAgain with
  | true =>
    -- the evaluation works on no row at all
    rw [if_pos rfl, answerOn_resolved_only_if]
    simp only [TimelineMisled, hagain, true_or, true_and, Evidence.not_seesRecurrence_nil,
      not_false_eq_true]
  | false =>
    have hmisled : TimelineMisled cfg t fails app bucket now ↔
        DetailMisled cfg t fails app bucket now := by
      simp only [TimelineMisled, DetailMisled, hagain, Bool.false_eq_true, false_or]
    rw [hmisled, if_neg Bool.false_ne_true]
    exact detail_resolved_only_if

end Failures

/-- Both endpoints report resolved only where the stored rows have it so, exactly
when the failed reads mislead neither. -/
theorem resolved_only_if_iff (cfg : ResolutionConfig) (t : TenantStore) (fails : ReadFailures)
    (app bucket : String) (now : Rfc3339) :
    (((getBucketDetail cfg t fails app bucket now).status = some .resolved →
        (getBucketDetail cfg t {} app bucket now).status = some .resolved) ∧
      ((getBucketTimeline cfg t fails app bucket now).status = some .resolved →
        (getBucketTimeline cfg t {} app bucket now).status = some .resolved)) ↔
    ¬ DetailMisled cfg t fails app bucket now ∧ ¬ TimelineMisled cfg t fails app bucket now :=
  and_congr detail_resolved_only_if timeline_resolved_only_if

/-- Without a failure of the second read, and without a fallback, nothing misleads. -/
theorem not_timelineMisled {cfg : ResolutionConfig} {t : TenantStore} {fails : ReadFailures}
    {app bucket : String} {now : Rfc3339} (hagain : fails.occurrencesAgain = false)
    (hback : ¬ FallsBack t fails app) : ¬ TimelineMisled cfg t fails app bucket now := by
  rintro ⟨fixed, -, hfails, -⟩
  rcases hfails with hfails | hfails
  · rw [hagain] at hfails
    cases hfails
  · exact hback hfails

/-! One row on the fixed build, sixty batches of it and four quiet days: the stored
truth is regressed, and the timeline that loses its second read says resolved. -/

/-- `b1` is the fix; a row recurred on it. -/
def recurredOnFix : TenantStore :=
  { TenantStore.empty with
    errors := ErrorTable.empty.insert [rowOn "b0" 0, rowOn "b1" microsPerHour]
    buildTraffic := (Table.empty.insertIgnore ("shop", "b0") ⟨1, 0, 0⟩).insertIgnore ("shop", "b1")
      ⟨60, microsPerHour, microsPerHour⟩
    bucketTriage := Table.empty.insertIgnore ("shop", "bkt_dd250179f692")
      { status := "fixed", fixedInBuild := some "b1" } }

theorem timeline_reports_unread_as_resolved :
    ¬ ∀ (cfg : ResolutionConfig) (t : TenantStore) (fails : ReadFailures) (app bucket : String)
        (now : Rfc3339),
      ((getBucketDetail cfg t fails app bucket now).status = some .resolved →
        (getBucketDetail cfg t {} app bucket now).status = some .resolved) ∧
      ((getBucketTimeline cfg t fails app bucket now).status = some .resolved →
        (getBucketTimeline cfg t {} app bucket now).status = some .resolved) := by
  intro hall
  have htimeline := (hall {} recurredOnFix { occurrencesAgain := true } "shop" "bkt_dd250179f692"
    (toRfc3339 (97 * microsPerHour))).2
  revert htimeline
  decide

end ReproitCloud
