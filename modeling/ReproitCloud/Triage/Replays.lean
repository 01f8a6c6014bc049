import ReproitCloud.Http.Request
import ReproitCloud.Triage.Sweep

/-!
# Replay results and the fix anchor

A replay result says how often a bug was replayed and how often it came back.  One that
verifies a fix moves the bucket to `fixed`, unless a human has called it `wontfix`, and
gives it the build that the result names as its anchor.

The counts are read as integers of 64 bits and narrowed to 32 bits, and a count that is
not there is zero.  `verified_fix_genuine_iff` says which bodies pass for a verified fix
without being one.

The anchor that a bucket has is kept, except where its stored resolution is `regressed`:
there it is replaced by the build of the result, also when the result names none.
`fix_claims_kept` is about runs without such a result.
-/

namespace ReproitCloud

open Lib

/-! ## What a result says -/

/-- `Value::as_i64`: an integer that fits. -/
def Json.asI64 : Json → Option Int
  | .number (.int n) => if -2 ^ 63 ≤ n ∧ n < 2 ^ 63 then some n else none
  | _ => none

/-- `as i32`: the low bits, read with a sign. -/
def asI32 (n : Int) : Int := n.bmod (2 ^ 32)

/-- A count of a body, if it is an integer that fits. -/
def countOf (body : Json) (key : String) : Option Int := (body.get key).bind Json.asI64

/-- `REPLAY_STATUSES`. -/
def replayStatuses : List String := ["reproduced", "not_reproduced", "stale", "flaky"]

def replayStatus (body : Json) : String := ((body.get "status").bind Json.asStr).getD ""

def replayRuns (body : Json) : Int := asI32 ((countOf body "runs").getD 0)

def replayFailures (body : Json) : Int := asI32 ((countOf body "failures").getD 0)

/-- `fixedInBuild`, trimmed, and none when nothing is left. -/
def namedBuild (body : Json) : Option String :=
  (((body.get "fixedInBuild").bind Json.asStr).map fun s => String.ofList (trim s.toList)).filter
    (· ≠ "")

/-- `is_verified_fix`. -/
def isVerifiedFix (status : String) (runs failures : Int) : Bool :=
  status = "not_reproduced" && 3 ≤ runs && failures = 0

/-- What the handler takes for a verified fix. -/
def verifiesFix (body : Json) : Bool :=
  isVerifiedFix (replayStatus body) (replayRuns body) (replayFailures body)

/-! ## The handler -/

/-- `add_replay_result`. -/
def addReplayResult (t : TenantStore) (app bucket : String) : TenantStore :=
  { t with replayResults := t.replayResults ++ [⟨app, bucket⟩] }

/-- `post_replay_results`, to the reply.  `recorded` and `advanced` say how the two writes
end, and `id` is the id of the result. -/
def postReplayResults (t : TenantStore) (app bucket : String) (body : Json)
    (recorded advanced : CallResult) (id : Int) : TenantStore × Reply :=
  if ¬ replayStatuses.contains (replayStatus body) then
    (t, err 400 "status must be one of [\"reproduced\", \"not_reproduced\", \"stale\", \"flaky\"]")
  else
    let t := if recorded = .failed then t else addReplayResult t app bucket
    if recorded ≠ .answered then (t, err 500 "internal error")
    else
      -- A failure to advance the bucket is logged, and the result stands.
      (if verifiesFix body ∧ advanced ≠ .failed then
          advanceTriageUnlessWontfix t app bucket "fixed" (namedBuild body)
        else t,
        ⟨200, .object [("ok", .bool true), ("id", .number (.int id))]⟩)

section Anchors

variable {t t' : TenantStore} {app bucket app' bucket' : String} {body : Json}
  {recorded advanced : CallResult} {id : Int}

/-- Beside the row of the result, a post that does not come to advance the bucket changes
nothing. -/
theorem postReplayResults_cases (t : TenantStore) (app bucket : String) (body : Json)
    (recorded advanced : CallResult) (id : Int) : ∃ results : List BucketScoped,
    (¬ (verifiesFix body = true ∧ recorded = .answered ∧ advanced ≠ .failed) ∧
      (postReplayResults t app bucket body recorded advanced id).1 =
        { t with replayResults := results }) ∨
      ((verifiesFix body = true ∧ recorded = .answered ∧ advanced ≠ .failed) ∧
        (postReplayResults t app bucket body recorded advanced id).1 =
          { advanceTriageUnlessWontfix t app bucket "fixed" (namedBuild body) with
            replayResults := results }) := by
  unfold postReplayResults
  split
  · rename_i hunlisted
    refine ⟨t.replayResults, .inl ⟨fun h => hunlisted ?_, rfl⟩⟩
    have hstatus := h.1
    rw [verifiesFix, isVerifiedFix, Bool.and_eq_true, Bool.and_eq_true, decide_eq_true_iff] at hstatus
    rw [hstatus.1.1]
    decide
  · cases recorded with
    | failed => exact ⟨t.replayResults, .inl ⟨fun h => CallResult.noConfusion h.2.1, rfl⟩⟩
    | unanswered =>
      exact ⟨t.replayResults ++ [⟨app, bucket⟩], .inl ⟨fun h => CallResult.noConfusion h.2.1, rfl⟩⟩
    | answered =>
      refine ⟨t.replayResults ++ [⟨app, bucket⟩], ?_⟩
      by_cases hverified : verifiesFix body = true ∧ advanced ≠ .failed
      · refine .inr ⟨⟨hverified.1, rfl, hverified.2⟩, ?_⟩
        simp only [hverified, ne_eq, not_true_eq_false, not_false_eq_true, and_self, if_true,
          if_false, reduceCtorEq]
        rfl
      · refine .inl ⟨fun h => hverified ⟨h.1, h.2.2⟩, ?_⟩
        simp only [hverified, ne_eq, not_true_eq_false, if_false, reduceCtorEq]
        rfl

/-- The anchor after an advance of the bucket. -/
theorem anchorOf_advance (t : TenantStore) (app bucket status : String) (build : Option String) :
    anchorOf (advanceTriageUnlessWontfix t app bucket status build) app bucket =
      match t.bucketTriage.get? (app, bucket) with
      | none => build
      | some row =>
        if row.status = "wontfix" then row.fixedInBuild
        else if lastResolutionStatus t app bucket = some "regressed" then build
        else row.fixedInBuild.or build := by
  rw [anchorOf, advanceTriageUnlessWontfix, Table.get?_upsert, if_pos rfl]
  cases t.bucketTriage.get? (app, bucket) with
  | none => rfl
  | some row =>
    simp only [Option.elim_some, Option.bind_some]
    split
    · rfl
    · rfl

/-- An advance of a bucket keeps the rows of the others. -/
theorem get?_advance_ne (t : TenantStore) {status : String} {build : Option String}
    (hne : (app', bucket') ≠ (app, bucket)) :
    (advanceTriageUnlessWontfix t app bucket status build).bucketTriage.get? (app', bucket') =
      t.bucketTriage.get? (app', bucket') := by
  rw [advanceTriageUnlessWontfix, Table.get?_upsert, if_neg hne]

end Anchors

/-! ## Genuine fixes -/

section Genuine

variable {body : Json} {n : Int}

/-- A result that did not reproduce the bug in three runs or more, none of which failed. -/
structure GenuineFix (body : Json) : Prop where
  status : body.get "status" = some (.string "not_reproduced")
  runs : ∃ n, body.get "runs" = some (.number (.int n)) ∧ 3 ≤ n
  failures : body.get "failures" = some (.number (.int 0))

/-- The result names a build, and its counts are others than those that are read.  The
failures are a multiple of `2 ^ 32` or no integer that fits, the runs leave a small number
over, and either the failures are not zero or the runs are negative. -/
structure Misread (body : Json) : Prop where
  status : replayStatus body = "not_reproduced"
  build : (namedBuild body).isSome = true
  failures : ∀ n, countOf body "failures" = some n → (2 ^ 32 : Int) ∣ n
  runs : ∃ n, countOf body "runs" = some n ∧ 3 ≤ n % 2 ^ 32 ∧ n % 2 ^ 32 < 2 ^ 31 ∧
    (countOf body "failures" ≠ some 0 ∨ n < 0)

theorem asI32_eq_zero_iff : asI32 n = 0 ↔ (2 ^ 32 : Int) ∣ n :=
  Int.dvd_iff_bmod_eq_zero.symm

theorem three_le_asI32_iff : 3 ≤ asI32 n ↔ 3 ≤ n % 2 ^ 32 ∧ n % 2 ^ 32 < 2 ^ 31 := by
  rw [asI32, Int.bmod_def]
  split <;> omega

theorem asI64_eq_some {v : Json} (h : v.asI64 = some n) :
    v = .number (.int n) ∧ -2 ^ 63 ≤ n ∧ n < 2 ^ 63 := by
  unfold Json.asI64 at h
  split at h
  · split at h
    · rename_i hfits
      cases h
      exact ⟨rfl, hfits⟩
    · cases h
  · cases h

theorem countOf_eq_some {key : String} (h : countOf body key = some n) :
    body.get key = some (.number (.int n)) := by
  obtain ⟨v, hv, hn⟩ := Option.bind_eq_some_iff.1 h
  rw [hv, (asI64_eq_some hn).1]

theorem countOf_zero_iff {key : String} :
    countOf body key = some 0 ↔ body.get key = some (.number (.int 0)) := by
  refine ⟨countOf_eq_some, fun h => ?_⟩
  rw [countOf, h]
  rfl

theorem replayStatus_eq_iff {status : String} (hne : status ≠ "") :
    replayStatus body = status ↔ body.get "status" = some (.string status) := by
  rw [replayStatus]
  cases body.get "status" with
  | none => simp [hne.symm]
  | some v => cases v <;> simp [Json.asStr, hne.symm]

/-- What is taken for a verified fix: the counts that are read. -/
theorem verifiesFix_iff : verifiesFix body = true ↔ replayStatus body = "not_reproduced" ∧
    (∃ n, countOf body "runs" = some n ∧ 3 ≤ n % 2 ^ 32 ∧ n % 2 ^ 32 < 2 ^ 31) ∧
      ∀ n, countOf body "failures" = some n → (2 ^ 32 : Int) ∣ n := by
  rw [verifiesFix, isVerifiedFix, Bool.and_eq_true, Bool.and_eq_true, decide_eq_true_iff,
    decide_eq_true_iff, decide_eq_true_iff, and_assoc, replayRuns, replayFailures,
    asI32_eq_zero_iff, three_le_asI32_iff]
  refine and_congr_right fun _ => and_congr ?_ ?_
  · cases countOf body "runs" with
    | none => simp
    | some n => simp
  · cases countOf body "failures" with
    | none => simp
    | some n => simp

/-- A verified fix is genuine unless its counts are misread. -/
theorem genuine_of_verifiesFix (hverified : verifiesFix body = true)
    (hbuild : (namedBuild body).isSome = true) (hread : ¬ Misread body) : GenuineFix body := by
  obtain ⟨hstatus, ⟨n, hn, hlow, hhigh⟩, hfailures⟩ := verifiesFix_iff.1 hverified
  have hboth : countOf body "failures" = some 0 ∧ 0 ≤ n := by
    by_contra hnot
    rw [not_and_or, not_le] at hnot
    exact hread ⟨hstatus, hbuild, hfailures, n, hn, hlow, hhigh, hnot⟩
  refine ⟨(replayStatus_eq_iff (by decide)).1 hstatus, ⟨n, countOf_eq_some hn, ?_⟩,
    countOf_zero_iff.1 hboth.1⟩
  have := hboth.2
  omega

theorem not_misread_of_genuine (h : GenuineFix body) : ¬ Misread body := by
  rintro ⟨-, -, -, m, hm, -, -, hbad⟩
  obtain ⟨n, hn, hthree⟩ := h.runs
  have heq : m = n := by
    have := (countOf_eq_some hm).symm.trans hn
    cases this
    rfl
  rcases hbad with hfailures | hneg
  · exact hfailures (countOf_zero_iff.2 h.failures)
  · omega

/-- A result sets or advances an anchor only for a genuine fix, unless its counts are misread. -/
theorem verified_fix_genuine_iff (body : Json) :
    (∀ (t : TenantStore) (app bucket app' bucket' : String) (recorded advanced : CallResult)
        (id : Int) (build : String),
      anchorOf (postReplayResults t app bucket body recorded advanced id).1 app' bucket' =
          some build →
        anchorOf t app' bucket' ≠ some build → GenuineFix body) ↔
      ¬ Misread body := by
  constructor
  · intro hgenuine hmisread
    obtain ⟨build, hbuild⟩ := Option.isSome_iff_exists.1 hmisread.build
    have hverified : verifiesFix body = true := by
      obtain ⟨n, hn, hlow, hhigh, -⟩ := hmisread.runs
      exact verifiesFix_iff.2 ⟨hmisread.status, ⟨n, hn, hlow, hhigh⟩, hmisread.failures⟩
    have hlisted : replayStatuses.contains (replayStatus body) = true := by
      rw [hmisread.status]
      decide
    have hset : anchorOf (postReplayResults .empty "app" "bucket" body .answered .answered 1).1
        "app" "bucket" = some build := by
      rw [postReplayResults, hlisted, hverified, hbuild]
      rfl
    have hnone : anchorOf .empty "app" "bucket" = none := rfl
    have hfix := hgenuine .empty "app" "bucket" "app" "bucket" .answered .answered 1 build hset
      (hnone ▸ (Option.some_ne_none build).symm)
    exact not_misread_of_genuine hfix hmisread
  · intro hread t app bucket app' bucket' recorded advanced id build hafter hbefore
    obtain ⟨results, ⟨-, hsame⟩ | ⟨⟨hverified, -, -⟩, hadvanced⟩⟩ :=
      postReplayResults_cases t app bucket body recorded advanced id
    · rw [hsame] at hafter
      exact absurd hafter hbefore
    · rw [hadvanced] at hafter
      change anchorOf (advanceTriageUnlessWontfix t app bucket "fixed" (namedBuild body)) app'
        bucket' = some build at hafter
      refine genuine_of_verifiesFix hverified ?_ hread
      by_cases hkey : (app', bucket') = (app, bucket)
      · cases hkey
        rw [anchorOf_advance] at hafter
        rw [anchorOf] at hbefore
        cases hbuild : namedBuild body with
        | some b => rfl
        | none =>
          rw [hbuild] at hafter
          cases hrow : t.bucketTriage.get? (app, bucket) with
          | none =>
            rw [hrow] at hafter
            cases hafter
          | some row =>
            rw [hrow] at hafter hbefore
            simp only [Option.or_none] at hafter
            split at hafter
            · exact absurd hafter hbefore
            · split at hafter
              · cases hafter
              · exact absurd hafter hbefore
      · rw [anchorOf, get?_advance_ne t hkey] at hafter
        exact absurd hafter hbefore

/-- A result with as many failures as 32 bits have values. -/
def wrappedFailures : Json :=
  .object [("status", .string "not_reproduced"), ("runs", .number (.int 3)),
    ("failures", .number (.int (2 ^ 32))), ("fixedInBuild", .string "1.4.2")]

/-- The failures come to zero, and the bucket gets the build for its anchor. -/
theorem wrapped_failures_fix :
    anchorOf (postReplayResults .empty "app" "bkt" wrappedFailures .answered .answered 1).1
        "app" "bkt" = some "1.4.2" ∧
      wrappedFailures.get "failures" = some (.number (.int (2 ^ 32))) ∧
      ¬ ∀ (body : Json) (t : TenantStore) (app bucket app' bucket' : String)
          (recorded advanced : CallResult) (id : Int) (build : String),
        anchorOf (postReplayResults t app bucket body recorded advanced id).1 app' bucket' =
            some build →
          anchorOf t app' bucket' ≠ some build → GenuineFix body := by
  have hset : anchorOf (postReplayResults .empty "app" "bkt" wrappedFailures .answered
      .answered 1).1 "app" "bkt" = some "1.4.2" := by
    decide +kernel
  have hwrapped : wrappedFailures.get "failures" = some (.number (.int (2 ^ 32))) := rfl
  refine ⟨hset, hwrapped, fun hall => ?_⟩
  have hgenuine := hall wrappedFailures .empty "app" "bkt" "app" "bkt" .answered .answered 1
    "1.4.2" hset (by decide)
  have hfailures := hgenuine.failures
  rw [hwrapped] at hfailures
  simp at hfailures

end Genuine

/-! ## Runs of signals -/

/-- What happens to the triage without a human. -/
inductive FixEvent where
  /-- A replay result comes in. -/
  | result (app bucket : String) (body : Json) (recorded advanced : CallResult) (id : Int)
  /-- A verified fix is written.  A build that is named is not empty. -/
  | upsert (app bucket : String) (build : Option {b : String // b ≠ ""})
  /-- A sweep stores the resolution of a bucket. -/
  | swept (app bucket status : String) (build : Option String)

def FixEvent.apply (t : TenantStore) : FixEvent → TenantStore
  | result app bucket body recorded advanced id =>
    (postReplayResults t app bucket body recorded advanced id).1
  | upsert app bucket build =>
    advanceTriageUnlessWontfix t app bucket "fixed" (build.map Subtype.val)
  | swept app bucket status build =>
    (upsertResolutionStatus { telemetry := t } app bucket status build).telemetry

/-- The steps of the triage without a human. -/
def fixes (t : TenantStore) (e : FixEvent) (t' : TenantStore) : Prop := t' = e.apply t

/-- The signal of an event: the bucket it advances, and the build it names. -/
def FixEvent.signal : FixEvent → Option ((String × String) × Option String)
  | result app bucket body recorded advanced _ =>
    if verifiesFix body ∧ recorded = .answered ∧ advanced ≠ .failed then
      some ((app, bucket), namedBuild body)
    else none
  | upsert app bucket build => some ((app, bucket), build.map Subtype.val)
  | swept _ _ _ _ => none

/-- The sweep looks at the bucket. -/
def Anchored (t : TenantStore) (app bucket : String) : Prop :=
  ∃ b ∈ anchoredBuckets t, b.appId = app ∧ b.bucketId = bucket

/-- The signal takes the anchor: it names no build, and the stored resolution of the bucket,
which has an anchor and is not `wontfix`, is `regressed`. -/
structure TakesAnchor (t : TenantStore) (app bucket : String) (e : FixEvent) : Prop where
  silent : e.signal = some ((app, bucket), none)
  regressed : lastResolutionStatus t app bucket = some "regressed"
  anchor : ∃ row, t.bucketTriage.get? (app, bucket) = some row ∧ row.status ≠ "wontfix" ∧
    row.fixedInBuild ≠ none

section Signals

variable {t t' : TenantStore} {app bucket : String} {e : FixEvent} {row : TriageRow}

theorem anchored_iff : Anchored t app bucket ↔ ∃ b, anchorOf t app bucket = some b ∧ b ≠ "" := by
  simp only [Anchored, anchoredBuckets, List.mem_insertionSort, List.mem_filterMap]
  constructor
  · rintro ⟨b, ⟨⟨⟨app', bucket'⟩, row⟩, hrow, hb⟩, rfl, rfl⟩
    obtain ⟨build, hbuild, rfl⟩ := Option.map_eq_some_iff.1 hb
    obtain ⟨hbuild, hne⟩ := Option.filter_eq_some_iff.1 hbuild
    refine ⟨build, ?_, of_decide_eq_true hne⟩
    rw [anchorOf, Table.get?_eq_some_iff.2 hrow]
    exact hbuild
  · rintro ⟨build, hanchor, hne⟩
    obtain ⟨row, hrow, hbuild⟩ := Option.bind_eq_some_iff.1 hanchor
    refine ⟨⟨app, bucket, build⟩, ⟨((app, bucket), row), Table.get?_eq_some_iff.1 hrow, ?_⟩,
      rfl, rfl⟩
    rw [hbuild]
    simp [hne]

/-- The build of a signal is not empty. -/
theorem signal_ne_empty {key : String × String} {build : String}
    (h : e.signal = some (key, some build)) : build ≠ "" := by
  cases e with
  | result app bucket body recorded advanced id =>
    rw [FixEvent.signal, Option.ite_none_right_eq_some] at h
    have hbuild : namedBuild body = some build := by
      have := h.2
      simp only [Option.some.injEq, Prod.mk.injEq] at this
      exact this.2
    exact of_decide_eq_true (Option.filter_eq_some_iff.1 hbuild).2
  | upsert app bucket named =>
    have hbuild : named.map Subtype.val = some build := by
      have := h
      simp only [FixEvent.signal, Option.some.injEq, Prod.mk.injEq] at this
      exact this.2
    obtain ⟨b, -, rfl⟩ := Option.map_eq_some_iff.1 hbuild
    exact b.2
  | swept app bucket status build => cases h

/-- What an event does to the triage of a bucket: what its signal does, and nothing without. -/
theorem apply_cases (t : TenantStore) (app bucket : String) (e : FixEvent) :
    ((∀ build, e.signal ≠ some ((app, bucket), build)) ∧
      (e.apply t).bucketTriage.get? (app, bucket) = t.bucketTriage.get? (app, bucket)) ∨
      ∃ build, e.signal = some ((app, bucket), build) ∧
        (e.apply t).bucketTriage.get? (app, bucket) =
          (advanceTriageUnlessWontfix t app bucket "fixed" build).bucketTriage.get?
            (app, bucket) := by
  have hother : ∀ {app' bucket' build}, (app, bucket) ≠ (app', bucket') → ∀ build',
      some ((app', bucket'), build) ≠ (some ((app, bucket), build') :
        Option ((String × String) × Option String)) := by
    intro app' bucket' build hkey build' heq
    rw [Option.some.injEq, Prod.mk.injEq] at heq
    exact hkey heq.1.symm
  cases e with
  | swept app' bucket' status build => exact .inl ⟨fun _ => (Option.some_ne_none _).symm, rfl⟩
  | upsert app' bucket' build =>
    by_cases hkey : (app, bucket) = (app', bucket')
    · cases hkey
      exact .inr ⟨_, rfl, rfl⟩
    · exact .inl ⟨hother hkey, get?_advance_ne t hkey⟩
  | result app' bucket' body recorded advanced id =>
    obtain ⟨results, ⟨hnot, hstore⟩ | ⟨hsignal, hstore⟩⟩ :=
      postReplayResults_cases t app' bucket' body recorded advanced id
    · refine .inl ⟨fun build => ?_, by rw [FixEvent.apply, hstore]⟩
      rw [FixEvent.signal, if_neg hnot]
      exact (Option.some_ne_none _).symm
    · rw [FixEvent.apply, hstore, FixEvent.signal, if_pos hsignal]
      by_cases hkey : (app, bucket) = (app', bucket')
      · cases hkey
        exact .inr ⟨namedBuild body, rfl, rfl⟩
      · exact .inl ⟨hother hkey, get?_advance_ne t hkey⟩

theorem get?_advance (h : t.bucketTriage.get? (app, bucket) = some row) (status : String)
    (build : Option String) :
    (advanceTriageUnlessWontfix t app bucket status build).bucketTriage.get? (app, bucket) =
      some (if row.status = "wontfix" then row
        else { row with
          status := status
          fixedInBuild :=
            if lastResolutionStatus t app bucket = some "regressed" then build
            else row.fixedInBuild.or build }) := by
  rw [advanceTriageUnlessWontfix, Table.get?_upsert, if_pos rfl, h, Option.elim_some]

/-- A `wontfix` row stays as it is. -/
theorem wontfix_apply (hrow : t.bucketTriage.get? (app, bucket) = some row)
    (hwontfix : row.status = "wontfix") (e : FixEvent) :
    (e.apply t).bucketTriage.get? (app, bucket) = some row := by
  rcases apply_cases t app bucket e with ⟨-, hsame⟩ | ⟨build, -, hadvance⟩
  · rw [hsame, hrow]
  · rw [hadvance, get?_advance hrow, if_pos hwontfix]

/-- A signal with a build keeps or replaces the anchor, and one without keeps it, unless it
takes it. -/
theorem anchorOf_apply (hkeeps : ¬ TakesAnchor t app bucket e) :
    anchorOf (e.apply t) app bucket = anchorOf t app bucket ∨
      ∃ build, e.signal = some ((app, bucket), some build) ∧
        anchorOf (e.apply t) app bucket = some build := by
  rcases apply_cases t app bucket e with ⟨-, hsame⟩ | ⟨build, hsignal, hadvance⟩
  · exact .inl (by rw [anchorOf, hsame, anchorOf])
  · have hafter : anchorOf (e.apply t) app bucket =
        anchorOf (advanceTriageUnlessWontfix t app bucket "fixed" build) app bucket := by
      rw [anchorOf, hadvance, anchorOf]
    rw [hafter, anchorOf_advance]
    rw [anchorOf]
    cases hrow : t.bucketTriage.get? (app, bucket) with
    | none =>
      cases build with
      | none => exact .inl rfl
      | some b => exact .inr ⟨b, hsignal, rfl⟩
    | some row =>
      simp only [Option.bind_some]
      split
      · exact .inl rfl
      · rename_i hopen
        cases hanchor : row.fixedInBuild with
        | none =>
          cases build with
          | none => exact .inl (by simp)
          | some b => exact .inr ⟨b, hsignal, by simp⟩
        | some anchor =>
          split
          · rename_i hregressed
            cases build with
            | none =>
              have htakes : TakesAnchor t app bucket e :=
                ⟨hsignal, hregressed, row, hrow, hopen, by rw [hanchor]; exact Option.some_ne_none _⟩
              exact absurd htakes hkeeps
            | some b => exact .inr ⟨b, hsignal, rfl⟩
          · exact .inl rfl

/-- What a signal is to do with a fix claim: an anchor stays one, and stays the same when the
signal names no build. -/
structure KeepsClaim (app bucket : String) (t : TenantStore) (e : FixEvent) (t' : TenantStore) :
    Prop where
  anchored : Anchored t app bucket → Anchored t' app bucket
  same : e.signal = some ((app, bucket), none) → anchorOf t' app bucket = anchorOf t app bucket

theorem keepsClaim_apply_iff :
    KeepsClaim app bucket t e (e.apply t) ↔ ¬ TakesAnchor t app bucket e := by
  constructor
  · intro hkeeps htakes
    obtain ⟨row, hrow, hopen, hanchor⟩ := htakes.anchor
    have hbefore : anchorOf t app bucket = row.fixedInBuild := by
      rw [anchorOf, hrow, Option.bind_some]
    have hafter : anchorOf (e.apply t) app bucket = none := by
      rcases apply_cases t app bucket e with ⟨hnone, -⟩ | ⟨build, hsignal, hadvance⟩
      · exact absurd htakes.silent (hnone none)
      · have hbuild : build = none := by
          have := hsignal.symm.trans htakes.silent
          simp only [Option.some.injEq, Prod.mk.injEq] at this
          exact this.2
        rw [anchorOf, hadvance, get?_advance hrow, if_neg hopen, hbuild]
        simp [htakes.regressed]
    have hsame := hkeeps.same htakes.silent
    rw [hafter, hbefore] at hsame
    exact hanchor hsame.symm
  · intro hnot
    rcases anchorOf_apply hnot with hsame | ⟨build, hsignal, hafter⟩
    · refine ⟨fun h => ?_, fun _ => hsame⟩
      rw [anchored_iff, hsame]
      exact anchored_iff.1 h
    · refine ⟨fun _ => anchored_iff.2 ⟨build, hafter, signal_ne_empty hsignal⟩, fun hnone => ?_⟩
      rw [hsignal, Option.some.injEq, Prod.mk.injEq] at hnone
      exact absurd hnone.2 (Option.some_ne_none build)

/-- In any run a `wontfix` row stays as it is.  The steps keep the claim exactly when none takes
the anchor, and then the whole run keeps it. -/
theorem fix_claims_kept {es : List FixEvent} (hrun : Run fixes t es t') (app bucket : String) :
    (∀ row, t.bucketTriage.get? (app, bucket) = some row → row.status = "wontfix" →
      t'.bucketTriage.get? (app, bucket) = some row) ∧
      (Run (Guarded fixes (KeepsClaim app bucket)) t es t' ↔
        Run (Guarded fixes fun s e _ => ¬ TakesAnchor s app bucket e) t es t') ∧
      (Run (Guarded fixes fun s e _ => ¬ TakesAnchor s app bucket e) t es t' →
        (Anchored t app bucket → Anchored t' app bucket) ∧
        ((∀ e ∈ es, ∀ build, e.signal ≠ some ((app, bucket), some build)) →
          anchorOf t' app bucket = anchorOf t app bucket)) := by
  refine ⟨fun row hrow hwontfix => ?_, ⟨fun h => h.mono ?_, fun h => h.mono ?_⟩,
    fun hguarded => ⟨fun h => ?_, fun hsilent => ?_⟩⟩
  · refine hrun.invariant (fun s => s.bucketTriage.get? (app, bucket) = some row) ?_ hrow
    rintro s e s' hs rfl
    exact wontfix_apply hs hwontfix e
  · rintro s e s' ⟨rfl, hkeeps⟩
    exact ⟨rfl, keepsClaim_apply_iff.1 hkeeps⟩
  · rintro s e s' ⟨rfl, hnot⟩
    exact ⟨rfl, keepsClaim_apply_iff.2 hnot⟩
  · refine hguarded.invariant (fun s => Anchored s app bucket) ?_ h
    rintro s e s' hs ⟨rfl, hnot⟩
    exact (keepsClaim_apply_iff.2 hnot).anchored hs
  · clear hrun
    induction hguarded with
    | nil s => rfl
    | cons hstep hrest ih =>
      rw [List.forall_mem_cons] at hsilent
      obtain ⟨rfl, hnot⟩ := hstep
      rw [ih hsilent.2]
      rcases anchorOf_apply hnot with hsame | ⟨build, hsignal, -⟩
      · exact hsame
      · exact absurd hsignal (hsilent.1 build)

/-- A bucket that is fixed in a build, and that last had some resolution. -/
def fixedIn120 (resolution : String) : TenantStore :=
  { TenantStore.empty with
    bucketTriage := Table.empty.upsert ("app", "bkt") ⟨"fixed", none, some "1.2.0"⟩ id
    bucketResolutionStatus :=
      Table.empty.upsert ("app", "bkt") (resolution, some "1.2.0") id }

/-- Three clean runs, and no build. -/
def cleanResult : FixEvent :=
  .result "app" "bkt" (.object [("status", .string "not_reproduced"), ("runs", .number (.int 3)),
    ("failures", .number (.int 0))]) .answered .answered 1

theorem fix_claims_kept_resolving :
    Run fixes (fixedIn120 "resolving") [cleanResult]
        (cleanResult.apply (fixedIn120 "resolving")) ∧
      Anchored (fixedIn120 "resolving") "app" "bkt" ∧
      Anchored (cleanResult.apply (fixedIn120 "resolving")) "app" "bkt" := by
  have hrun : Run fixes (fixedIn120 "resolving") [cleanResult]
      (cleanResult.apply (fixedIn120 "resolving")) := .cons rfl (.nil _)
  have hguarded : Run (Guarded fixes fun s e _ => ¬ TakesAnchor s "app" "bkt" e)
      (fixedIn120 "resolving") [cleanResult] (cleanResult.apply (fixedIn120 "resolving")) :=
    .cons ⟨rfl, fun h => absurd h.regressed (by decide)⟩ (.nil _)
  have hanchored : Anchored (fixedIn120 "resolving") "app" "bkt" :=
    anchored_iff.2 ⟨"1.2.0", rfl, by decide⟩
  exact ⟨hrun, hanchored, ((fix_claims_kept hrun "app" "bkt").2.2 hguarded).1 hanchored⟩

/-- A regressed bucket loses its anchor to a result without a build, and the sweep does not look
at it again. -/
theorem clean_result_takes_anchor :
    anchoredBuckets (fixedIn120 "regressed") = [⟨"app", "bkt", "1.2.0"⟩] ∧
      anchoredBuckets (cleanResult.apply (fixedIn120 "regressed")) = [] ∧
      ¬ ∀ (t t' : TenantStore) (es : List FixEvent) (app bucket : String), Run fixes t es t' →
        Anchored t app bucket → Anchored t' app bucket := by
  have hnone : anchoredBuckets (cleanResult.apply (fixedIn120 "regressed")) = [] := by
    decide +kernel
  refine ⟨by decide +kernel, hnone, fun hall => ?_⟩
  obtain ⟨b, hb, -⟩ := hall _ _ [cleanResult] "app" "bkt" (.cons rfl (.nil _))
    (anchored_iff.2 ⟨"1.2.0", rfl, by decide⟩ : Anchored (fixedIn120 "regressed") "app" "bkt")
  rw [hnone] at hb
  cases hb

end Signals

end ReproitCloud
