import ReproitCloud.Lib.Table
import ReproitCloud.Data.Time

/-!
# The resolution engine

Given the occurrences of one bug, the order in which builds were first seen and
the build claimed to fix it, `evaluate` says what production shows: `active`
without a claim, `regressed` when the bug recurs on a build at or after the fix,
`resolved` when it does not over a long enough time and enough traffic, and
`resolving` until then.

Builds are ordered by the first instant each was seen in the app's stream
(`firstSeenByBuild`), not by version numbers.  `onOrAfter` is that order.  An
occurrence is a *post-fix* one when its build is on or after the fix and it
happened at or after the fix was first seen.

`evaluate` is translated with its loop and its two accumulators.  `recurrences`
and `Gates` say the same without the loop, and three theorems give each verdict
exactly: `evaluate_regressed_iff`, `evaluate_resolved_iff`,
`evaluate_active_iff`.

Epochs are integers here and `i64` in the source.  They are read from RFC 3339
texts, whose years have four digits, so differences of epochs do not overflow.
-/

namespace ReproitCloud

open Lib

/-- The system-computed truth about a bucket. -/
inductive Resolution where
  | active
  | resolving
  | resolved
  | regressed
deriving DecidableEq, Repr

namespace Resolution

/-- `as_str`, the wire string. -/
def asStr : Resolution → String
  | active => "active"
  | resolving => "resolving"
  | resolved => "resolved"
  | regressed => "regressed"

end Resolution

/-- The tunable thresholds of the decision. -/
structure Thresholds where
  resolveQuietSecs : Int := 72 * 3600
  minPostFixTraffic : Nat := 50
deriving DecidableEq, Repr

/-- `Thresholds::configured`: the two environment values as they parse.  A
negative quiet gap is dropped. -/
def Thresholds.configured (quiet : Option Int) (traffic : Option Nat) : Thresholds where
  resolveQuietSecs := (quiet.filter (0 ≤ ·)).getD (72 * 3600)
  minPostFixTraffic := traffic.getD 50

/-- The verdict with the evidence behind it. -/
structure Outcome where
  status : Resolution
  fixedInBuild : Option String := none
  lastSeenOnFixedBuild : Option Rfc3339 := none
  postFixOccurrences : Nat := 0
deriving DecidableEq, Repr

/-- One occurrence: when it happened, and the build it was seen on. -/
structure Occurrence where
  atTime : Rfc3339
  build : Option String
deriving DecidableEq, Repr

/-- Each build with the epoch it was first seen at. -/
abbrev FirstSeen := Table String Int

/-- `first_seen_by_build`. -/
def firstSeenByBuild (occ : List Occurrence) : FirstSeen :=
  occ.foldl
    (fun firstSeen o =>
      match o.build, parseEpoch o.atTime with
      | some b, some e => firstSeen.upsert b e (min · e)
      | _, _ => firstSeen)
    .empty

/-- The build is the fixed one, or was first seen no earlier than it. -/
def onOrAfter (firstSeen : FirstSeen) (fixed : String) (fixEpoch : Int) (build : String) : Bool :=
  build = fixed || (firstSeen.get? build).any (fixEpoch ≤ ·)

/-- The occurrence is on a build on or after the fix, at or after the fix. -/
def postFix (firstSeen : FirstSeen) (fixed : String) (fixEpoch : Int) (o : Occurrence) : Bool :=
  match o.build, parseEpoch o.atTime with
  | some build, some epoch => onOrAfter firstSeen fixed fixEpoch build && fixEpoch ≤ epoch
  | _, _ => false

/-- `post_fix_traffic`: the occurrences of the app's stream that are post-fix. -/
def postFixTraffic (appStream : List Occurrence) (fixed : String) : Nat :=
  let firstSeen := firstSeenByBuild appStream
  match firstSeen.get? fixed with
  | none => 0
  | some fixEpoch => (appStream.filter (postFix firstSeen fixed fixEpoch)).length

/-- `post_fix_build_traffic`: the batch counts of the builds that are post-fix. -/
def postFixBuildTraffic (builds : List (Occurrence × Nat)) (fixed : String) : Nat :=
  let firstSeen := firstSeenByBuild (builds.map Prod.fst)
  match firstSeen.get? fixed with
  | none => 0
  | some fixEpoch =>
    ((builds.filter fun b => postFix firstSeen fixed fixEpoch b.1).map Prod.snd).sum

/-- One turn of `evaluate`'s loop: the count so far and the latest epoch. -/
def countRecurrence (firstSeen : FirstSeen) (fixed : String) (fixEpoch : Int)
    (acc : Nat × Option Int) (o : Occurrence) : Nat × Option Int :=
  match o.build, parseEpoch o.atTime with
  | some build, some epoch =>
    if onOrAfter firstSeen fixed fixEpoch build && fixEpoch ≤ epoch then
      (acc.1 + 1, some (acc.2.elim epoch (max · epoch)))
    else acc
  | _, _ => acc

/-- `epoch_to_rfc3339`. -/
def epochToRfc3339 (epoch : Int) : Rfc3339 := .instant (epoch * microsPerSecond)

/-- `evaluate`. -/
def evaluate (bug : List Occurrence) (fixFirstSeen : FirstSeen) (fixedInBuild : Option String)
    (postFixTraffic : Nat) (now : Rfc3339) (th : Thresholds) : Outcome :=
  match fixedInBuild with
  | none => { status := .active }
  | some fixed =>
    match fixFirstSeen.get? fixed with
    | none => { status := .resolving, fixedInBuild := some fixed }
    | some fixEpoch =>
      let (postFixOccurrences, lastSeenEpoch) :=
        bug.foldl (countRecurrence fixFirstSeen fixed fixEpoch) (0, none)
      if postFixOccurrences > 0 then
        { status := .regressed
          fixedInBuild := some fixed
          lastSeenOnFixedBuild := lastSeenEpoch.map epochToRfc3339
          postFixOccurrences := postFixOccurrences }
      else
        let nowEpoch := (parseEpoch now).getD 0
        let enoughQuiet := th.resolveQuietSecs ≤ nowEpoch - fixEpoch
        let enoughTraffic := th.minPostFixTraffic ≤ postFixTraffic
        { status := if enoughQuiet ∧ enoughTraffic then .resolved else .resolving
          fixedInBuild := some fixed }

/-- `latest_post_fix_build`: the build of the last of the latest recurrences. -/
def latestPostFixBuild (bug : List Occurrence) (firstSeen : FirstSeen) (fixed : String) :
    Option String :=
  match firstSeen.get? fixed with
  | none => none
  | some fixEpoch =>
    let recurrences := bug.filterMap fun o =>
      match o.build, parseEpoch o.atTime with
      | some build, some epoch =>
        (firstSeen.get? build).bind fun buildEpoch =>
          if fixEpoch ≤ epoch ∧ (build = fixed ∨ fixEpoch ≤ buildEpoch) then some (epoch, build)
          else none
      | _, _ => none
    (recurrences.foldl
      (fun best r =>
        match best with
        | none => some r
        | some b => if b.1 ≤ r.1 then some r else some b)
      none).map Prod.snd

/-! ## The verdicts without the loop -/

/-- Both gates of a resolution are open. -/
def Gates (fixEpoch : Int) (traffic : Nat) (now : Rfc3339) (th : Thresholds) : Prop :=
  th.resolveQuietSecs ≤ (parseEpoch now).getD 0 - fixEpoch ∧ th.minPostFixTraffic ≤ traffic

instance (fixEpoch : Int) (traffic : Nat) (now : Rfc3339) (th : Thresholds) :
    Decidable (Gates fixEpoch traffic now th) :=
  inferInstanceAs (Decidable (_ ∧ _))

theorem countRecurrence_fst (firstSeen : FirstSeen) (fixed : String) (fixEpoch : Int)
    (acc : Nat × Option Int) (o : Occurrence) :
    (countRecurrence firstSeen fixed fixEpoch acc o).1 =
      acc.1 + if postFix firstSeen fixed fixEpoch o then 1 else 0 := by
  unfold countRecurrence postFix
  cases o.build with
  | none => simp
  | some build =>
    cases parseEpoch o.atTime with
    | none => simp
    | some epoch =>
      simp only
      split <;> rfl

/-- The loop counts the post-fix occurrences. -/
theorem foldl_countRecurrence_fst (firstSeen : FirstSeen) (fixed : String) (fixEpoch : Int)
    (bug : List Occurrence) (acc : Nat × Option Int) :
    (bug.foldl (countRecurrence firstSeen fixed fixEpoch) acc).1 =
      acc.1 + bug.countP (postFix firstSeen fixed fixEpoch) := by
  induction bug generalizing acc with
  | nil => rfl
  | cons o bug ih =>
    rw [List.foldl_cons, ih, countRecurrence_fst, List.countP_cons]
    omega

section Evaluate

variable {bug : List Occurrence} {firstSeen : FirstSeen} {fixed : String} {fixEpoch : Int}
variable {traffic : Nat} {now : Rfc3339} {th : Thresholds}

/-- The bug has a post-fix occurrence. -/
def Recurs (bug : List Occurrence) (firstSeen : FirstSeen) (fixed : String) (fixEpoch : Int) :
    Prop :=
  ∃ o ∈ bug, postFix firstSeen fixed fixEpoch o = true

instance : Decidable (Recurs bug firstSeen fixed fixEpoch) :=
  inferInstanceAs (Decidable (∃ o ∈ bug, _))

theorem recurs_iff_countP :
    Recurs bug firstSeen fixed fixEpoch ↔ 0 < bug.countP (postFix firstSeen fixed fixEpoch) :=
  List.countP_pos_iff.symm

/-- Without a seen fix nothing is confirmed or denied. -/
theorem evaluate_status_unseen (h : firstSeen.get? fixed = none) :
    (evaluate bug firstSeen (some fixed) traffic now th).status = .resolving := by
  simp only [evaluate, h]

/-- With the fix seen, the recurrences and then the gates decide. -/
theorem evaluate_status_seen (h : firstSeen.get? fixed = some fixEpoch) :
    (evaluate bug firstSeen (some fixed) traffic now th).status =
      if Recurs bug firstSeen fixed fixEpoch then .regressed
      else if Gates fixEpoch traffic now th then .resolved else .resolving := by
  have hcount := foldl_countRecurrence_fst firstSeen fixed fixEpoch bug (0, none)
  rw [Nat.zero_add] at hcount
  simp only [evaluate, h, recurs_iff_countP, ← hcount]
  by_cases hpos : 0 < (bug.foldl (countRecurrence firstSeen fixed fixEpoch) (0, none)).1
  · rw [if_pos hpos, if_pos hpos]
  · rw [if_neg hpos, if_neg hpos]
    rfl

theorem evaluate_active_iff {anchor : Option String} :
    (evaluate bug firstSeen anchor traffic now th).status = .active ↔ anchor = none := by
  cases anchor with
  | none => exact ⟨fun _ => rfl, fun _ => rfl⟩
  | some fixed =>
    refine ⟨fun h => ?_, fun h => by cases h⟩
    cases hseen : firstSeen.get? fixed with
    | none =>
      rw [evaluate_status_unseen hseen] at h
      cases h
    | some fixEpoch =>
      rw [evaluate_status_seen hseen] at h
      split at h
      · cases h
      · split at h <;> cases h

/-- Regressed is a seen fix and a recurrence. -/
theorem evaluate_regressed_iff {anchor : Option String} :
    (evaluate bug firstSeen anchor traffic now th).status = .regressed ↔
      ∃ fixed fixEpoch, anchor = some fixed ∧ firstSeen.get? fixed = some fixEpoch ∧
        Recurs bug firstSeen fixed fixEpoch := by
  cases anchor with
  | none => simp [evaluate]
  | some fixed =>
    cases hseen : firstSeen.get? fixed with
    | none =>
      rw [evaluate_status_unseen hseen]
      simp [hseen]
    | some fixEpoch =>
      rw [evaluate_status_seen hseen]
      by_cases hrec : Recurs bug firstSeen fixed fixEpoch
      · rw [if_pos hrec]
        exact ⟨fun _ => ⟨fixed, fixEpoch, rfl, hseen, hrec⟩, fun _ => rfl⟩
      · rw [if_neg hrec]
        constructor
        · intro h
          split at h <;> cases h
        · rintro ⟨f, e, hf, he, hr⟩
          cases hf
          rw [hseen] at he
          cases he
          exact absurd hr hrec

/-- Resolved is a seen fix, no recurrence and both gates open. -/
theorem evaluate_resolved_iff {anchor : Option String} :
    (evaluate bug firstSeen anchor traffic now th).status = .resolved ↔
      ∃ fixed fixEpoch, anchor = some fixed ∧ firstSeen.get? fixed = some fixEpoch ∧
        ¬ Recurs bug firstSeen fixed fixEpoch ∧ Gates fixEpoch traffic now th := by
  cases anchor with
  | none => simp [evaluate]
  | some fixed =>
    cases hseen : firstSeen.get? fixed with
    | none =>
      rw [evaluate_status_unseen hseen]
      simp [hseen]
    | some fixEpoch =>
      rw [evaluate_status_seen hseen]
      constructor
      · intro h
        split at h
        · cases h
        · rename_i hrec
          split at h
          · rename_i hgates
            exact ⟨fixed, fixEpoch, rfl, hseen, hrec, hgates⟩
          · cases h
      · rintro ⟨f, e, hf, he, hrec, hgates⟩
        cases hf
        rw [hseen] at he
        cases he
        rw [if_neg hrec, if_pos hgates]

end Evaluate

end ReproitCloud
