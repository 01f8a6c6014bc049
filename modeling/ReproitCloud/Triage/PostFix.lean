import ReproitCloud.Lib.Extremes
import ReproitCloud.Triage.Resolution

/-!
# Post-fix occurrences

`Triage.Resolution` translates `evaluate` and the functions around it.  Each of
them walks a stream of occurrences with a membership test of its own.  Here the
test is one relation, `PostFix`, and each walk is given by what it computes.

* `firstSeenByBuild` is the least epoch of each build (`get?_firstSeenByBuild`).
* `evaluate` depends on the stream only through the multiset `postFixes` of its
  post-fix occurrences (`evaluate_seen`, `evaluate_decides`).
* A clock that cannot be read counts as 1970.  `unreadable_clock_iff` says when
  that holds a resolution back.
* Traffic counted by occurrence and traffic counted by build agree on the
  aggregate of one stream (`postFixTraffic_eq_build`).
* `latestPostFixBuild` names a build of the occurrence that the verdict dates
  (`latestPostFixBuild_decides`).
-/

namespace ReproitCloud

open Lib

/-! ## Readings -/

/-- The build and the epoch of an occurrence that has both. -/
def Occurrence.reading (o : Occurrence) : Option (String × Int) :=
  match o.build, parseEpoch o.atTime with
  | some build, some epoch => some (build, epoch)
  | _, _ => none

theorem Occurrence.reading_eq_some {o : Occurrence} {build : String} {epoch : Int} :
    o.reading = some (build, epoch) ↔ o.build = some build ∧ parseEpoch o.atTime = some epoch := by
  unfold reading
  cases o.build with
  | none => simp
  | some b =>
    cases parseEpoch o.atTime with
    | none => simp
    | some e => simp

/-- The stream has the build at that epoch. -/
def SeenAt (stream : List Occurrence) (build : String) (epoch : Int) : Prop :=
  ∃ o ∈ stream, o.build = some build ∧ parseEpoch o.atTime = some epoch

theorem firstSeenByBuild_eq (stream : List Occurrence) :
    firstSeenByBuild stream = leastOf (stream.filterMap Occurrence.reading) := by
  induction stream using List.reverseRecOn with
  | nil => rfl
  | append_singleton stream o ih =>
    have hstep : firstSeenByBuild (stream ++ [o]) =
        match o.build, parseEpoch o.atTime with
        | some b, some e => (firstSeenByBuild stream).upsert b e (min · e)
        | _, _ => firstSeenByBuild stream := by
      rw [firstSeenByBuild, List.foldl_append]
      rfl
    rw [hstep, List.filterMap_append, ih]
    cases hbuild : o.build with
    | none => simp [Occurrence.reading, hbuild]
    | some b =>
      cases hepoch : parseEpoch o.atTime with
      | none => simp [Occurrence.reading, hbuild, hepoch]
      | some e => simp [Occurrence.reading, hbuild, hepoch, observe]

/-- A build is first seen at the least of its epochs. -/
theorem get?_firstSeenByBuild {stream : List Occurrence} {build : String} {epoch : Int} :
    (firstSeenByBuild stream).get? build = some epoch ↔
      IsLeast {e | SeenAt stream build e} epoch := by
  rw [firstSeenByBuild_eq, get?_leastOf]
  have hset : {e | (build, e) ∈ stream.filterMap Occurrence.reading} =
      {e | SeenAt stream build e} := by
    ext e
    show (build, e) ∈ stream.filterMap Occurrence.reading ↔ SeenAt stream build e
    rw [List.mem_filterMap]
    simp only [Occurrence.reading_eq_some]
    rfl
  rw [hset]

/-! ## Membership -/

/-- The occurrence is on the fixed build or one first seen no earlier, and not
before the fix was seen. -/
def PostFix (firstSeen : FirstSeen) (fixed : String) (fixEpoch : Int) (o : Occurrence) : Prop :=
  ∃ build epoch, o.build = some build ∧ parseEpoch o.atTime = some epoch ∧
    (build = fixed ∨ ∃ buildEpoch, firstSeen.get? build = some buildEpoch ∧
      fixEpoch ≤ buildEpoch) ∧ fixEpoch ≤ epoch

theorem onOrAfter_iff {firstSeen : FirstSeen} {fixed build : String} {fixEpoch : Int} :
    onOrAfter firstSeen fixed fixEpoch build = true ↔
      build = fixed ∨ ∃ buildEpoch, firstSeen.get? build = some buildEpoch ∧
        fixEpoch ≤ buildEpoch := by
  simp [onOrAfter, Option.any_eq_true]

theorem postFix_iff {firstSeen : FirstSeen} {fixed : String} {fixEpoch : Int} {o : Occurrence} :
    postFix firstSeen fixed fixEpoch o = true ↔ PostFix firstSeen fixed fixEpoch o := by
  unfold postFix PostFix
  cases o.build with
  | none => simp
  | some build =>
    cases parseEpoch o.atTime with
    | none => simp
    | some epoch => simp [onOrAfter_iff]

instance (firstSeen : FirstSeen) (fixed : String) (fixEpoch : Int) :
    DecidablePred (PostFix firstSeen fixed fixEpoch) :=
  fun _ => decidable_of_iff _ postFix_iff

/-- The post-fix occurrences of a bug. -/
def postFixes (bug : List Occurrence) (firstSeen : FirstSeen) (fixed : String) (fixEpoch : Int) :
    Multiset Occurrence :=
  (bug : Multiset Occurrence).filter (PostFix firstSeen fixed fixEpoch)

section Membership

variable {bug : List Occurrence} {firstSeen : FirstSeen} {fixed : String} {fixEpoch : Int}

theorem mem_postFixes {o : Occurrence} :
    o ∈ postFixes bug firstSeen fixed fixEpoch ↔
      o ∈ bug ∧ PostFix firstSeen fixed fixEpoch o := by
  rw [postFixes, Multiset.mem_filter, Multiset.mem_coe]

theorem postFixes_eq_zero_iff :
    postFixes bug firstSeen fixed fixEpoch = 0 ↔ ¬ Recurs bug firstSeen fixed fixEpoch := by
  rw [Multiset.eq_zero_iff_forall_notMem]
  simp only [mem_postFixes, Recurs, postFix_iff, not_and, not_exists]

theorem card_postFixes :
    (postFixes bug firstSeen fixed fixEpoch).card =
      bug.countP (postFix firstSeen fixed fixEpoch) := by
  rw [postFixes, ← Multiset.countP_eq_card_filter, Multiset.coe_countP]
  exact List.countP_congr fun o _ => by simp [postFix_iff]

/-- The epochs of the post-fix occurrences, in stream order. -/
def postFixEpochs (bug : List Occurrence) (firstSeen : FirstSeen) (fixed : String)
    (fixEpoch : Int) : List Int :=
  (bug.filter (postFix firstSeen fixed fixEpoch)).filterMap fun o => parseEpoch o.atTime

theorem mem_postFixEpochs {epoch : Int} :
    epoch ∈ postFixEpochs bug firstSeen fixed fixEpoch ↔
      ∃ o ∈ postFixes bug firstSeen fixed fixEpoch, parseEpoch o.atTime = some epoch := by
  simp only [postFixEpochs, List.mem_filterMap, List.mem_filter, postFix_iff, mem_postFixes]

theorem postFixEpochs_eq_nil (h : postFixes bug firstSeen fixed fixEpoch = 0) :
    postFixEpochs bug firstSeen fixed fixEpoch = [] := by
  rw [List.eq_nil_iff_forall_not_mem]
  intro epoch hepoch
  obtain ⟨o, ho, -⟩ := mem_postFixEpochs.1 hepoch
  rw [h] at ho
  exact Multiset.notMem_zero o ho

theorem countRecurrence_eq (firstSeen : FirstSeen) (fixed : String) (fixEpoch : Int)
    (acc : Nat × Option Int) (o : Occurrence) :
    countRecurrence firstSeen fixed fixEpoch acc o =
      if postFix firstSeen fixed fixEpoch o then
        (acc.1 + 1, (parseEpoch o.atTime).map fun epoch => acc.2.elim epoch (max · epoch))
      else acc := by
  unfold countRecurrence postFix
  cases o.build with
  | none => rfl
  | some build =>
    cases parseEpoch o.atTime with
    | none => rfl
    | some epoch => rfl

/-- The loop's second accumulator is a running maximum of the post-fix epochs. -/
theorem foldl_countRecurrence_snd (firstSeen : FirstSeen) (fixed : String) (fixEpoch : Int)
    (bug : List Occurrence) (acc : Nat × Option Int) :
    (bug.foldl (countRecurrence firstSeen fixed fixEpoch) acc).2 =
      (postFixEpochs bug firstSeen fixed fixEpoch).foldl
        (fun m epoch => some (m.elim epoch (max · epoch))) acc.2 := by
  induction bug generalizing acc with
  | nil => rfl
  | cons o bug ih =>
    rw [List.foldl_cons, ih, countRecurrence_eq]
    cases hpost : postFix firstSeen fixed fixEpoch o with
    | false => simp [postFixEpochs, hpost]
    | true =>
      obtain ⟨_, epoch, -, hepoch, -⟩ := postFix_iff.1 hpost
      simp [postFixEpochs, hpost, hepoch]

theorem max?_postFixEpochs {epoch : Int} :
    (postFixEpochs bug firstSeen fixed fixEpoch).max? = some epoch ↔
      IsGreatest {e | ∃ o ∈ postFixes bug firstSeen fixed fixEpoch,
        parseEpoch o.atTime = some e} epoch := by
  rw [List.max?_eq_some_iff]
  simp only [mem_postFixEpochs]
  rfl

end Membership

/-! ## The verdict -/

section Verdict

variable {bug : List Occurrence} {firstSeen : FirstSeen} {fixed : String} {fixEpoch : Int}
variable {traffic : Nat} {now : Rfc3339} {th : Thresholds}

/-- With the fix seen, the verdict is a function of the post-fix occurrences. -/
theorem evaluate_seen (hseen : firstSeen.get? fixed = some fixEpoch) :
    evaluate bug firstSeen (some fixed) traffic now th =
      { status :=
          if postFixes bug firstSeen fixed fixEpoch ≠ 0 then .regressed
          else if Gates fixEpoch traffic now th then .resolved else .resolving
        fixedInBuild := some fixed
        lastSeenOnFixedBuild :=
          (postFixEpochs bug firstSeen fixed fixEpoch).max?.map epochToRfc3339
        postFixOccurrences := (postFixes bug firstSeen fixed fixEpoch).card } := by
  have hfst := foldl_countRecurrence_fst firstSeen fixed fixEpoch bug (0, none)
  have hsnd := foldl_countRecurrence_snd firstSeen fixed fixEpoch bug (0, none)
  rw [Nat.zero_add, ← card_postFixes] at hfst
  rw [foldl_max] at hsnd
  simp only [evaluate, hseen, hfst, hsnd]
  by_cases hempty : postFixes bug firstSeen fixed fixEpoch = 0
  · simp only [hempty, postFixEpochs_eq_nil hempty, Gates, Multiset.card_zero, lt_irrefl, ne_eq,
      not_true_eq_false, if_false, List.max?_nil, Option.map_none]
    rfl
  · have hpos : 0 < (postFixes bug firstSeen fixed fixEpoch).card := Multiset.card_pos.2 hempty
    simp [hempty, hpos]

/-- A recurrence is dated by its latest epoch. -/
theorem evaluate_recurring (hseen : firstSeen.get? fixed = some fixEpoch)
    (hpost : postFixes bug firstSeen fixed fixEpoch ≠ 0) :
    ∃ latest,
      IsGreatest {e | ∃ o ∈ postFixes bug firstSeen fixed fixEpoch,
        parseEpoch o.atTime = some e} latest ∧
      evaluate bug firstSeen (some fixed) traffic now th =
        { status := .regressed, fixedInBuild := some fixed,
          lastSeenOnFixedBuild := some (epochToRfc3339 latest),
          postFixOccurrences := (postFixes bug firstSeen fixed fixEpoch).card } := by
  obtain ⟨o, ho⟩ := Multiset.exists_mem_of_ne_zero hpost
  obtain ⟨-, _, epoch, -, hepoch, -⟩ := mem_postFixes.1 ho
  have hmem : epoch ∈ postFixEpochs bug firstSeen fixed fixEpoch :=
    mem_postFixEpochs.2 ⟨o, ho, hepoch⟩
  cases hmax : (postFixEpochs bug firstSeen fixed fixEpoch).max? with
  | none =>
    rw [List.max?_eq_none_iff.1 hmax] at hmem
    exact absurd hmem List.not_mem_nil
  | some latest =>
    refine ⟨latest, max?_postFixEpochs.1 hmax, ?_⟩
    rw [evaluate_seen hseen, hmax, if_pos hpost]
    rfl

/-- Without a recurrence the two gates decide. -/
theorem evaluate_quiet (hseen : firstSeen.get? fixed = some fixEpoch)
    (hpost : postFixes bug firstSeen fixed fixEpoch = 0) :
    evaluate bug firstSeen (some fixed) traffic now th =
      { status := if Gates fixEpoch traffic now th then .resolved else .resolving
        fixedInBuild := some fixed } := by
  rw [evaluate_seen hseen, postFixEpochs_eq_nil hpost, hpost, if_neg (not_not.2 rfl)]
  rfl

/-- The verdict sees the order of a stream and its other occurrences not at all. -/
theorem evaluate_congr {bug' : List Occurrence} {anchor : Option String}
    (h : ∀ fixed fixEpoch, anchor = some fixed → firstSeen.get? fixed = some fixEpoch →
      postFixes bug' firstSeen fixed fixEpoch = postFixes bug firstSeen fixed fixEpoch) :
    evaluate bug' firstSeen anchor traffic now th =
      evaluate bug firstSeen anchor traffic now th := by
  cases anchor with
  | none => rfl
  | some fixed =>
    cases hseen : firstSeen.get? fixed with
    | none => simp only [evaluate, hseen]
    | some fixEpoch =>
      have hsame := h fixed fixEpoch rfl hseen
      have hmax : (postFixEpochs bug' firstSeen fixed fixEpoch).max? =
          (postFixEpochs bug firstSeen fixed fixEpoch).max? := by
        ext epoch
        rw [max?_postFixEpochs, max?_postFixEpochs, hsame]
      rw [evaluate_seen hseen, evaluate_seen hseen, hsame, hmax]

theorem postFixes_perm {bug bug' : List Occurrence} (h : bug'.Perm bug) :
    postFixes bug' firstSeen fixed fixEpoch = postFixes bug firstSeen fixed fixEpoch := by
  rw [postFixes, postFixes, Multiset.coe_eq_coe.2 h]

theorem postFixes_append {bug more : List Occurrence} :
    postFixes (bug ++ more) firstSeen fixed fixEpoch =
      postFixes bug firstSeen fixed fixEpoch + postFixes more firstSeen fixed fixEpoch := by
  rw [postFixes, ← Multiset.coe_add, Multiset.filter_add]
  rfl

/-- What `evaluate` decides, with a clock that can be read. -/
theorem evaluate_decides {nowEpoch : Int} (hnow : parseEpoch now = some nowEpoch)
    (bug : List Occurrence) (firstSeen : FirstSeen) (anchor : Option String) (traffic : Nat)
    (th : Thresholds) :
    (evaluate bug firstSeen anchor traffic now th = { status := .active } ↔ anchor = none) ∧
    (∀ fixed, anchor = some fixed → firstSeen.get? fixed = none →
      evaluate bug firstSeen anchor traffic now th =
        { status := .resolving, fixedInBuild := some fixed }) ∧
    (∀ fixed fixEpoch, anchor = some fixed → firstSeen.get? fixed = some fixEpoch →
      let post := postFixes bug firstSeen fixed fixEpoch
      let out := evaluate bug firstSeen anchor traffic now th
      (out.status = .regressed ↔ post ≠ 0) ∧
      (post ≠ 0 → ∃ latest,
        IsGreatest {e | ∃ o ∈ post, parseEpoch o.atTime = some e} latest ∧
        out = { status := .regressed, fixedInBuild := some fixed,
                lastSeenOnFixedBuild := some (epochToRfc3339 latest),
                postFixOccurrences := post.card }) ∧
      (post = 0 →
        out = { status :=
                  if th.resolveQuietSecs ≤ nowEpoch - fixEpoch ∧ th.minPostFixTraffic ≤ traffic
                  then .resolved else .resolving
                fixedInBuild := some fixed })) ∧
    (∀ bug' more : List Occurrence, bug'.Perm (bug ++ more) →
      (∀ fixed fixEpoch, anchor = some fixed → firstSeen.get? fixed = some fixEpoch →
        ∀ o ∈ more, ¬ PostFix firstSeen fixed fixEpoch o) →
      evaluate bug' firstSeen anchor traffic now th =
        evaluate bug firstSeen anchor traffic now th) ∧
    (∀ (bug' : List Occurrence) (o : Occurrence), bug'.Perm (o :: bug) →
      (evaluate bug firstSeen anchor traffic now th).status = .regressed →
      (evaluate bug' firstSeen anchor traffic now th).status = .regressed) := by
  refine ⟨⟨?_, ?_⟩, ?_, ?_, ?_, ?_⟩
  · intro h
    rw [← evaluate_active_iff, h]
  · rintro rfl
    rfl
  · rintro fixed rfl hunseen
    simp only [evaluate, hunseen]
  · rintro fixed fixEpoch rfl hseen
    refine ⟨?_, evaluate_recurring hseen, fun hpost => ?_⟩
    · rw [evaluate_regressed_iff, ne_eq, postFixes_eq_zero_iff, not_not]
      constructor
      · rintro ⟨f, e, hf, he, hrec⟩
        cases hf
        rw [hseen] at he
        cases he
        exact hrec
      · exact fun hrec => ⟨fixed, fixEpoch, rfl, hseen, hrec⟩
    · have hgates : Gates fixEpoch traffic now th ↔
          th.resolveQuietSecs ≤ nowEpoch - fixEpoch ∧ th.minPostFixTraffic ≤ traffic := by
        unfold Gates
        rw [hnow, Option.getD_some]
      simp only [evaluate_quiet hseen hpost, hgates]
  · intro bug' more hperm hmore
    refine evaluate_congr fun fixed fixEpoch hanchor hseen => ?_
    have hnone : postFixes more firstSeen fixed fixEpoch = 0 := by
      rw [Multiset.eq_zero_iff_forall_notMem]
      intro o ho
      obtain ⟨hmem, hpost⟩ := mem_postFixes.1 ho
      exact hmore fixed fixEpoch hanchor hseen o hmem hpost
    rw [postFixes_perm hperm, postFixes_append, hnone, add_zero]
  · intro bug' o hperm h
    rw [evaluate_regressed_iff] at h ⊢
    obtain ⟨fixed, fixEpoch, hanchor, hseen, o', ho', hpost⟩ := h
    exact ⟨fixed, fixEpoch, hanchor, hseen, o', hperm.mem_iff.2 (List.mem_cons_of_mem _ ho'), hpost⟩

/-- A bug that recurs an hour after its fix was seen. -/
theorem evaluate_decides_recurrence :
    (evaluate [⟨toRfc3339 microsPerHour, some "2.0"⟩]
      (firstSeenByBuild [⟨toRfc3339 0, some "2.0"⟩]) (some "2.0") 0 (toRfc3339 0) {}).status =
      .regressed :=
  (((evaluate_decides rfl [⟨toRfc3339 microsPerHour, some "2.0"⟩]
    (firstSeenByBuild [⟨toRfc3339 0, some "2.0"⟩]) (some "2.0") 0 {}).2.2.1 "2.0" 0 rfl rfl).1).2
    (by decide)

/-! ### A clock that cannot be read -/

/-- The clock of 1970 is too early to resolve this bug: it recurs, or traffic is
short, or 1970 falls within the quiet time of the fix. -/
def HeldAt1970 (bug : List Occurrence) (firstSeen : FirstSeen) (anchor : Option String)
    (traffic : Nat) (th : Thresholds) : Prop :=
  ∀ fixed fixEpoch, anchor = some fixed → firstSeen.get? fixed = some fixEpoch →
    Recurs bug firstSeen fixed fixEpoch ∨ traffic < th.minPostFixTraffic ∨
      -th.resolveQuietSecs < fixEpoch

theorem gates_malformed_iff {text : String} :
    Gates fixEpoch traffic (.malformed text) th ↔
      fixEpoch ≤ -th.resolveQuietSecs ∧ th.minPostFixTraffic ≤ traffic := by
  show th.resolveQuietSecs ≤ 0 - fixEpoch ∧ _ ↔ _
  have hneg : th.resolveQuietSecs ≤ 0 - fixEpoch ↔ fixEpoch ≤ -th.resolveQuietSecs := by omega
  rw [hneg]

/-- A clock that cannot be read holds a resolution back exactly when the clock of
1970 would. -/
theorem unreadable_clock_iff (bug : List Occurrence) (firstSeen : FirstSeen)
    (anchor : Option String) (traffic : Nat) (text : String) (th : Thresholds) :
    (evaluate bug firstSeen anchor traffic (.malformed text) th).status ≠ .resolved ↔
      HeldAt1970 bug firstSeen anchor traffic th := by
  rw [ne_eq, evaluate_resolved_iff]
  constructor
  · intro h fixed fixEpoch hanchor hseen
    by_contra hopen
    rw [not_or, not_or, not_lt, not_lt] at hopen
    exact h ⟨fixed, fixEpoch, hanchor, hseen, hopen.1, gates_malformed_iff.2 hopen.2.symm⟩
  · rintro h ⟨fixed, fixEpoch, hanchor, hseen, hrec, hgates⟩
    obtain ⟨hquiet, htraffic⟩ := gates_malformed_iff.1 hgates
    rcases h fixed fixEpoch hanchor hseen with hrec' | hshort | hlate
    · exact hrec hrec'
    · exact absurd hshort (not_lt.2 htraffic)
    · exact absurd hlate (not_lt.2 hquiet)

/-- A fix first seen ten days before 1970 is resolved by a clock that cannot be
read. -/
theorem unreadable_clock_resolves :
    ¬ ∀ (bug : List Occurrence) (firstSeen : FirstSeen) (anchor : Option String) (traffic : Nat)
      (text : String) (th : Thresholds), 0 ≤ th.resolveQuietSecs →
      (evaluate bug firstSeen anchor traffic (.malformed text) th).status ≠ .resolved := by
  intro h
  have hheld := h [] (firstSeenByBuild [⟨toRfc3339 (-240 * microsPerHour), some "2.0"⟩])
    (some "2.0") 50 "yesterday" {} (by decide)
  exact hheld (by decide)

/-! ### The regressed build -/

/-- The epoch and build of a post-fix occurrence, as `latestPostFixBuild` collects
them. -/
def recurrenceOf (firstSeen : FirstSeen) (fixed : String) (fixEpoch : Int) (o : Occurrence) :
    Option (Int × String) :=
  match o.build, parseEpoch o.atTime with
  | some build, some epoch =>
    (firstSeen.get? build).bind fun buildEpoch =>
      if fixEpoch ≤ epoch ∧ (build = fixed ∨ fixEpoch ≤ buildEpoch) then some (epoch, build)
      else none
  | _, _ => none

/-- The fixed build is in the map, so asking for every build's entry loses none. -/
theorem recurrenceOf_eq_some (hseen : firstSeen.get? fixed = some fixEpoch) {o : Occurrence}
    {epoch : Int} {build : String} :
    recurrenceOf firstSeen fixed fixEpoch o = some (epoch, build) ↔
      PostFix firstSeen fixed fixEpoch o ∧ o.build = some build ∧
        parseEpoch o.atTime = some epoch := by
  unfold recurrenceOf PostFix
  cases o.build with
  | none => simp
  | some b =>
    cases parseEpoch o.atTime with
    | none => simp
    | some e =>
      dsimp only
      cases hb : firstSeen.get? b with
      | none =>
        have hne : b ≠ fixed := by
          rintro rfl
          rw [hseen] at hb
          cases hb
        simp [hb, hne]
      | some buildEpoch =>
        simp only [Option.bind_some, Option.ite_none_right_eq_some, Option.some.injEq,
          Prod.mk.injEq]
        constructor
        · rintro ⟨⟨hafter, hbuild⟩, rfl, rfl⟩
          exact ⟨⟨b, e, rfl, rfl, hbuild.imp_right fun h => ⟨buildEpoch, hb, h⟩, hafter⟩, rfl, rfl⟩
        · rintro ⟨⟨_, _, rfl, rfl, hbuild, hafter⟩, rfl, rfl⟩
          refine ⟨⟨hafter, hbuild.imp_right ?_⟩, rfl, rfl⟩
          rintro ⟨buildEpoch', hb', h⟩
          rw [hb] at hb'
          cases hb'
          exact h

/-- One turn of the search for the latest: an equal epoch displaces. -/
def laterRecurrence (best : Option (Int × String)) (r : Int × String) : Option (Int × String) :=
  match best with
  | none => some r
  | some b => if b.1 ≤ r.1 then some r else some b

theorem foldl_laterRecurrence {l : List (Int × String)} (hl : l ≠ []) :
    ∃ r ∈ l, l.foldl laterRecurrence none = some r ∧ ∀ a ∈ l, a.1 ≤ r.1 :=
  foldl_lastMax (fun _ => rfl) (fun _ _ => rfl) hl

theorem latestPostFixBuild_seen (hseen : firstSeen.get? fixed = some fixEpoch) :
    latestPostFixBuild bug firstSeen fixed =
      ((bug.filterMap (recurrenceOf firstSeen fixed fixEpoch)).foldl laterRecurrence none).map
        Prod.snd := by
  simp only [latestPostFixBuild, hseen]
  rfl

theorem mem_recurrences (hseen : firstSeen.get? fixed = some fixEpoch) {epoch : Int}
    {build : String} :
    (epoch, build) ∈ bug.filterMap (recurrenceOf firstSeen fixed fixEpoch) ↔
      ∃ o ∈ postFixes bug firstSeen fixed fixEpoch,
        o.build = some build ∧ parseEpoch o.atTime = some epoch := by
  simp only [List.mem_filterMap, recurrenceOf_eq_some hseen, mem_postFixes, and_assoc]

/-- The regressed build is reported exactly when the verdict is a regression, and
it is the build of an occurrence that the verdict dates. -/
theorem latestPostFixBuild_decides (bug : List Occurrence) (firstSeen : FirstSeen)
    (fixed : String) (traffic : Nat) (now : Rfc3339) (th : Thresholds) :
    let out := evaluate bug firstSeen (some fixed) traffic now th
    ((latestPostFixBuild bug firstSeen fixed).isSome ↔ out.status = .regressed) ∧
    ∀ build, latestPostFixBuild bug firstSeen fixed = some build →
      ∃ fixEpoch epoch, firstSeen.get? fixed = some fixEpoch ∧
        (∃ o ∈ postFixes bug firstSeen fixed fixEpoch,
          o.build = some build ∧ parseEpoch o.atTime = some epoch) ∧
        IsGreatest {e | ∃ o ∈ postFixes bug firstSeen fixed fixEpoch,
          parseEpoch o.atTime = some e} epoch ∧
        out.lastSeenOnFixedBuild = some (epochToRfc3339 epoch) := by
  intro out
  cases hseen : firstSeen.get? fixed with
  | none => simp [latestPostFixBuild, out, evaluate, hseen]
  | some fixEpoch =>
    rw [latestPostFixBuild_seen hseen]
    by_cases hpost : postFixes bug firstSeen fixed fixEpoch = 0
    · have hnil : bug.filterMap (recurrenceOf firstSeen fixed fixEpoch) = [] := by
        rw [List.eq_nil_iff_forall_not_mem]
        rintro ⟨epoch, build⟩ hmem
        obtain ⟨o, ho, -⟩ := (mem_recurrences hseen).1 hmem
        rw [hpost] at ho
        exact Multiset.notMem_zero o ho
      have hquiet : out = _ := evaluate_quiet hseen hpost
      rw [hnil, hquiet]
      split <;> simp
    · obtain ⟨latest, hlatest, hrec⟩ := evaluate_recurring hseen hpost
      have hout : out = _ := hrec
      obtain ⟨o, ho, hepoch⟩ := hlatest.1
      obtain ⟨-, onBuild, _, hbuild, -⟩ := mem_postFixes.1 ho
      have hmem : (latest, onBuild) ∈ bug.filterMap (recurrenceOf firstSeen fixed fixEpoch) :=
        (mem_recurrences hseen).2 ⟨o, ho, hbuild, hepoch⟩
      obtain ⟨⟨epoch, regressed⟩, hr, hfold, hmax⟩ :=
        foldl_laterRecurrence (List.ne_nil_of_mem hmem)
      obtain ⟨o', ho', hbuild', hepoch'⟩ := (mem_recurrences hseen).1 hr
      have hsame : epoch = latest := le_antisymm (hlatest.2 ⟨o', ho', hepoch'⟩) (hmax _ hmem)
      subst hsame
      rw [hfold, hout]
      refine ⟨⟨fun _ => rfl, fun _ => rfl⟩, fun build hsome => ?_⟩
      cases hsome
      exact ⟨fixEpoch, epoch, rfl, ⟨o', ho', hbuild', hepoch'⟩, hlatest, rfl⟩

end Verdict

/-! ## Traffic -/

/-- The occurrence is on that build and its time can be read. -/
def ReadableOn (build : Option String) (o : Occurrence) : Bool :=
  o.build.isSome && o.build = build && (parseEpoch o.atTime).isSome

/-- The instants of a build's readable occurrences. -/
def timesOf (stream : List Occurrence) (build : String) : Set Micros :=
  {t | ∃ o ∈ stream, o.build = some build ∧ o.atTime = .instant t}

/-- The rows hold the stream by build: one row for every build with a readable
occurrence, with the earliest of its times and the number of them. -/
structure Aggregates (stream : List Occurrence) (rows : List (Occurrence × Nat)) : Prop where
  one_row : (rows.map fun r => r.1.build).Nodup
  every_build : ∀ build, (timesOf stream build).Nonempty → ∃ r ∈ rows, r.1.build = some build
  row : ∀ r ∈ rows, ∃ build earliest, r.1.build = some build ∧ r.1.atTime = .instant earliest ∧
    IsLeast (timesOf stream build) earliest ∧ r.2 = stream.countP (ReadableOn (some build))

theorem readableOn_iff {build : String} {o : Occurrence} :
    ReadableOn (some build) o = true ↔
      o.build = some build ∧ ∃ epoch, parseEpoch o.atTime = some epoch := by
  rw [ReadableOn, Bool.and_eq_true, Bool.and_eq_true, decide_eq_true_eq, Option.isSome_iff_exists,
    Option.isSome_iff_exists]
  constructor
  · rintro ⟨⟨-, hbuild⟩, hepoch⟩
    exact ⟨hbuild, hepoch⟩
  · rintro ⟨hbuild, hepoch⟩
    exact ⟨⟨⟨build, hbuild⟩, hbuild⟩, hepoch⟩

theorem parseEpoch_eq_some {text : Rfc3339} {epoch : Int} :
    parseEpoch text = some epoch ↔ ∃ t, text = .instant t ∧ epochOf t = epoch := by
  cases text with
  | instant t => simp [parseEpoch]
  | malformed text => simp [parseEpoch]

theorem seenAt_eq_image (stream : List Occurrence) (build : String) :
    {e | SeenAt stream build e} = epochOf '' timesOf stream build := by
  ext e
  show SeenAt stream build e ↔ ∃ t, (∃ o ∈ stream, _ ∧ _) ∧ epochOf t = e
  simp only [SeenAt, parseEpoch_eq_some]
  constructor
  · rintro ⟨o, ho, hbuild, t, ht, he⟩
    exact ⟨t, ⟨o, ho, hbuild, ht⟩, he⟩
  · rintro ⟨t, ⟨o, ho, hbuild, ht⟩, he⟩
    exact ⟨o, ho, hbuild, t, ht, he⟩

namespace Aggregates

variable {stream : List Occurrence} {rows : List (Occurrence × Nat)}

/-- The row of a build has the epoch the build was first seen at. -/
theorem row_epoch (h : Aggregates stream rows) {r : Occurrence × Nat} (hr : r ∈ rows) :
    ∃ build epoch, r.1.build = some build ∧ parseEpoch r.1.atTime = some epoch ∧
      (firstSeenByBuild stream).get? build = some epoch ∧
      r.2 = stream.countP (ReadableOn (some build)) := by
  obtain ⟨build, earliest, hbuild, htime, hleast, hcount⟩ := h.row r hr
  refine ⟨build, epochOf earliest, hbuild, ?_, ?_, hcount⟩
  · rw [htime]
    rfl
  · rw [get?_firstSeenByBuild, seenAt_eq_image]
    exact Monotone.map_isLeast (fun _ _ hle => epochOf_mono hle) hleast

theorem exists_row (h : Aggregates stream rows) {build : String} {epoch : Int}
    (hseen : SeenAt stream build epoch) : ∃ r ∈ rows, r.1.build = some build := by
  obtain ⟨o, ho, hbuild, hepoch⟩ := hseen
  obtain ⟨t, ht, -⟩ := parseEpoch_eq_some.1 hepoch
  exact h.every_build build ⟨t, o, ho, hbuild, ht⟩

/-- The rows order the builds as the stream does. -/
theorem get?_firstSeen (h : Aggregates stream rows) (build : String) :
    (firstSeenByBuild (rows.map Prod.fst)).get? build = (firstSeenByBuild stream).get? build := by
  have hrow : ∀ epoch, SeenAt (rows.map Prod.fst) build epoch →
      (firstSeenByBuild stream).get? build = some epoch := by
    rintro epoch ⟨o, ho, hbuild, hepoch⟩
    obtain ⟨r, hr, rfl⟩ := List.mem_map.1 ho
    obtain ⟨build', epoch', hbuild', hepoch', hseen, -⟩ := h.row_epoch hr
    rw [hbuild', Option.some.injEq] at hbuild
    rw [hepoch', Option.some.injEq] at hepoch
    rw [← hbuild, ← hepoch, hseen]
  ext epoch
  constructor
  · intro hseen
    exact hrow epoch (get?_firstSeenByBuild.1 hseen).1
  · intro hseen
    obtain ⟨r, hr, hbuild⟩ := h.exists_row (get?_firstSeenByBuild.1 hseen).1
    obtain ⟨build', epoch', hbuild', hepoch', hseen', -⟩ := h.row_epoch hr
    rw [hbuild', Option.some.injEq] at hbuild
    rw [hbuild, hseen, Option.some.injEq] at hseen'
    rw [hbuild] at hbuild'
    rw [← hseen'] at hepoch'
    refine get?_firstSeenByBuild.2 ⟨⟨r.1, List.mem_map_of_mem hr, hbuild', hepoch'⟩, ?_⟩
    intro epoch'' hother
    have hsame := hrow epoch'' hother
    rw [hseen, Option.some.injEq] at hsame
    exact hsame.le

end Aggregates

theorem postFix_congr {firstSeen firstSeen' : FirstSeen}
    (h : ∀ build, firstSeen.get? build = firstSeen'.get? build) (fixed : String) (fixEpoch : Int) :
    postFix firstSeen fixed fixEpoch = postFix firstSeen' fixed fixEpoch := by
  funext o
  simp only [postFix, onOrAfter, h]

/-- An occurrence counts when the row of its build does: the build's first sight
is then no earlier than the fix, and none of its occurrences is before it. -/
theorem Aggregates.postFix_iff_row {stream : List Occurrence} {rows : List (Occurrence × Nat)}
    (h : Aggregates stream rows) {fixed : String} {fixEpoch : Int}
    (hfix : (firstSeenByBuild stream).get? fixed = some fixEpoch) {o : Occurrence}
    (ho : o ∈ stream) :
    postFix (firstSeenByBuild stream) fixed fixEpoch o = true ↔
      ∃ r ∈ rows, postFix (firstSeenByBuild stream) fixed fixEpoch r.1 = true ∧
        ReadableOn r.1.build o = true := by
  constructor
  · intro hpost
    obtain ⟨build, epoch, hbuild, hepoch, hafter, hlate⟩ := postFix_iff.1 hpost
    obtain ⟨r, hr, hrbuild⟩ := h.exists_row ⟨o, ho, hbuild, hepoch⟩
    obtain ⟨build', first, hbuild', hfirst, hseen, -⟩ := h.row_epoch hr
    rw [hrbuild, Option.some.injEq] at hbuild'
    subst hbuild'
    refine ⟨r, hr, postFix_iff.2 ⟨build, first, hrbuild, hfirst, hafter, ?_⟩, ?_⟩
    · rcases hafter with rfl | ⟨buildEpoch, hbuildEpoch, hle⟩
      · rw [hfix, Option.some.injEq] at hseen
        exact hseen.le
      · rw [hseen, Option.some.injEq] at hbuildEpoch
        exact hbuildEpoch ▸ hle
    · rw [hrbuild]
      exact readableOn_iff.2 ⟨hbuild, epoch, hepoch⟩
  · rintro ⟨r, hr, hpost, hread⟩
    obtain ⟨build, first, hbuild, hfirst, hafter, hlate⟩ := postFix_iff.1 hpost
    obtain ⟨build', first', hbuild', hfirst', hseen, -⟩ := h.row_epoch hr
    rw [hbuild', Option.some.injEq] at hbuild
    rw [hfirst', Option.some.injEq] at hfirst
    subst hbuild hfirst
    rw [hbuild'] at hread
    obtain ⟨hobuild, epoch, hepoch⟩ := readableOn_iff.1 hread
    have hle : first' ≤ epoch := (get?_firstSeenByBuild.1 hseen).2 ⟨o, ho, hobuild, hepoch⟩
    exact postFix_iff.2 ⟨build', epoch, hobuild, hepoch, hafter, hlate.trans hle⟩

/-- Traffic counted by build is traffic counted by occurrence. -/
theorem postFixTraffic_eq_build {stream : List Occurrence} {rows : List (Occurrence × Nat)}
    (h : Aggregates stream rows) (fixed : String) :
    postFixTraffic stream fixed = postFixBuildTraffic rows fixed := by
  unfold postFixTraffic postFixBuildTraffic
  simp only [h.get?_firstSeen]
  cases hfix : (firstSeenByBuild stream).get? fixed with
  | none => rfl
  | some fixEpoch =>
    simp only [postFix_congr h.get?_firstSeen fixed fixEpoch]
    set counted := rows.filter fun r => postFix (firstSeenByBuild stream) fixed fixEpoch r.1
    have hcounts : counted.map Prod.snd =
        counted.map fun r => stream.countP (ReadableOn r.1.build) := by
      apply List.map_congr_left
      intro r hr
      obtain ⟨build, -, hbuild, -, -, hcount⟩ := h.row_epoch (List.mem_of_mem_filter hr)
      rw [hcount, hbuild]
    have hdisjoint : counted.Pairwise fun r s => ∀ o ∈ stream, ReadableOn r.1.build o = true →
        ReadableOn s.1.build o = false := by
      have hne : rows.Pairwise fun r s => r.1.build ≠ s.1.build := List.pairwise_map.1 h.one_row
      refine (hne.filter _).imp fun {r s} hrs o _ hread => ?_
      rw [ReadableOn, Bool.and_eq_true, Bool.and_eq_true, decide_eq_true_eq] at hread
      simp [ReadableOn, hread.1.2, hrs]
    calc (stream.filter (postFix (firstSeenByBuild stream) fixed fixEpoch)).length
        = stream.countP (postFix (firstSeenByBuild stream) fixed fixEpoch) :=
          List.countP_eq_length_filter.symm
      _ = stream.countP fun o => counted.any fun r => ReadableOn r.1.build o := by
          refine List.countP_congr fun o ho => ?_
          rw [h.postFix_iff_row hfix ho, List.any_eq_true]
          simp only [counted, List.mem_filter, and_assoc]
      _ = (counted.map fun r => stream.countP (ReadableOn r.1.build)).sum :=
          (sum_countP hdisjoint).symm
      _ = (counted.map Prod.snd).sum := by rw [hcounts]

/-- Two readable occurrences of a build, one without a time and one without a
build. -/
def mixedStream : List Occurrence :=
  [⟨.instant 5, some "2.0"⟩, ⟨.malformed "", some "2.0"⟩, ⟨.instant 0, some "2.0"⟩,
    ⟨.instant 7, none⟩]

theorem mixedStream_aggregates :
    Aggregates mixedStream [(⟨.instant 0, some "2.0"⟩, 2)] where
  one_row := by decide
  every_build := by
    rintro build ⟨t, o, ho, hbuild, ht⟩
    simp only [mixedStream, List.mem_cons, List.not_mem_nil, or_false] at ho
    rcases ho with rfl | rfl | rfl | rfl <;> simp_all
  row := by
    intro r hr
    rw [List.mem_singleton] at hr
    subst hr
    refine ⟨"2.0", 0, rfl, rfl, ⟨⟨⟨.instant 0, some "2.0"⟩, by decide, rfl, rfl⟩, ?_⟩, by decide⟩
    rintro t ⟨o, ho, hbuild, ht⟩
    simp only [mixedStream, List.mem_cons, List.not_mem_nil, or_false] at ho
    rcases ho with rfl | rfl | rfl | rfl
    · cases ht
      decide
    · cases ht
    · cases ht
      decide
    · cases hbuild

theorem postFixTraffic_eq_build_mixed :
    postFixTraffic mixedStream "2.0" =
      postFixBuildTraffic [(⟨.instant 0, some "2.0"⟩, 2)] "2.0" :=
  postFixTraffic_eq_build mixedStream_aggregates "2.0"

end ReproitCloud
