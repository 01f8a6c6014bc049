import ReproitCloud.Data.Time
import ReproitCloud.Lib.Accumulate

/-!
# The occurrence series of a bucket

`timelineWeighted` counts occurrences by window and build, and by window alone.  A window
starts at a multiple of its size, rounded towards the past, and is labelled with the text
of its start.  A time that does not parse is taken for the epoch 0, and so is the label of
a start that `chrono` has no date for.

The counts are unbounded.  `timeline_loses_nothing` states the series by its windows where
every label is that of its window.
-/

namespace ReproitCloud

open Lib

/-! ## The series -/

structure TimelineCell where
  window : Rfc3339
  build : String
  count : Nat
deriving DecidableEq

structure TimelineCount where
  window : Rfc3339
  count : Nat
deriving DecidableEq

structure Timeline where
  cells : List TimelineCell
  total : List TimelineCount
deriving DecidableEq

/-- `DEFAULT_TIMELINE_WINDOW_SECS`. -/
def defaultTimelineWindowSecs : Int := 3600

/-- The text of an epoch second. -/
def ofEpoch (epoch : Int) : Rfc3339 := toRfc3339 (epoch * microsPerSecond)

/-- The epochs that `DateTime::from_timestamp` has a date for: the years -262143 to 262142. -/
def hasDate (epoch : Int) : Bool := -8334601228800 ≤ epoch && epoch ≤ 8210266876799

/-- `epoch_to_rfc3339`. -/
def Timeline.epochToRfc3339 (epoch : Int) : Rfc3339 := if hasDate epoch then ofEpoch epoch else ofEpoch 0

/-- The start of the window of a timestamp. -/
def windowStart (windowSecs : Int) (ts : Rfc3339) : Int :=
  (parseEpoch ts).getD 0 / windowSecs * windowSecs

/-- `timeline_weighted`. -/
def timelineWeighted (occurrences : List (Rfc3339 × Option String × Nat)) (windowSecs : Int) :
    Timeline :=
  let windowSecs := max windowSecs 1
  let (cells, totals) := occurrences.foldl
    (fun (acc : Table (Int × String) Nat × Table Int Nat) (ts, build, count) =>
      let win := windowStart windowSecs ts
      let build := build.getD "unknown"
      (acc.1.add (win, build) count, acc.2.add win count))
    (.empty, .empty)
  { cells := (cells.entries toLex).map fun r => ⟨Timeline.epochToRfc3339 r.1.1, r.1.2, r.2⟩
    total := (totals.entries id).map fun r => ⟨Timeline.epochToRfc3339 r.1, r.2⟩ }

/-- `timeline`. -/
def timeline (occ : List (Rfc3339 × Option String)) (windowSecs : Int) : Timeline :=
  timelineWeighted (occ.map fun o => (o.1, o.2, 1)) windowSecs

/-- Three occurrences in two hours, one of them without a build. -/
example : timelineWeighted
    [(.instant 3600000000, some "1.1", 2), (.instant 300000000, some "1.0", 1),
      (.instant 3599999999, none, 4)] defaultTimelineWindowSecs =
    ⟨[⟨.instant 0, "1.0", 1⟩, ⟨.instant 0, "unknown", 4⟩, ⟨.instant 3600000000, "1.1", 2⟩],
      [⟨.instant 0, 5⟩, ⟨.instant 3600000000, 2⟩]⟩ := by
  decide +kernel

/-! ## The windows -/

section Windows

variable {occ : List (Rfc3339 × Option String × Nat)} {windowSecs w : Int}

/-- The cells that the occurrences add to. -/
def cellRows (windowSecs : Int) (occ : List (Rfc3339 × Option String × Nat)) :
    List ((Int × String) × Nat) :=
  occ.map fun o => ((windowStart windowSecs o.1, o.2.1.getD "unknown"), o.2.2)

/-- The windows that the cells add to. -/
def windowRows (rows : List ((Int × String) × Nat)) : List (Int × Nat) :=
  rows.map fun r => (r.1.1, r.2)

/-- The two maps are filled apart. -/
theorem timelineWeighted_eq (occ : List (Rfc3339 × Option String × Nat)) (windowSecs : Int) :
    timelineWeighted occ windowSecs =
      { cells := ((weighted (cellRows (max windowSecs 1) occ)).entries toLex).map
          fun r => ⟨Timeline.epochToRfc3339 r.1.1, r.1.2, r.2⟩
        total := ((weighted (windowRows (cellRows (max windowSecs 1) occ))).entries id).map
          fun r => ⟨Timeline.epochToRfc3339 r.1, r.2⟩ } := by
  have hfold : ∀ (occ : List (Rfc3339 × Option String × Nat)) (w : Int)
      (acc : Table (Int × String) Nat × Table Int Nat),
      occ.foldl (fun acc o =>
          (acc.1.add (windowStart w o.1, o.2.1.getD "unknown") o.2.2,
            acc.2.add (windowStart w o.1) o.2.2)) acc =
        ((cellRows w occ).foldl (fun t r => t.add r.1 r.2) acc.1,
          (windowRows (cellRows w occ)).foldl (fun t r => t.add r.1 r.2) acc.2) := by
    intro occ w
    induction occ with
    | nil => exact fun acc => rfl
    | cons o occ ih => exact fun acc => ih _
  exact congrArg (fun acc : Table (Int × String) Nat × Table Int Nat =>
    ({ cells := (acc.1.entries toLex).map fun r => ⟨Timeline.epochToRfc3339 r.1.1, r.1.2, r.2⟩
       total := (acc.2.entries id).map fun r => ⟨Timeline.epochToRfc3339 r.1, r.2⟩ } : Timeline))
    (hfold occ (max windowSecs 1) (.empty, .empty))

theorem ofEpoch_inj {s s' : Int} : ofEpoch s = ofEpoch s' ↔ s = s' := by
  rw [ofEpoch, ofEpoch, toRfc3339, toRfc3339, Rfc3339.instant.injEq]
  exact mul_left_inj' (by decide)

/-- The window of an instant holds it. -/
theorem windowStart_le {w e : Int} {ts : Rfc3339} (hw : 0 < w) (he : parseEpoch ts = some e) :
    windowStart w ts ≤ e ∧ e < windowStart w ts + w := by
  have hdiv := Int.ediv_mul_add_emod e w
  have hnonneg := Int.emod_nonneg e hw.ne'
  have hlt := Int.emod_lt_of_pos e hw
  rw [windowStart, he, Option.getD_some]
  omega

/-- A window of at most 250000 years, of a time with a year of four digits, has a date. -/
theorem hasDate_windowStart {w : Int} {ts : Rfc3339} (hw : 0 < w) (hsize : w ≤ 7884000000000)
    (hts : ∀ e ∈ parseEpoch ts, -62167305600 < e ∧ e < 253402387200) :
    hasDate (windowStart w ts) = true := by
  have hepoch : -62167305600 < (parseEpoch ts).getD 0 ∧ (parseEpoch ts).getD 0 < 253402387200 := by
    cases hparse : parseEpoch ts with
    | none => exact ⟨by decide, by decide⟩
    | some e => exact hts e (by rw [hparse, Option.mem_some_iff])
  have hdiv := Int.ediv_mul_add_emod ((parseEpoch ts).getD 0) w
  have hnonneg := Int.emod_nonneg ((parseEpoch ts).getD 0) hw.ne'
  have hlt := Int.emod_lt_of_pos ((parseEpoch ts).getD 0) hw
  rw [hasDate, windowStart, Bool.and_eq_true, decide_eq_true_iff, decide_eq_true_iff]
  omega

/-- What the labels of a series say of its windows. -/
structure ShowsWindows (occ : List (Rfc3339 × Option String × Nat)) (w : Int) (t : Timeline) :
    Prop where
  /-- The totals are of ascending multiples of the window size. -/
  aligned : ∃ starts : List Int, t.total.map TimelineCount.window = starts.map ofEpoch ∧
    starts.Pairwise (· < ·) ∧ ∀ s ∈ starts, w ∣ s
  /-- The cells ascend by window and build. -/
  ordered : ∃ keys : List (Int × String),
    (t.cells.map fun c => (c.window, c.build)) = keys.map (fun k => (ofEpoch k.1, k.2)) ∧
      keys.Pairwise fun k k' => toLex k < toLex k'
  /-- The cells of a window add up to its total. -/
  adds_up : ∀ n ∈ t.total, ((t.cells.filter fun c => c.window = n.window).map
    TimelineCell.count).sum = n.count
  /-- The window of a cell has a total. -/
  totalled : ∀ c ∈ t.cells, ∃ n ∈ t.total, n.window = c.window
  /-- A cell counts the occurrences of its window and build. -/
  counted : ∀ c ∈ t.cells, ∃ s, c.window = ofEpoch s ∧ c.count =
    ((occ.filter fun o => windowStart w o.1 = s ∧ o.2.1.getD "unknown" = c.build).map
      fun o => o.2.2).sum
  /-- An occurrence lands in the window that holds its instant. -/
  lands : ∀ o ∈ occ, ∀ e, parseEpoch o.1 = some e → ∃ s, s ≤ e ∧ e < s + w ∧ w ∣ s ∧
    ∃ c ∈ t.cells, c.window = ofEpoch s ∧ c.build = o.2.1.getD "unknown"

theorem sum_cells (occ : List (Rfc3339 × Option String × Nat)) (windowSecs : Int) :
    ((timelineWeighted occ windowSecs).cells.map TimelineCell.count).sum =
      (occ.map fun o => o.2.2).sum := by
  rw [timelineWeighted_eq, List.map_map]
  calc _ = weightIn ((weighted (cellRows (max windowSecs 1) occ)).entries toLex)
        (fun _ => true) := (weightIn_true _).symm
    _ = weightIn (cellRows (max windowSecs 1) occ) (fun _ => true) := by
        rw [weightIn_perm (Table.entries_perm _ _), weightIn_weighted]
    _ = _ := by
        rw [weightIn_true, cellRows, List.map_map]
        rfl

theorem sum_totals (occ : List (Rfc3339 × Option String × Nat)) (windowSecs : Int) :
    ((timelineWeighted occ windowSecs).total.map TimelineCount.count).sum =
      (occ.map fun o => o.2.2).sum := by
  rw [timelineWeighted_eq, List.map_map]
  calc _ = weightIn ((weighted (windowRows (cellRows (max windowSecs 1) occ))).entries id)
        (fun _ => true) := (weightIn_true _).symm
    _ = weightIn (windowRows (cellRows (max windowSecs 1) occ)) (fun _ => true) := by
        rw [weightIn_perm (Table.entries_perm _ _), weightIn_weighted]
    _ = _ := by
        rw [weightIn_true, windowRows, cellRows, List.map_map, List.map_map]
        rfl

/-- A row in place of several of the same time and build. -/
theorem timelineWeighted_split (before after : List (Rfc3339 × Option String × Nat))
    (ts : Rfc3339) (build : Option String) {ns : List Nat} (hns : ns ≠ []) :
    timelineWeighted (before ++ ns.map (ts, build, ·) ++ after) windowSecs =
      timelineWeighted (before ++ (ts, build, ns.sum) :: after) windowSecs := by
  have hmany : ∀ w, cellRows w (before ++ ns.map (ts, build, ·) ++ after) = cellRows w before ++
      ns.map ((windowStart w ts, build.getD "unknown"), ·) ++ cellRows w after := by
    intro w
    simp [cellRows]
  have hone : ∀ w, cellRows w (before ++ (ts, build, ns.sum) :: after) = cellRows w before ++
      ((windowStart w ts, build.getD "unknown"), ns.sum) :: cellRows w after := by
    intro w
    simp [cellRows]
  have hcells : ∀ w, weighted (cellRows w (before ++ ns.map (ts, build, ·) ++ after)) =
      weighted (cellRows w (before ++ (ts, build, ns.sum) :: after)) := by
    intro w
    rw [hmany, hone]
    exact weighted_split _ _ _ hns
  have htotals : ∀ w,
      weighted (windowRows (cellRows w (before ++ ns.map (ts, build, ·) ++ after))) =
        weighted (windowRows (cellRows w (before ++ (ts, build, ns.sum) :: after))) := by
    intro w
    have hsplit := weighted_split (windowRows (cellRows w before)) (windowRows (cellRows w after))
      (windowStart w ts) hns
    rw [hmany, hone]
    simpa [windowRows, Function.comp_def] using hsplit
  rw [timelineWeighted_eq, timelineWeighted_eq, hcells, htotals]

/-- Where every window has a date, the labels are those of the windows. -/
theorem showsWindows (hw : 0 < w) (hdates : ∀ o ∈ occ, hasDate (windowStart w o.1) = true) :
    ShowsWindows occ w
      { cells := ((weighted (cellRows w occ)).entries toLex).map
          fun r => ⟨Timeline.epochToRfc3339 r.1.1, r.1.2, r.2⟩
        total := ((weighted (windowRows (cellRows w occ))).entries id).map
          fun r => ⟨Timeline.epochToRfc3339 r.1, r.2⟩ } := by
  have hcell : ∀ {k n}, (k, n) ∈ (weighted (cellRows w occ)).entries toLex ↔
      (∃ o ∈ occ, (windowStart w o.1, o.2.1.getD "unknown") = k) ∧
        n = weightIn (cellRows w occ) fun k' => k' = k := by
    intro k n
    rw [Table.mem_entries, mem_weighted, cellRows, List.map_map, List.mem_map]
    rfl
  have htotal : ∀ {s n}, (s, n) ∈ (weighted (windowRows (cellRows w occ))).entries id ↔
      (∃ o ∈ occ, windowStart w o.1 = s) ∧
        n = weightIn (windowRows (cellRows w occ)) fun s' => s' = s := by
    intro s n
    rw [Table.mem_entries, mem_weighted, windowRows, cellRows, List.map_map, List.map_map,
      List.mem_map]
    rfl
  have hlabel : ∀ o ∈ occ, Timeline.epochToRfc3339 (windowStart w o.1) = ofEpoch (windowStart w o.1) :=
    fun o ho => if_pos (hdates o ho)
  have hcellLabel : ∀ r ∈ (weighted (cellRows w occ)).entries toLex,
      Timeline.epochToRfc3339 r.1.1 = ofEpoch r.1.1 := by
    intro r hr
    obtain ⟨⟨o, ho, hk⟩, -⟩ := hcell.1 hr
    rw [← hk]
    exact hlabel o ho
  have htotalLabel : ∀ r ∈ (weighted (windowRows (cellRows w occ))).entries id,
      Timeline.epochToRfc3339 r.1 = ofEpoch r.1 := by
    intro r hr
    obtain ⟨⟨o, ho, hk⟩, -⟩ := htotal.1 hr
    rw [← hk]
    exact hlabel o ho
  constructor
  case aligned =>
    refine ⟨((weighted (windowRows (cellRows w occ))).entries id).map Prod.fst, ?_, ?_, ?_⟩
    · rw [List.map_map, List.map_map]
      exact List.map_congr_left htotalLabel
    · rw [List.pairwise_map]
      exact Table.entries_pairwise Function.injective_id
    · intro s hs
      obtain ⟨⟨s, n⟩, hr, rfl⟩ := List.mem_map.1 hs
      obtain ⟨⟨o, -, rfl⟩, -⟩ := htotal.1 hr
      exact Int.dvd_mul_left _ _
  case ordered =>
    refine ⟨((weighted (cellRows w occ)).entries toLex).map Prod.fst, ?_, ?_⟩
    · rw [List.map_map, List.map_map]
      exact List.map_congr_left fun r hr => congrArg (·, r.1.2) (hcellLabel r hr)
    · rw [List.pairwise_map]
      exact Table.entries_pairwise toLex.injective
  case adds_up =>
    intro n hn
    obtain ⟨⟨s, m⟩, hr, rfl⟩ := List.mem_map.1 hn
    have hsum : ((((weighted (cellRows w occ)).entries toLex).filter fun r => r.1.1 = s).map
        Prod.snd).sum = m := by
      calc _ = weightIn ((weighted (cellRows w occ)).entries toLex) (fun k => k.1 = s) := rfl
        _ = weightIn (cellRows w occ) (fun k => k.1 = s) := by
            rw [weightIn_perm (Table.entries_perm _ _), weightIn_weighted]
        _ = weightIn (windowRows (cellRows w occ)) (fun s' => s' = s) :=
            (weightIn_map Prod.fst (cellRows w occ) fun s' => s' = s).symm
        _ = m := (htotal.1 hr).2.symm
    rw [List.filter_map, List.map_map, ← hsum]
    congr 1
    refine congrArg (List.map _) (List.filter_congr fun r hrow => ?_)
    simp only [Function.comp_apply, hcellLabel r hrow, htotalLabel _ hr, ofEpoch_inj]
  case totalled =>
    intro c hc
    obtain ⟨⟨k, n⟩, hr, rfl⟩ := List.mem_map.1 hc
    obtain ⟨⟨o, ho, rfl⟩, -⟩ := hcell.1 hr
    exact ⟨_, List.mem_map.2 ⟨_, htotal.2 ⟨⟨o, ho, rfl⟩, rfl⟩, rfl⟩, rfl⟩
  case counted =>
    intro c hc
    obtain ⟨⟨k, n⟩, hr, rfl⟩ := List.mem_map.1 hc
    have hn := (hcell.1 hr).2
    rw [weightIn, cellRows, List.filter_map, List.map_map] at hn
    refine ⟨k.1, hcellLabel _ hr, hn.trans (congrArg List.sum (congrArg (List.map _) ?_))⟩
    refine List.filter_congr fun o _ => ?_
    simp [Prod.ext_iff]
  case lands =>
    intro o ho e he
    obtain ⟨hle, hlt⟩ := windowStart_le hw he
    refine ⟨windowStart w o.1, hle, hlt, Int.dvd_mul_left _ _, _,
      List.mem_map.2 ⟨_, hcell.2 ⟨⟨o, ho, rfl⟩, rfl⟩, rfl⟩, hlabel o ho, rfl⟩

/-- The counts are kept, in how many rows they come does not matter, and the labels are those
of the windows where these have dates. -/
theorem timeline_loses_nothing (occ : List (Rfc3339 × Option String × Nat)) (windowSecs : Int) :
    ((timelineWeighted occ windowSecs).cells.map TimelineCell.count).sum =
        (occ.map fun o => o.2.2).sum ∧
      ((timelineWeighted occ windowSecs).total.map TimelineCount.count).sum =
        (occ.map fun o => o.2.2).sum ∧
      (∀ rows : List (Rfc3339 × Option String), occ = rows.map (fun o => (o.1, o.2, 1)) →
        timeline rows windowSecs = timelineWeighted occ windowSecs) ∧
      (∀ before after ts build ns, ns ≠ [] → occ = before ++ (ts, build, ns.sum) :: after →
        timelineWeighted (before ++ ns.map (ts, build, ·) ++ after) windowSecs =
          timelineWeighted occ windowSecs) ∧
      ((∀ o ∈ occ, hasDate (windowStart (max windowSecs 1) o.1) = true) →
        ShowsWindows occ (max windowSecs 1) (timelineWeighted occ windowSecs)) := by
  refine ⟨sum_cells occ windowSecs, sum_totals occ windowSecs, ?_, ?_, ?_⟩
  · rintro rows rfl
    rfl
  · rintro before after ts build ns hns rfl
    exact timelineWeighted_split before after ts build hns
  · intro hdates
    rw [timelineWeighted_eq]
    exact showsWindows (lt_of_lt_of_le one_pos (le_max_right _ _)) hdates

/-- Two occurrences on both sides of 1970, on one build. -/
def acrossTheEpoch : List (Rfc3339 × Option String × Nat) :=
  [(.instant (-1000000), some "1.0", 2), (.instant 1000000, some "1.0", 3)]

theorem timeline_loses_nothing_hourly :
    (∀ o ∈ acrossTheEpoch, hasDate (windowStart (max 3600 1) o.1) = true) ∧
      ShowsWindows acrossTheEpoch (max 3600 1) (timelineWeighted acrossTheEpoch 3600) :=
  have hdates : ∀ o ∈ acrossTheEpoch, hasDate (windowStart (max 3600 1) o.1) = true := by
    decide
  ⟨hdates, (timeline_loses_nothing acrossTheEpoch 3600).2.2.2.2 hdates⟩

/-- A window of 300000 years, whose start has no date: both windows have the label of the
second. -/
theorem labels_fall_back :
    timelineWeighted acrossTheEpoch 10000000000000 =
        ⟨[⟨ofEpoch 0, "1.0", 2⟩, ⟨ofEpoch 0, "1.0", 3⟩], [⟨ofEpoch 0, 2⟩, ⟨ofEpoch 0, 3⟩]⟩ ∧
      ¬ ∀ occ windowSecs,
        ShowsWindows occ (max windowSecs 1) (timelineWeighted occ windowSecs) := by
  have hrun : timelineWeighted acrossTheEpoch 10000000000000 =
      ⟨[⟨ofEpoch 0, "1.0", 2⟩, ⟨ofEpoch 0, "1.0", 3⟩], [⟨ofEpoch 0, 2⟩, ⟨ofEpoch 0, 3⟩]⟩ := by
    decide +kernel
  refine ⟨hrun, fun hall => ?_⟩
  have hsums := (hall acrossTheEpoch 10000000000000).adds_up ⟨ofEpoch 0, 2⟩
  rw [hrun] at hsums
  exact absurd (hsums (by decide)) (by decide)

end Windows

end ReproitCloud
