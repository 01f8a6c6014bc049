import ReproitCloud.Telemetry.Cohorts
import ReproitCloud.Protocol.Checks
import ReproitCloud.Lib.CountView

/-!
# What stands out in a bucket

A discriminator is a context value that most rows of a bucket have, and far fewer of
the app's.  The detail of a bucket computes them from the rows (`discriminators`), and
the list of buckets from the counts that ingest keeps (`discriminatorsFromCounts`).
The shares are exact here, and rounded only in the answer of the source.

The rows are read by the text of a value, whatever it is, under every key.  The counts
are of dimensions: scalars under a safe key, and the name of a build.  `readsText` and
`readsDimension` say what one row is read as, and `discriminators_agree_iff` says that
nothing but their difference on the values that stand out can set the two apart.
-/

namespace ReproitCloud

open Lib Protocol

/-! ## Discriminators -/

/-- `K_ANON`. -/
def kAnon : Nat := 5

/-- A value that stands out, with no lift where no row of the app has it. -/
structure Discriminator where
  key : String
  value : String
  cohortShare : ℚ
  baselineShare : ℚ
  lift : Option ℚ
deriving DecidableEq

/-- The shares of a value, and whether it stands out. -/
def weigh (cohortN baselineN : Nat) (key value : String) (count baseCount : Nat) :
    Option Discriminator :=
  let cohortShare : ℚ := count / cohortN
  let baselineShare : ℚ := baseCount / max baselineN 1
  let lift := if 0 < baselineShare then some (cohortShare / baselineShare) else none
  if 1 / 2 ≤ cohortShare ∧ (lift.all fun l => 3 / 2 ≤ l) = true ∧ kAnon ≤ count then
    some ⟨key, value, cohortShare, baselineShare, lift⟩
  else none

/-- The larger share first, then the larger lift. -/
def Discriminator.before (a b : Discriminator) : Prop :=
  b.cohortShare < a.cohortShare ∨ a.cohortShare = b.cohortShare ∧
    (a.lift = none ∨ ∃ l ∈ a.lift, ∃ m ∈ b.lift, m ≤ l)

instance (a b : Discriminator) : Decidable (a.before b) := inferInstanceAs (Decidable (_ ∨ _))

/-- The entries of a `BTreeMap`. -/
def inOrder {ν : Type} (t : Table String ν) : List (String × ν) :=
  t.rows.insertionSort fun a b => a.1 ≤ b.1

/-- The text of a value in `value_counts`. -/
def valueText (R : Renderings) : Json → String
  | .string s => s
  | other => String.ofList (toVec R other)

/-- `value_counts`. -/
def valueCounts (R : Renderings) (rows : List Context) (key : String) : Table String Nat :=
  tally (rows.filterMap fun r => (r.get? key).map (valueText R))

/-- `discriminators`. -/
def discriminators (R : Renderings) (cohort baseline : List Context) : List Discriminator :=
  if cohort.length < kAnon then []
  else
    let keys := (cohort.flatMap fun c => c.rows.map Prod.fst).dedup.insertionSort (· ≤ ·)
    (keys.flatMap fun key =>
      let cohortVals := valueCounts R cohort key
      let baseVals := valueCounts R baseline key
      (inOrder cohortVals).filterMap fun r =>
        weigh cohort.length baseline.length key r.1 r.2 ((baseVals.get? r.1).getD 0)).insertionSort
      Discriminator.before

/-- The counts of the dimensions of some rows, as ingest keeps them. -/
def contextCounts (R : Renderings) (rows : List Context) : Table (String × String) Nat :=
  tally (rows.flatMap (dimensionValues R))

/-- The counts in the order of their keys and values. -/
def inKeyOrder (t : Table (String × String) Nat) : List ((String × String) × Nat) :=
  t.rows.insertionSort fun a b => a.1.1 < b.1.1 ∨ a.1.1 = b.1.1 ∧ a.1.2 ≤ b.1.2

/-- `discriminators_from_counts`. -/
def discriminatorsFromCounts (cohortN : Nat) (cohort : Table (String × String) Nat)
    (baselineN : Nat) (baseline : Table (String × String) Nat) : List Discriminator :=
  if cohortN < kAnon then []
  else
    ((inKeyOrder cohort).filterMap fun r =>
      weigh cohortN baselineN r.1.1 r.1.2 r.2 ((baseline.get? r.1).getD 0)).insertionSort
      Discriminator.before

/-! ## The order -/

namespace Discriminator

/-- The place in the order, where no lift counts as the largest. -/
def rank (d : Discriminator) : ℚᵒᵈ ×ₗ (WithTop ℚ)ᵒᵈ :=
  toLex (.toDual d.cohortShare, .toDual (d.lift.elim ⊤ WithTop.some))

variable {a b : Discriminator}

theorem before_iff_rank_le : a.before b ↔ a.rank ≤ b.rank := by
  have hlift : (a.lift = none ∨ ∃ l ∈ a.lift, ∃ m ∈ b.lift, m ≤ l) ↔
      b.lift.elim ⊤ WithTop.some ≤ a.lift.elim ⊤ WithTop.some := by
    cases a.lift <;> cases b.lift <;> simp
  rw [before, hlift, rank, rank, Prod.Lex.toLex_le_toLex, OrderDual.toDual_lt_toDual,
    OrderDual.toDual_inj, OrderDual.toDual_le_toDual]

theorem before.share_le (h : a.before b) : b.cohortShare ≤ a.cohortShare := by
  rcases h with hlt | ⟨heq, -⟩
  · exact hlt.le
  · exact heq.ge

instance : Std.Total before where
  total a b := by
    rw [before_iff_rank_le, before_iff_rank_le]
    exact le_total a.rank b.rank

instance : IsTrans Discriminator before where
  trans _ _ _ hab hbc :=
    before_iff_rank_le.2 ((before_iff_rank_le.1 hab).trans (before_iff_rank_le.1 hbc))

end Discriminator

theorem discriminators_sorted (R : Renderings) (cohort baseline : List Context) :
    (discriminators R cohort baseline).Pairwise Discriminator.before := by
  rw [discriminators]
  split
  · exact .nil
  · exact List.pairwise_insertionSort _ _

/-! ## Reading one row -/

/-- `value_counts` counts the row under the value. -/
def readsText (R : Renderings) (key value : String) (r : Context) : Bool :=
  (r.get? key).map (valueText R) = some value

/-- Ingest counts the row under the dimension. -/
def readsDimension (R : Renderings) (key value : String) (r : Context) : Bool :=
  safeCohortKey key && (r.get? key).bind (cohortValue R key) = some value

/-- As many rows are read as the value by `value_counts` alone as by ingest alone. -/
def Balanced (R : Renderings) (rows : List Context) (key value : String) : Prop :=
  rows.countP (fun r => readsText R key value r && !readsDimension R key value r) =
    rows.countP fun r => readsDimension R key value r && !readsText R key value r

/-- The value stands out among the rows, for one reading of a row. -/
def StandsOut (reads : String → String → Context → Bool) (cohort baseline : List Context)
    (key value : String) : Prop :=
  (weigh cohort.length baseline.length key value (cohort.countP (reads key value))
    (baseline.countP (reads key value))).isSome = true

section Agree

variable {R : Renderings} {cohort baseline rows : List Context} {key value : String}
  {d : Discriminator}

theorem count_valueTexts (R : Renderings) (rows : List Context) (key value : String) :
    (rows.filterMap fun r => (r.get? key).map (valueText R)).count value =
      rows.countP (readsText R key value) := by
  rw [List.count_filterMap]
  exact List.countP_congr fun r _ => by simp [readsText]

/-- A row has a dimension once or not at all. -/
theorem count_dimensionValues (R : Renderings) (r : Context) (key value : String) :
    (dimensionValues R r).count (key, value) = if readsDimension R key value r then 1 else 0 := by
  have hcount : (dimensionValues R r).count (key, value) = r.count fun k v =>
      (k = key && safeCohortKey k) && cohortValue R k v = some value := by
    rw [dimensionValues, List.count_filterMap, List.countP_filter, Table.count]
    refine List.countP_congr fun e _ => ?_
    cases cohortValue R e.1 e.2 <;> simp [and_assoc, and_comm]
  have hkey : ∀ k v, ((decide (k = key) && safeCohortKey k) && decide (cohortValue R k v = some value))
      = true → k = key := by
    intro k v h
    simp only [Bool.and_eq_true, decide_eq_true_eq] at h
    exact h.1.1
  have hone := Table.count_key_eq_one_iff (t := r) hkey
  have hle := Table.count_le_one_of_key (t := r) fun k v _ => hkey k v
  have hreads : readsDimension R key value r = true ↔ ∃ v, r.get? key = some v ∧
      ((decide (key = key) && safeCohortKey key) && decide (cohortValue R key v = some value)) =
        true := by
    simp [readsDimension, Option.bind_eq_some_iff, and_left_comm]
  rw [hcount]
  by_cases hread : readsDimension R key value r = true
  · rw [if_pos hread, hone.2 (hreads.1 hread)]
  · have hnot := mt hone.1 (mt hreads.2 hread)
    rw [if_neg hread]
    omega

theorem count_dimensions (R : Renderings) (rows : List Context) (key value : String) :
    (rows.flatMap (dimensionValues R)).count (key, value) =
      rows.countP (readsDimension R key value) := by
  induction rows with
  | nil => rfl
  | cons r rows ih =>
    rw [List.flatMap_cons, List.count_append, ih, count_dimensionValues, List.countP_cons,
      Nat.add_comm]

/-- What stands out, and why. -/
theorem weigh_eq_some {n m c b : Nat} (h : weigh n m key value c b = some d) :
    d.key = key ∧ d.value = value ∧ d.cohortShare = c / n ∧ d.baselineShare = b / max (m : ℚ) 1 ∧
      kAnon ≤ c := by
  simp only [weigh, Option.ite_none_right_eq_some, Option.some.injEq] at h
  obtain ⟨hpass, rfl⟩ := h
  exact ⟨rfl, rfl, rfl, by simp, hpass.2.2⟩

theorem mem_discriminators_iff : d ∈ discriminators R cohort baseline ↔
    weigh cohort.length baseline.length d.key d.value (cohort.countP (readsText R d.key d.value))
      (baseline.countP (readsText R d.key d.value)) = some d := by
  have hvalue : ∀ key value n, (value, n) ∈ inOrder (valueCounts R cohort key) ↔
      0 < cohort.countP (readsText R key value) ∧ n = cohort.countP (readsText R key value) := by
    intro key value n
    rw [inOrder, List.mem_insertionSort, valueCounts, mem_rows_tally, ← List.count_pos_iff,
      count_valueTexts]
  have hbase : ∀ key value, ((valueCounts R baseline key).get? value).getD 0 =
      baseline.countP (readsText R key value) := by
    intro key value
    rw [valueCounts, getD_tally, count_valueTexts]
  rw [discriminators]
  split
  · rename_i hsmall
    refine ⟨fun h => absurd h List.not_mem_nil, fun h => ?_⟩
    obtain ⟨-, -, -, -, hk⟩ := weigh_eq_some h
    have hle : cohort.countP (readsText R d.key d.value) ≤ cohort.length := List.countP_le_length
    omega
  · simp only [List.mem_insertionSort, List.mem_flatMap, List.mem_dedup, List.mem_filterMap,
      Prod.exists, hvalue, hbase]
    constructor
    · rintro ⟨key, -, value, n, ⟨-, rfl⟩, h⟩
      obtain ⟨hkey, hval, -⟩ := weigh_eq_some h
      rw [hkey, hval]
      exact h
    · intro h
      obtain ⟨-, -, -, -, hk⟩ := weigh_eq_some h
      have hpos : 0 < cohort.countP (readsText R d.key d.value) :=
        lt_of_lt_of_le (by decide) hk
      refine ⟨d.key, ?_, d.value, _, ⟨hpos, rfl⟩, h⟩
      obtain ⟨r, hr, hreads⟩ := List.countP_pos_iff.1 hpos
      obtain ⟨v, hv, -⟩ := Option.map_eq_some_iff.1 (of_decide_eq_true hreads)
      exact ⟨r, hr, List.mem_map.2 ⟨(d.key, v), Table.get?_eq_some_iff.1 hv, rfl⟩⟩

theorem mem_fromCounts_iff : d ∈ discriminatorsFromCounts cohort.length (contextCounts R cohort)
      baseline.length (contextCounts R baseline) ↔
    weigh cohort.length baseline.length d.key d.value
      (cohort.countP (readsDimension R d.key d.value))
      (baseline.countP (readsDimension R d.key d.value)) = some d := by
  have hvalue : ∀ key value n, ((key, value), n) ∈ inKeyOrder (contextCounts R cohort) ↔
      0 < cohort.countP (readsDimension R key value) ∧
        n = cohort.countP (readsDimension R key value) := by
    intro key value n
    rw [inKeyOrder, List.mem_insertionSort, contextCounts, mem_rows_tally, ← List.count_pos_iff,
      count_dimensions]
  have hbase : ∀ key value, ((contextCounts R baseline).get? (key, value)).getD 0 =
      baseline.countP (readsDimension R key value) := by
    intro key value
    rw [contextCounts, getD_tally, count_dimensions]
  rw [discriminatorsFromCounts]
  split
  · rename_i hsmall
    refine ⟨fun h => absurd h List.not_mem_nil, fun h => ?_⟩
    obtain ⟨-, -, -, -, hk⟩ := weigh_eq_some h
    have hle : cohort.countP (readsDimension R d.key d.value) ≤ cohort.length :=
      List.countP_le_length
    omega
  · simp only [List.mem_insertionSort, List.mem_filterMap, Prod.exists, hvalue, hbase]
    constructor
    · rintro ⟨key, value, n, ⟨-, rfl⟩, h⟩
      obtain ⟨hkey, hval, -⟩ := weigh_eq_some h
      rw [hkey, hval]
      exact h
    · intro h
      obtain ⟨-, -, -, -, hk⟩ := weigh_eq_some h
      exact ⟨d.key, d.value, _, ⟨lt_of_lt_of_le (by decide) hk, rfl⟩, h⟩

/-- A value is balanced when both readings count it alike. -/
theorem balanced_iff : Balanced R rows key value ↔
    rows.countP (readsText R key value) = rows.countP (readsDimension R key value) := by
  have hsplit : ∀ p q : Context → Bool, rows.countP p =
      rows.countP (fun r => p r && q r) + rows.countP fun r => p r && !q r := by
    intro p q
    induction rows with
    | nil => rfl
    | cons r rows ih =>
      simp only [List.countP_cons, ih]
      cases p r <;> cases q r <;> simp <;> omega
  rw [Balanced, hsplit (readsText R key value) (readsDimension R key value),
    hsplit (readsDimension R key value) (readsText R key value)]
  have hboth : rows.countP (fun r => readsDimension R key value r && readsText R key value r) =
      rows.countP fun r => readsText R key value r && readsDimension R key value r :=
    List.countP_congr fun r _ => by rw [Bool.and_comm]
  omega

/-- A discriminator says how often its value was counted. -/
theorem weigh_inj {n m c b c' b' : Nat} (hn : 0 < n) (h : weigh n m key value c b = some d)
    (h' : weigh n m key value c' b' = some d) : c = c' ∧ b = b' := by
  obtain ⟨-, -, hc, hb, -⟩ := weigh_eq_some h
  obtain ⟨-, -, hc', hb', -⟩ := weigh_eq_some h'
  have hn : (n : ℚ) ≠ 0 := Nat.cast_ne_zero.2 hn.ne'
  have hm : max (m : ℚ) 1 ≠ 0 := (lt_of_lt_of_le one_pos (le_max_right _ _)).ne'
  constructor
  · exact_mod_cast (div_left_inj' hn).1 (hc.symm.trans hc')
  · exact_mod_cast (div_left_inj' hm).1 (hb.symm.trans hb')

/-- Both give the same discriminators when every value that stands out in either reading is
balanced in the bucket and in the app. -/
theorem discriminators_agree_iff (R : Renderings) (cohort baseline : List Context) :
    (∀ d, d ∈ discriminators R cohort baseline ↔
      d ∈ discriminatorsFromCounts cohort.length (contextCounts R cohort) baseline.length
        (contextCounts R baseline)) ↔
      ∀ key value, StandsOut (readsText R) cohort baseline key value ∨
          StandsOut (readsDimension R) cohort baseline key value →
        Balanced R cohort key value ∧ Balanced R baseline key value := by
  simp only [mem_discriminators_iff, mem_fromCounts_iff, balanced_iff]
  constructor
  · rintro hagree key value (hout | hout)
    · obtain ⟨d, hd⟩ := Option.isSome_iff_exists.1 hout
      obtain ⟨rfl, rfl, -, -, hk⟩ := weigh_eq_some hd
      have hle : cohort.countP (readsText R d.key d.value) ≤ cohort.length := List.countP_le_length
      exact weigh_inj (lt_of_lt_of_le (by decide) (hk.trans hle)) hd ((hagree d).1 hd)
    · obtain ⟨d, hd⟩ := Option.isSome_iff_exists.1 hout
      obtain ⟨rfl, rfl, -, -, hk⟩ := weigh_eq_some hd
      have hle : cohort.countP (readsDimension R d.key d.value) ≤ cohort.length :=
        List.countP_le_length
      exact weigh_inj (lt_of_lt_of_le (by decide) (hk.trans hle)) ((hagree d).2 hd) hd
  · intro hbalanced d
    constructor
    · intro hd
      obtain ⟨hc, hb⟩ := hbalanced d.key d.value (.inl (Option.isSome_iff_exists.2 ⟨d, hd⟩))
      rw [← hc, ← hb]
      exact hd
    · intro hd
      obtain ⟨hc, hb⟩ := hbalanced d.key d.value (.inr (Option.isSome_iff_exists.2 ⟨d, hd⟩))
      rw [hc, hb]
      exact hd

/-- A scalar under a safe key. -/
def plainEntry (key : String) (value : Json) : Bool :=
  safeCohortKey key && (value.jsonbTypeof = .string || value.jsonbTypeof = .number ||
    value.jsonbTypeof = .boolean)

/-- Rows of plain entries are read alike. -/
theorem balanced_of_plain (h : ∀ r ∈ rows, ∀ e ∈ r.rows, plainEntry e.1 e.2 = true) :
    Balanced R rows key value := by
  rw [balanced_iff]
  refine List.countP_congr fun r hr => ?_
  rw [readsText, readsDimension]
  cases hget : r.get? key with
  | none => simp
  | some v =>
    have hplain := h r hr (key, v) (Table.get?_eq_some_iff.1 hget)
    rw [plainEntry, Bool.and_eq_true] at hplain
    obtain ⟨hsafe, hscalar⟩ := hplain
    rw [hsafe, Option.map_some, Option.bind_some, Bool.true_and]
    cases v with
    | string s => rfl
    | number n => simp [valueText, toVec, cohortValue]
    | bool b => simp [valueText, toVec, cohortValue]
    | null => simp [Json.jsonbTypeof] at hscalar
    | array items => simp [Json.jsonbTypeof] at hscalar
    | object members => simp [Json.jsonbTypeof] at hscalar

/-- The contexts of five errors on one build, as an SDK sends it. -/
def fiveOnBuild : List Context :=
  List.replicate 5 (Table.empty.insertIgnore "build" (.object [("version", .string "1.2")]))

/-- Five errors on one build: the list has the build, and the detail does not. -/
theorem build_is_read_apart :
    (∀ R, (⟨"build", "1.2", 1, 0, none⟩ : Discriminator) ∈
      discriminatorsFromCounts fiveOnBuild.length (contextCounts R fiveOnBuild) 0
        (contextCounts R [])) ∧
    (∀ R, (⟨"build", "1.2", 1, 0, none⟩ : Discriminator) ∉ discriminators R fiveOnBuild []) ∧
    ¬ ∀ R cohort baseline, ∀ d, d ∈ discriminators R cohort baseline ↔
      d ∈ discriminatorsFromCounts cohort.length (contextCounts R cohort) baseline.length
        (contextCounts R baseline) := by
  have hlist : ∀ R, (⟨"build", "1.2", 1, 0, none⟩ : Discriminator) ∈
      discriminatorsFromCounts fiveOnBuild.length (contextCounts R fiveOnBuild)
        ([] : List Context).length (contextCounts R []) := by
    intro R
    rw [mem_fromCounts_iff]
    show weigh 5 0 "build" "1.2" 5 0 = some ⟨"build", "1.2", 1, 0, none⟩
    norm_num [weigh, kAnon]
  have hdetail : ∀ R, (⟨"build", "1.2", 1, 0, none⟩ : Discriminator) ∉
      discriminators R fiveOnBuild [] := by
    intro R hmem
    rw [mem_discriminators_iff] at hmem
    obtain ⟨-, -, -, -, hk⟩ := weigh_eq_some hmem
    have hnone : fiveOnBuild.countP (readsText R "build" "1.2") = 0 := by rfl
    rw [hnone] at hk
    exact absurd hk (by decide)
  exact ⟨hlist, hdetail, fun hall =>
    hdetail ⟨fun _ => "", fun _ => "", fun _ => ""⟩ ((hall _ _ _ _).2 (hlist _))⟩

end Agree

end ReproitCloud
