import ReproitCloud.Lib.Turns
import ReproitCloud.Telemetry.Discriminators

/-!
# The cohort cards of a bucket

The detail of a bucket has a card for each dimension that its rows have: the four values that most
of the rows have, with their shares in the bucket and in the app (`cohortBreakdowns`).  The list of
buckets calls out the values that stand out (`discriminatorsFromCounts`), from the counts that
ingest keeps.

A value that stands out is one of half the rows at least.  There are at most two of these under a
key, since a row is read as one value only.  So the four places of a card are enough for whatever
the list calls out (`discriminators_on_cards`).
-/

namespace ReproitCloud

open Lib

/-! ## The most frequent -/

section Frequent

variable {α κ : Type} [DecidableEq α] [LinearOrder κ] {key : α → κ} {xs values : List α} {a : α}
  {k : Nat}

theorem sum_count_cons (x : α) (xs values : List α) :
    (values.map fun v => (x :: xs).count v).sum =
      (values.map fun v => xs.count v).sum + values.count x := by
  induction values with
  | nil => rfl
  | cons v values ih =>
    rw [List.map_cons, List.sum_cons, ih, List.map_cons, List.sum_cons, List.count_cons,
      List.count_cons]
    by_cases h : x = v
    · simp [h]
      omega
    · simp [h, Ne.symm h]
      omega

/-- Different values are counted apart. -/
theorem sum_count_le (xs : List α) (h : values.Nodup) :
    (values.map fun v => xs.count v).sum ≤ xs.length := by
  induction xs with
  | nil => simp
  | cons x xs ih =>
    have hone := List.nodup_iff_count_le_one.1 h x
    rw [sum_count_cons, List.length_cons]
    omega

/-- Of the values in the order of their counts, one of more than a `k + 1`-th is among the first
`k`. -/
theorem mem_firstBy_of_frequent (hnodup : values.Nodup)
    (hkey : ∀ a b, key a ≤ key b → xs.count b ≤ xs.count a) (ha : a ∈ values)
    (hfrequent : xs.length < (k + 1) * xs.count a) : a ∈ firstBy key k values := by
  by_contra hnot
  obtain ⟨hfull, hbefore⟩ := firstBy_full ha hnot
  have hfirst : ((firstBy key k values).map id).Nodup :=
    nodup_map_firstBy id ((List.map_id values).symm ▸ hnodup)
  rw [List.map_id] at hfirst
  have hsum := sum_count_le xs (List.nodup_cons.2 ⟨hnot, hfirst⟩)
  have hmany : k * xs.count a ≤ ((firstBy key k values).map fun v => xs.count v).sum := by
    have hle := List.card_nsmul_le_sum ((firstBy key k values).map fun v => xs.count v)
      (xs.count a) fun n hn => by
        obtain ⟨b, hb, rfl⟩ := List.mem_map.1 hn
        exact hkey b a (hbefore b hb)
    rwa [List.length_map, hfull, smul_eq_mul] at hle
  rw [List.map_cons, List.sum_cons] at hsum
  rw [Nat.succ_mul] at hfrequent
  omega

end Frequent

/-! ## Cards -/

/-- A value on a card, with no lift where no row of the app has it. -/
structure CardValue where
  value : String
  count : Nat
  cohortShare : ℚ
  baselineShare : ℚ
  lift : Option ℚ
deriving DecidableEq

/-- The card of a dimension. -/
structure CohortCard where
  key : String
  total : Nat
  values : List CardValue
deriving DecidableEq

/-- `display_key_rank`. -/
def displayKeyRank (key : String) : Nat :=
  (["browser", "locale", "plan", "build", "os", "device", "platform", "role", "route"].idxOf?
    key).getD (2 ^ 64 - 1)

/-- The values that the rows have under a key. -/
def displayValues (R : Renderings) (rows : List Context) (key : String) : List String :=
  rows.filterMap fun r => (r.get? key).bind (cohortValue R key)

/-- `display_counts`. -/
def displayCounts (R : Renderings) (rows : List Context) (key : String) : Table String Nat :=
  tally (displayValues R rows key)

/-- The count of a value. -/
def countIn (counts : Table String Nat) (value : String) : Nat := (counts.get? value).getD 0

/-- The order of the values on a card: frequent in the bucket, frequent in the app, by text. -/
def cardOrder (cohortCounts baseCounts : Table String Nat) (value : String) :
    ℕᵒᵈ ×ₗ ℕᵒᵈ ×ₗ String :=
  toLex (.toDual (countIn cohortCounts value), toLex (.toDual (countIn baseCounts value), value))

/-- The shares of a value. -/
def cardValue (cohortN baselineN : Nat) (value : String) (count baseCount : Nat) : CardValue :=
  let cohortShare : ℚ := count / cohortN
  let baselineShare : ℚ := baseCount / max baselineN 1
  { value, count, cohortShare, baselineShare
    lift := if 0 < baselineShare then some (cohortShare / baselineShare) else none }

/-- The values of a key in the bucket and in the app. -/
def cardValues (R : Renderings) (cohort baseline : List Context) (key : String) : List String :=
  (((displayCounts R cohort key).rows.map Prod.fst ++
    (displayCounts R baseline key).rows.map Prod.fst).insertionSort (· ≤ ·)).dedup

/-- The values on a card. -/
def shownValues (R : Renderings) (cohort baseline : List Context) (key : String) : List String :=
  firstBy (cardOrder (displayCounts R cohort key) (displayCounts R baseline key)) 4
    (cardValues R cohort baseline key)

/-- The card of a key, if a row of the bucket has it. -/
def cohortCard (R : Renderings) (cohort baseline : List Context) (key : String) :
    Option CohortCard :=
  let cohortCounts := displayCounts R cohort key
  if cohortCounts.rows.isEmpty then none
  else
    let baseCounts := displayCounts R baseline key
    some
      { key
        total := cohort.length
        values := (shownValues R cohort baseline key).map fun value =>
          cardValue cohort.length baseline.length value (countIn cohortCounts value)
            (countIn baseCounts value) }

/-- The keys of the dimensions of some rows, in order. -/
def dimensionKeys (R : Renderings) (rows : List Context) : List String :=
  (rows.flatMap fun r => (dimensionValues R r).map Prod.fst).dedup.insertionSort (· ≤ ·)

/-- `cohort_breakdowns`. -/
def cohortBreakdowns (R : Renderings) (cohort baseline : List Context) : List CohortCard :=
  if cohort.isEmpty then []
  else
    ((dimensionKeys R (cohort ++ baseline)).filterMap
      (cohortCard R cohort baseline)).insertionSort fun a b =>
        displayKeyRank a.key < displayKeyRank b.key ∨
          displayKeyRank a.key = displayKeyRank b.key ∧ a.key ≤ b.key

/-! ## What a card shows -/

section Cards

variable {R : Renderings} {cohort baseline rows : List Context} {key value : String}
  {c : CohortCard} {d : Discriminator}

theorem count_displayValues (hkey : safeCohortKey key = true) (rows : List Context)
    (value : String) :
    (displayValues R rows key).count value = rows.countP (readsDimension R key value) := by
  rw [displayValues, List.count_filterMap]
  exact List.countP_congr fun r _ => by simp [readsDimension, hkey]

theorem countIn_displayCounts (hkey : safeCohortKey key = true) (rows : List Context)
    (value : String) :
    countIn (displayCounts R rows key) value = rows.countP (readsDimension R key value) := by
  rw [countIn, displayCounts, getD_tally, count_displayValues hkey]

theorem mem_displayCounts :
    value ∈ (displayCounts R rows key).rows.map Prod.fst ↔ value ∈ displayValues R rows key := by
  simp [displayCounts, mem_rows_tally]

theorem countIn_le_of_cardOrder {cohortCounts baseCounts : Table String Nat} {a b : String}
    (h : cardOrder cohortCounts baseCounts a ≤ cardOrder cohortCounts baseCounts b) :
    countIn cohortCounts b ≤ countIn cohortCounts a := by
  rcases Prod.Lex.toLex_le_toLex.1 h with hlt | ⟨heq, -⟩
  · exact le_of_lt (OrderDual.toDual_lt_toDual.1 hlt)
  · exact le_of_eq (OrderDual.toDual_inj.1 heq).symm

theorem mem_dimensionValues_iff_reads {r : Context} :
    (key, value) ∈ dimensionValues R r ↔ readsDimension R key value r = true := by
  rw [← List.count_pos_iff, count_dimensionValues]
  split <;> simp_all

theorem mem_dimensionKeys : key ∈ dimensionKeys R rows ↔
    ∃ r ∈ rows, ∃ value, readsDimension R key value r = true := by
  simp [dimensionKeys, List.mem_insertionSort, mem_dimensionValues_iff_reads]

theorem safe_of_readsDimension {r : Context} (h : readsDimension R key value r = true) :
    safeCohortKey key = true := (Bool.and_eq_true_iff.1 h).1

theorem mem_cardValues : value ∈ cardValues R cohort baseline key ↔
    value ∈ displayValues R cohort key ∨ value ∈ displayValues R baseline key := by
  rw [cardValues, List.mem_dedup, List.mem_insertionSort, List.mem_append, mem_displayCounts,
    mem_displayCounts]

theorem shownValues_nodup (R : Renderings) (cohort baseline : List Context) (key : String) :
    (shownValues R cohort baseline key).Nodup := by
  have hnodup : (cardValues R cohort baseline key).Nodup := List.nodup_dedup _
  have hshown : ((shownValues R cohort baseline key).map id).Nodup :=
    nodup_map_firstBy id ((List.map_id _).symm ▸ hnodup)
  rwa [List.map_id] at hshown

/-- A value that is not shown is on no more rows than any that is. -/
theorem countIn_le_of_not_shown {other : String}
    (hshown : value ∈ shownValues R cohort baseline key)
    (hother : other ∉ shownValues R cohort baseline key) :
    countIn (displayCounts R cohort key) other ≤ countIn (displayCounts R cohort key) value := by
  by_cases hvalue : other ∈ cardValues R cohort baseline key
  · exact countIn_le_of_cardOrder ((firstBy_full hvalue hother).2 value hshown)
  · have hnone : other ∉ displayValues R cohort key :=
      fun hmem => hvalue (mem_cardValues.2 (.inl hmem))
    rw [countIn, displayCounts, getD_tally, List.count_eq_zero_of_not_mem hnone]
    exact Nat.zero_le _

/-- What the card of a dimension says. -/
structure CohortCard.Tells (R : Renderings) (cohort baseline : List Context) (c : CohortCard) :
    Prop where
  total : c.total = cohort.length
  places : c.values.length ≤ 4
  different : (c.values.map CardValue.value).Nodup
  counted : ∀ v ∈ c.values, v = cardValue cohort.length baseline.length v.value
    (cohort.countP (readsDimension R c.key v.value))
    (baseline.countP (readsDimension R c.key v.value))
  frequent : ∀ v ∈ c.values, ∀ other ∉ c.values.map CardValue.value,
    cohort.countP (readsDimension R c.key other) ≤ v.count

theorem cohortCard_key (h : cohortCard R cohort baseline key = some c) : c.key = key := by
  rw [cohortCard, Option.ite_none_left_eq_some] at h
  obtain ⟨-, hc⟩ := h
  cases hc
  rfl

/-- A value that is shown, with its counts. -/
theorem mem_values_of_shown (hkey : safeCohortKey key = true)
    (h : cohortCard R cohort baseline key = some c)
    (hvalue : value ∈ shownValues R cohort baseline key) :
    cardValue cohort.length baseline.length value (cohort.countP (readsDimension R key value))
      (baseline.countP (readsDimension R key value)) ∈ c.values := by
  rw [cohortCard, Option.ite_none_left_eq_some] at h
  obtain ⟨-, hc⟩ := h
  cases hc
  refine List.mem_map.2 ⟨value, hvalue, ?_⟩
  rw [countIn_displayCounts hkey, countIn_displayCounts hkey]

theorem cohortCard_tells (hkey : safeCohortKey key = true)
    (h : cohortCard R cohort baseline key = some c) :
    c.key = key ∧ c.Tells R cohort baseline := by
  rw [cohortCard, Option.ite_none_left_eq_some] at h
  obtain ⟨-, hc⟩ := h
  cases hc
  have hvalues : ((shownValues R cohort baseline key).map fun value =>
      cardValue cohort.length baseline.length value (countIn (displayCounts R cohort key) value)
        (countIn (displayCounts R baseline key) value)).map CardValue.value =
      shownValues R cohort baseline key := by
    rw [List.map_map]
    exact List.map_id _
  refine ⟨rfl, rfl, ?_, ?_, ?_, ?_⟩
  · rw [List.length_map]
    exact List.length_take_le _ _
  · rw [hvalues]
    exact shownValues_nodup R cohort baseline key
  · intro v hv
    obtain ⟨value, -, rfl⟩ := List.mem_map.1 hv
    rw [countIn_displayCounts hkey, countIn_displayCounts hkey]
    rfl
  · intro v hv other hother
    obtain ⟨value, hvalue, rfl⟩ := List.mem_map.1 hv
    rw [hvalues] at hother
    rw [← countIn_displayCounts hkey]
    exact countIn_le_of_not_shown hvalue hother

/-- The card of a key that a row of the bucket has is there. -/
theorem exists_card (hcohort : 0 < cohort.countP (readsDimension R key value)) :
    ∃ c ∈ cohortBreakdowns R cohort baseline, cohortCard R cohort baseline key = some c := by
  obtain ⟨r, hr, hreads⟩ := List.countP_pos_iff.1 hcohort
  have hmem : value ∈ displayValues R cohort key := by
    rw [← List.count_pos_iff, count_displayValues (safe_of_readsDimension hreads)]
    exact hcohort
  have hkey : key ∈ dimensionKeys R (cohort ++ baseline) :=
    mem_dimensionKeys.2 ⟨r, List.mem_append_left _ hr, value, hreads⟩
  have hrows : (displayCounts R cohort key).rows.isEmpty = false := by
    obtain ⟨row, hrow, -⟩ := List.mem_map.1 (mem_displayCounts.2 hmem)
    exact List.isEmpty_eq_false_iff.2 (List.ne_nil_of_mem hrow)
  have hnonempty : cohort.isEmpty = false := List.isEmpty_eq_false_iff.2 (List.ne_nil_of_mem hr)
  have hcard : ∃ c, cohortCard R cohort baseline key = some c := by simp [cohortCard, hrows]
  obtain ⟨c, hc⟩ := hcard
  refine ⟨c, ?_, hc⟩
  simp only [cohortBreakdowns, hnonempty, Bool.false_eq_true, if_false, List.mem_insertionSort,
    List.mem_filterMap]
  exact ⟨key, hkey, hc⟩

theorem tells_of_mem (h : c ∈ cohortBreakdowns R cohort baseline) :
    c.Tells R cohort baseline := by
  rw [cohortBreakdowns] at h
  split at h
  · exact absurd h List.not_mem_nil
  · obtain ⟨key, hkey, hcard⟩ := List.mem_filterMap.1 ((List.mem_insertionSort _).1 h)
    obtain ⟨r, -, value, hreads⟩ := mem_dimensionKeys.1 hkey
    exact (cohortCard_tells (safe_of_readsDimension hreads) hcard).2

/-- A dimension has one card. -/
theorem cards_nodup (R : Renderings) (cohort baseline : List Context) :
    ((cohortBreakdowns R cohort baseline).map CohortCard.key).Nodup := by
  rw [cohortBreakdowns]
  split
  · exact .nil
  · refine (((List.perm_insertionSort _ _).map CohortCard.key).nodup_iff).2 ?_
    have hkeys : (dimensionKeys R (cohort ++ baseline)).Nodup :=
      (List.perm_insertionSort _ _).nodup_iff.2 (List.nodup_dedup _)
    rw [List.Nodup, List.pairwise_map, List.pairwise_filterMap]
    refine hkeys.imp fun hne c hc c' hc' => ?_
    rw [cohortCard_key hc, cohortCard_key hc']
    exact hne

/-- A value of half the rows is shown. -/
theorem mem_shownValues_of_half (hkey : safeCohortKey key = true)
    (hpos : 0 < cohort.countP (readsDimension R key value))
    (hhalf : cohort.length ≤ 2 * cohort.countP (readsDimension R key value)) :
    value ∈ shownValues R cohort baseline key := by
  have hcount := count_displayValues (R := R) hkey cohort value
  have hle : (displayValues R cohort key).length ≤ cohort.length := List.length_filterMap_le _ _
  have horder : ∀ a b, cardOrder (displayCounts R cohort key) (displayCounts R baseline key) a ≤
      cardOrder (displayCounts R cohort key) (displayCounts R baseline key) b →
      (displayValues R cohort key).count b ≤ (displayValues R cohort key).count a := by
    intro a b hab
    have hcounts := countIn_le_of_cardOrder hab
    rwa [countIn, countIn, displayCounts, getD_tally, getD_tally] at hcounts
  have hvalue : value ∈ cardValues R cohort baseline key := by
    rw [← hcount] at hpos
    exact mem_cardValues.2 (.inl (List.count_pos_iff.1 hpos))
  exact mem_firstBy_of_frequent (List.nodup_dedup _) horder hvalue (by omega)

end Cards

/-- The cards are of different dimensions, each tells the counts of its most frequent values, and
whatever the list of buckets calls out is on its card, with the same shares. -/
theorem discriminators_on_cards (R : Renderings) (cohort baseline : List Context) :
    ((cohortBreakdowns R cohort baseline).map CohortCard.key).Nodup ∧
      (∀ c ∈ cohortBreakdowns R cohort baseline, c.Tells R cohort baseline) ∧
      ∀ d ∈ discriminatorsFromCounts cohort.length (contextCounts R cohort) baseline.length
        (contextCounts R baseline),
        ∃ c ∈ cohortBreakdowns R cohort baseline, c.key = d.key ∧
          ∃ v ∈ c.values, v.value = d.value ∧ v.cohortShare = d.cohortShare ∧
            v.baselineShare = d.baselineShare ∧ v.lift = d.lift := by
  refine ⟨cards_nodup R cohort baseline, fun c => tells_of_mem, fun d hd => ?_⟩
  have hweigh := mem_fromCounts_iff.1 hd
  simp only [weigh, Option.ite_none_right_eq_some, Option.some.injEq] at hweigh
  obtain ⟨⟨hhalf, -, hfive⟩, hd⟩ := hweigh
  have hpos : 0 < cohort.countP (readsDimension R d.key d.value) :=
    lt_of_lt_of_le (by decide) hfive
  have hlength : (0 : ℚ) < cohort.length := by
    have hle : cohort.countP (readsDimension R d.key d.value) ≤ cohort.length :=
      List.countP_le_length
    exact_mod_cast lt_of_lt_of_le hpos hle
  have hrows : cohort.length ≤ 2 * cohort.countP (readsDimension R d.key d.value) := by
    rw [le_div_iff₀ hlength] at hhalf
    have hdouble : (cohort.length : ℚ) ≤
        2 * (cohort.countP (readsDimension R d.key d.value) : ℚ) := by linarith
    exact_mod_cast hdouble
  obtain ⟨c, hc, hcard⟩ : ∃ c ∈ cohortBreakdowns R cohort baseline,
      cohortCard R cohort baseline d.key = some c := exists_card hpos
  obtain ⟨r, -, hreads⟩ := List.countP_pos_iff.1 hpos
  have hsafe := safe_of_readsDimension hreads
  refine ⟨c, hc, cohortCard_key hcard, _,
    mem_values_of_shown hsafe hcard (mem_shownValues_of_half hsafe hpos hrows), rfl, ?_⟩
  rw [← hd]
  exact ⟨rfl, rfl, rfl⟩

end ReproitCloud
