import Mathlib

/-!
# Tables with a primary key

A table is a list of rows, each a key with the other columns, and carries the
proof that no key occurs twice.  The operations are the SQL statements a
program sends, each keeping the key constraint.

* `insert?` is `INSERT`, which fails on a key the table has, and `insertAll?` is
  the same of many rows.
* `insertIgnore` is `INSERT ... ON CONFLICT DO NOTHING`.
* `upsert` is `INSERT ... ON CONFLICT (key) DO UPDATE`.
* `update` is `UPDATE ... WHERE` and `delete` is `DELETE ... WHERE`, with a
  predicate on a row.

`get?` reads the row of a key.  Every operation has one lemma that says what
`get?` gives after it, and later proofs use these lemmas and not the rows.
-/

namespace Lib

/-- Rows with pairwise different keys, in insertion order. -/
structure Table (κ ν : Type) where
  /-- The rows: the key columns and the rest. -/
  rows : List (κ × ν)
  /-- The primary key constraint. -/
  keys_nodup : (rows.map Prod.fst).Nodup

namespace Table

variable {κ ν : Type}

/-- The table without rows. -/
def empty : Table κ ν := ⟨[], List.nodup_nil⟩

instance : Inhabited (Table κ ν) := ⟨empty⟩

theorem ext_rows {t u : Table κ ν} (h : t.rows = u.rows) : t = u := by
  cases t
  cases u
  cases h
  rfl

instance [DecidableEq κ] [DecidableEq ν] : DecidableEq (Table κ ν) := fun t u =>
  decidable_of_iff (t.rows = u.rows) ⟨ext_rows, fun h => h ▸ rfl⟩

/-- `UPDATE ... SET ... WHERE p`. -/
def update (t : Table κ ν) (p : κ → ν → Bool) (f : κ → ν → ν) : Table κ ν where
  rows := t.rows.map fun r => (r.1, if p r.1 r.2 then f r.1 r.2 else r.2)
  keys_nodup := by
    rw [List.map_map]
    exact t.keys_nodup

/-- `DELETE ... WHERE p`. -/
def delete (t : Table κ ν) (p : κ → ν → Bool) : Table κ ν where
  rows := t.rows.filter fun r => !p r.1 r.2
  keys_nodup := t.keys_nodup.sublist (List.filter_sublist.map _)

section Keyed

variable [DecidableEq κ]

/-- The row of a key. -/
def get? (t : Table κ ν) (k : κ) : Option ν := t.rows.lookup k

/-- Whether the table has a row of a key. -/
def has (t : Table κ ν) (k : κ) : Bool := (t.get? k).isSome

theorem lookup_eq_some_iff {rows : List (κ × ν)} (h : (rows.map Prod.fst).Nodup) {k : κ} {v : ν} :
    rows.lookup k = some v ↔ (k, v) ∈ rows := by
  induction rows with
  | nil => simp
  | cons r rows ih =>
    obtain ⟨k', v'⟩ := r
    rw [List.map_cons, List.nodup_cons] at h
    by_cases hk : k = k'
    · subst hk
      have hfresh : (k, v) ∉ rows := fun hm => h.1 (List.mem_map.2 ⟨(k, v), hm, rfl⟩)
      simp [hfresh, eq_comm]
    · have hne : (k == k') = false := by simpa using hk
      rw [List.lookup_cons, hne, ih h.2]
      simp [hk]

theorem get?_eq_some_iff {t : Table κ ν} {k : κ} {v : ν} : t.get? k = some v ↔ (k, v) ∈ t.rows :=
  lookup_eq_some_iff t.keys_nodup

theorem get?_eq_none_iff {t : Table κ ν} {k : κ} : t.get? k = none ↔ ∀ v, (k, v) ∉ t.rows := by
  rw [Option.eq_none_iff_forall_ne_some]
  exact forall_congr' fun v => not_congr get?_eq_some_iff

/-- Two reads agree when they give the same row for every value. -/
theorem get?_eq_of_mem_iff {t : Table κ ν} {k : κ} {o : Option ν}
    (h : ∀ v, (k, v) ∈ t.rows ↔ o = some v) : t.get? k = o := by
  apply Option.ext
  intro v
  rw [get?_eq_some_iff, h v]

theorem has_eq_false_iff {t : Table κ ν} {k : κ} : t.has k = false ↔ t.get? k = none := by
  simp [has]

theorem not_mem_keys_of_has_false {t : Table κ ν} {k : κ} (h : t.has k = false) :
    k ∉ t.rows.map Prod.fst := by
  rw [has_eq_false_iff, get?_eq_none_iff] at h
  intro hm
  obtain ⟨⟨k', v⟩, hr, rfl⟩ := List.mem_map.1 hm
  exact h v hr

/-- A table with a row of a new key appended. -/
def append (t : Table κ ν) (k : κ) (v : ν) (h : t.has k = false) : Table κ ν where
  rows := t.rows ++ [(k, v)]
  keys_nodup := by
    rw [List.map_append, List.map_singleton]
    refine t.keys_nodup.append (List.nodup_singleton k) ?_
    rw [List.disjoint_singleton]
    exact not_mem_keys_of_has_false h

/-- `INSERT`: no table when the key is taken. -/
def insert? (t : Table κ ν) (k : κ) (v : ν) : Option (Table κ ν) :=
  if h : t.has k = false then some (t.append k v h) else none

/-- `INSERT ... SELECT`: all rows, or no table when a key would occur twice. -/
def insertAll? (t : Table κ ν) (rows : List (κ × ν)) : Option (Table κ ν) :=
  if h : ((t.rows ++ rows).map Prod.fst).Nodup then some ⟨t.rows ++ rows, h⟩ else none

theorem rows_insertAll? {t t' : Table κ ν} {rows : List (κ × ν)}
    (h : t.insertAll? rows = some t') : t'.rows = t.rows ++ rows := by
  unfold insertAll? at h
  split at h
  · cases h
    rfl
  · cases h

/-- `INSERT ... ON CONFLICT DO NOTHING`. -/
def insertIgnore (t : Table κ ν) (k : κ) (v : ν) : Table κ ν :=
  if h : t.has k = false then t.append k v h else t

/-- `INSERT ... ON CONFLICT (key) DO UPDATE`: the row `v`, or `f` of the row there. -/
def upsert (t : Table κ ν) (k : κ) (v : ν) (f : ν → ν) : Table κ ν :=
  if h : t.has k = false then t.append k v h else t.update (fun k' _ => k' = k) (fun _ => f)

@[simp] theorem get?_empty (k : κ) : (empty : Table κ ν).get? k = none := rfl

@[simp] theorem get?_update (t : Table κ ν) (p : κ → ν → Bool) (f : κ → ν → ν) (k : κ) :
    (t.update p f).get? k = (t.get? k).map fun v => if p k v then f k v else v := by
  apply get?_eq_of_mem_iff
  intro v
  simp only [update, List.mem_map, Prod.mk.injEq, Option.map_eq_some_iff, get?_eq_some_iff]
  constructor
  · rintro ⟨⟨k', w⟩, hr, rfl, rfl⟩
    exact ⟨w, hr, rfl⟩
  · rintro ⟨w, hr, rfl⟩
    exact ⟨(k, w), hr, rfl, rfl⟩

@[simp] theorem get?_delete (t : Table κ ν) (p : κ → ν → Bool) (k : κ) :
    (t.delete p).get? k = (t.get? k).filter fun v => !p k v := by
  apply get?_eq_of_mem_iff
  intro v
  simp only [delete, List.mem_filter, Option.filter_eq_some_iff, get?_eq_some_iff]

/-- What a deletion leaves was there. -/
theorem get?_of_delete {t : Table κ ν} {p : κ → ν → Bool} {k : κ} {v : ν}
    (h : (t.delete p).get? k = some v) : t.get? k = some v ∧ p k v = false := by
  rw [get?_delete, Option.filter_eq_some_iff, Bool.not_eq_true'] at h
  exact h

/-- A deletion that does not name a key keeps its row. -/
theorem get?_delete_of_false (t : Table κ ν) {p : κ → ν → Bool} {k : κ} (h : ∀ v, p k v = false) :
    (t.delete p).get? k = t.get? k := by
  rw [get?_delete]
  cases t.get? k <;> simp [h]

theorem get?_append (t : Table κ ν) (k : κ) (v : ν) (h : t.has k = false) (k' : κ) :
    (t.append k v h).get? k' = if k' = k then some v else t.get? k' := by
  apply get?_eq_of_mem_iff
  intro w
  simp only [append, List.mem_append, List.mem_singleton, Prod.mk.injEq]
  by_cases hk : k' = k
  · subst hk
    have hnone : (k', w) ∉ t.rows := get?_eq_none_iff.1 (has_eq_false_iff.1 h) w
    simp [hnone, eq_comm]
  · simp [hk, get?_eq_some_iff]

@[simp] theorem get?_insertIgnore (t : Table κ ν) (k : κ) (v : ν) (k' : κ) :
    (t.insertIgnore k v).get? k' = if k' = k then some ((t.get? k).getD v) else t.get? k' := by
  unfold insertIgnore
  split
  · rename_i h
    rw [get?_append, has_eq_false_iff.1 h, Option.getD_none]
  · rename_i h
    rw [Bool.not_eq_false, has, Option.isSome_iff_exists] at h
    obtain ⟨w, hw⟩ := h
    split
    · rename_i hk
      rw [hk, hw, Option.getD_some]
    · rfl

@[simp] theorem get?_upsert (t : Table κ ν) (k : κ) (v : ν) (f : ν → ν) (k' : κ) :
    (t.upsert k v f).get? k' = if k' = k then some ((t.get? k).elim v f) else t.get? k' := by
  unfold upsert
  split
  · rename_i h
    rw [get?_append, has_eq_false_iff.1 h, Option.elim_none]
  · rename_i h
    rw [Bool.not_eq_false, has, Option.isSome_iff_exists] at h
    obtain ⟨w, hw⟩ := h
    rw [get?_update]
    by_cases hk : k' = k
    · rw [hk, hw]
      simp
    · simp [hk]

theorem has_iff_mem_keys {t : Table κ ν} {k : κ} : t.has k = true ↔ k ∈ t.rows.map Prod.fst := by
  rw [has, Option.isSome_iff_exists, List.mem_map]
  constructor
  · rintro ⟨v, hv⟩
    exact ⟨(k, v), get?_eq_some_iff.1 hv, rfl⟩
  · rintro ⟨⟨k', v⟩, hr, rfl⟩
    exact ⟨v, get?_eq_some_iff.2 hr⟩

/-- An insertion that succeeds was of a new key. -/
theorem has_of_insert? {t t' : Table κ ν} {k : κ} {v : ν} (h : t.insert? k v = some t') :
    t.has k = false := by
  unfold insert? at h
  split at h
  · assumption
  · cases h

theorem rows_insert? {t t' : Table κ ν} {k : κ} {v : ν} (h : t.insert? k v = some t') :
    t'.rows = t.rows ++ [(k, v)] := by
  unfold insert? at h
  split at h
  · cases h
    rfl
  · cases h

theorem get?_insert? {t t' : Table κ ν} {k : κ} {v : ν} (h : t.insert? k v = some t') (k' : κ) :
    t'.get? k' = if k' = k then some v else t.get? k' := by
  unfold insert? at h
  split at h
  · cases h
    exact get?_append t k v _ k'
  · cases h

theorem has_insert? {t t' : Table κ ν} {k : κ} {v : ν} (h : t.insert? k v = some t') (k' : κ) :
    t'.has k' = (decide (k' = k) || t.has k') := by
  by_cases hk : k' = k <;> simp [has, get?_insert? h, hk]

theorem has_upsert (t : Table κ ν) (k : κ) (v : ν) (f : ν → ν) (k' : κ) :
    (t.upsert k v f).has k' = (decide (k' = k) || t.has k') := by
  by_cases hk : k' = k <;> simp [has, hk]

end Keyed

/-! ## Counting rows -/

/-- `SELECT COUNT(*) ... WHERE p`. -/
def count (t : Table κ ν) (p : κ → ν → Bool) : Nat := t.rows.countP fun r => p r.1 r.2

theorem count_eq_zero_iff [DecidableEq κ] {t : Table κ ν} {p : κ → ν → Bool} :
    t.count p = 0 ↔ ∀ k v, t.get? k = some v → p k v = false := by
  simp only [count, List.countP_eq_zero, Bool.not_eq_true, Prod.forall, get?_eq_some_iff]

/-- A predicate on one key counts at most one row. -/
theorem count_le_one_of_key [DecidableEq κ] {t : Table κ ν} {p : κ → ν → Bool} {k : κ}
    (hkey : ∀ k' v, t.get? k' = some v → p k' v = true → k' = k) : t.count p ≤ 1 := by
  refine le_trans ?_ (List.nodup_iff_count_le_one.1 t.keys_nodup k)
  rw [count, List.count, List.countP_map]
  apply List.countP_mono_left
  intro r hr hp
  simp [hkey r.1 r.2 (get?_eq_some_iff.2 hr) hp]

/-- A predicate on one key counts one row exactly when the key's row meets it. -/
theorem count_key_eq_one_iff [DecidableEq κ] {t : Table κ ν} {p : κ → ν → Bool} {k : κ}
    (hkey : ∀ k' v, p k' v = true → k' = k) :
    t.count p = 1 ↔ ∃ v, t.get? k = some v ∧ p k v = true := by
  have hle : t.count p ≤ 1 := count_le_one_of_key fun k' v _ => hkey k' v
  constructor
  · intro hone
    obtain ⟨⟨k', v⟩, hr, hp⟩ := List.countP_pos_iff.1 (by omega : 0 < t.count p)
    have hk : k' = k := hkey k' v hp
    subst hk
    exact ⟨v, get?_eq_some_iff.2 hr, hp⟩
  · rintro ⟨v, hv, hp⟩
    have hpos : 0 < t.count p := List.countP_pos_iff.2 ⟨(k, v), get?_eq_some_iff.1 hv, hp⟩
    omega

/-- Of two rows, one has another key than a given one. -/
theorem exists_ne_of_one_lt_count [DecidableEq κ] {t : Table κ ν} {p : κ → ν → Bool}
    (h : 1 < t.count p) (k : κ) : ∃ k' v, k' ≠ k ∧ t.get? k' = some v ∧ p k' v = true := by
  by_contra hnone
  push Not at hnone
  have := count_le_one_of_key (k := k) fun k' v hrow hp => by
    by_contra hne
    exact hnone k' v hne hrow hp
  omega

/-- A deletion does not raise a count. -/
theorem count_delete_le (t : Table κ ν) (p q : κ → ν → Bool) : (t.delete p).count q ≤ t.count q :=
  List.Sublist.countP_le List.filter_sublist

/-- An update that lets no new row in does not raise a count. -/
theorem count_update_le {t : Table κ ν} {p q : κ → ν → Bool} {f : κ → ν → ν}
    (h : ∀ r ∈ t.rows, p r.1 r.2 = true → q r.1 (f r.1 r.2) = true → q r.1 r.2 = true) :
    (t.update p f).count q ≤ t.count q := by
  rw [count, count, update, List.countP_map]
  apply List.countP_mono_left
  intro r hr hq
  simp only [Function.comp_apply] at hq
  split at hq
  · rename_i hp
    exact h r hr hp hq
  · exact hq

/-- An update of one key raises a count by at most one. -/
theorem count_update_key_le [DecidableEq κ] (t : Table κ ν) (k : κ) (f : κ → ν → ν)
    (q : κ → ν → Bool) : (t.update (fun k' _ => k' = k) f).count q ≤ t.count q + 1 := by
  have hrows : ∀ rows : List (κ × ν), (rows.map Prod.fst).Nodup →
      (rows.map fun r => (r.1, if decide (r.1 = k) = true then f r.1 r.2 else r.2)).countP
        (fun r => q r.1 r.2) ≤ rows.countP (fun r => q r.1 r.2) + 1 := by
    intro rows hnodup
    induction rows with
    | nil => simp
    | cons r rows ih =>
      rw [List.map_cons, List.nodup_cons] at hnodup
      rw [List.map_cons, List.countP_cons, List.countP_cons]
      by_cases hk : r.1 = k
      · -- the key is here, so the rest is not touched
        have hrest : (rows.map fun r => (r.1, if decide (r.1 = k) = true then f r.1 r.2 else r.2)) =
            rows := by
          refine (List.map_congr_left fun r' hr' => ?_).trans rows.map_id
          have hne : r'.1 ≠ k := fun he =>
            hnodup.1 (List.mem_map.2 ⟨r', hr', he.trans hk.symm⟩)
          simp [hne]
        rw [hrest]
        split <;> split <;> omega
      · have hthis : (r.1, if decide (r.1 = k) = true then f r.1 r.2 else r.2) = r := by simp [hk]
        rw [hthis]
        have := ih hnodup.2
        omega
  exact hrows t.rows t.keys_nodup

section KeyedCount

variable [DecidableEq κ]

/-- Two tables with the same rows of interest count them alike. -/
theorem count_congr {t u : Table κ ν} {p q : κ → ν → Bool}
    (h : ∀ k v, t.get? k = some v ∧ p k v = true ↔ u.get? k = some v ∧ q k v = true) :
    t.count p = u.count q := by
  rw [count, count, List.countP_eq_length_filter, List.countP_eq_length_filter]
  refine List.Perm.length_eq ((List.perm_ext_iff_of_nodup ?_ ?_).2 fun r => ?_)
  · exact (List.Nodup.of_map _ t.keys_nodup).filter _
  · exact (List.Nodup.of_map _ u.keys_nodup).filter _
  · rw [List.mem_filter, List.mem_filter]
    simpa only [get?_eq_some_iff] using h r.1 r.2

/-- A count is that of the other keys and the row of one key. -/
theorem count_split (t : Table κ ν) (p : κ → ν → Bool) (k : κ) :
    t.count p =
      t.count (fun k' v => k' ≠ k && p k' v) + if (t.get? k).any (p k) then 1 else 0 := by
  have hparts : t.count p =
      t.count (fun k' v => k' ≠ k && p k' v) + t.count fun k' v => k' = k && p k' v := by
    simp only [count]
    induction t.rows with
    | nil => rfl
    | cons r rows ih =>
      simp only [List.countP_cons, ih]
      by_cases hk : r.1 = k <;> cases p r.1 r.2 <;> simp [hk] <;> omega
  have hkey : ∀ k' v, (decide (k' = k) && p k' v) = true → k' = k := by
    intro k' v hp
    exact of_decide_eq_true (Bool.and_eq_true_iff.1 hp).1
  have hone := count_key_eq_one_iff (t := t) hkey
  have hle := count_le_one_of_key (t := t) fun k' v _ => hkey k' v
  have hiff : t.count (fun k' v => k' = k && p k' v) = 1 ↔ (t.get? k).any (p k) = true := by
    rw [hone]
    cases t.get? k <;> simp
  rw [hparts]
  by_cases hany : (t.get? k).any (p k) = true
  · rw [if_pos hany, hiff.2 hany]
  · have := mt hiff.1 hany
    rw [if_neg hany]
    omega

/-- When only the row of one key has changed, a count has changed by that row. -/
theorem count_change {t u : Table κ ν} {k : κ} (h : ∀ k', k' ≠ k → u.get? k' = t.get? k')
    (p : κ → ν → Bool) :
    u.count p + (if (t.get? k).any (p k) then 1 else 0) =
      t.count p + if (u.get? k).any (p k) then 1 else 0 := by
  have hothers : u.count (fun k' v => k' ≠ k && p k' v) = t.count fun k' v => k' ≠ k && p k' v := by
    refine count_congr fun k' v => ?_
    by_cases hk : k' = k
    · simp [hk]
    · rw [h k' hk]
  rw [count_split t p k, count_split u p k, hothers]
  omega

end KeyedCount

/-! ## Summing a column -/

/-- `SELECT SUM(w)`. -/
def sum (t : Table κ ν) (w : κ → ν → Int) : Int := (t.rows.map fun r => w r.1 r.2).sum

theorem sum_nonneg {t : Table κ ν} {w : κ → ν → Int} (h : ∀ r ∈ t.rows, 0 ≤ w r.1 r.2) :
    0 ≤ t.sum w := by
  apply List.sum_nonneg
  intro n hn
  obtain ⟨r, hr, rfl⟩ := List.mem_map.1 hn
  exact h r hr

theorem sum_congr {t : Table κ ν} {w w' : κ → ν → Int}
    (h : ∀ r ∈ t.rows, w r.1 r.2 = w' r.1 r.2) : t.sum w = t.sum w' := by
  rw [sum, sum, List.map_congr_left h]

/-- A deletion lowers a sum of numbers that are not negative. -/
theorem sum_delete_le {t : Table κ ν} {w : κ → ν → Int} (p : κ → ν → Bool)
    (h : ∀ r ∈ t.rows, 0 ≤ w r.1 r.2) : (t.delete p).sum w ≤ t.sum w := by
  rw [sum, sum, delete]
  have hall : ∀ rows : List (κ × ν), (∀ r ∈ rows, 0 ≤ w r.1 r.2) →
      ((rows.filter fun r => !p r.1 r.2).map fun r => w r.1 r.2).sum ≤
        (rows.map fun r => w r.1 r.2).sum := by
    intro rows
    induction rows with
    | nil => exact fun _ => le_refl _
    | cons r rows ih =>
      intro hrows
      have htail := ih fun r' hr' => hrows r' (List.mem_cons_of_mem _ hr')
      have hhead := hrows r List.mem_cons_self
      rw [List.filter_cons]
      split
      · simp only [List.map_cons, List.sum_cons]
        omega
      · simp only [List.map_cons, List.sum_cons]
        omega
  exact hall t.rows h

/-- An update that keeps the column keeps its sum. -/
theorem sum_update {t : Table κ ν} {p : κ → ν → Bool} {f : κ → ν → ν} {w : κ → ν → Int}
    (h : ∀ k v, w k (f k v) = w k v) : (t.update p f).sum w = t.sum w := by
  rw [sum, sum, update, List.map_map]
  congr 1
  apply List.map_congr_left
  intro r _
  simp only [Function.comp_apply]
  split
  · exact h r.1 r.2
  · rfl

section KeyedSum

variable [DecidableEq κ]

/-- A sum is the part of one key and the rest. -/
theorem sum_split (t : Table κ ν) (w : κ → ν → Int) (k : κ) :
    t.sum w = t.sum (fun k' v => if k' = k then 0 else w k' v) + (t.get? k).elim 0 (w k) := by
  have hall : ∀ rows : List (κ × ν), (rows.map Prod.fst).Nodup →
      (rows.map fun r => w r.1 r.2).sum =
        (rows.map fun r => if r.1 = k then 0 else w r.1 r.2).sum +
          (rows.lookup k).elim 0 (w k) := by
    intro rows
    induction rows with
    | nil => exact fun _ => rfl
    | cons r rows ih =>
      intro hnodup
      obtain ⟨k', v⟩ := r
      rw [List.map_cons, List.nodup_cons] at hnodup
      have hrest := ih hnodup.2
      by_cases hk : k' = k
      · -- the key is here, and not in the rest
        subst hk
        have hnone : rows.lookup k' = none := by
          rw [Option.eq_none_iff_forall_ne_some]
          intro v' hv'
          exact hnodup.1 (List.mem_map.2 ⟨(k', v'), (lookup_eq_some_iff hnodup.2).1 hv', rfl⟩)
        rw [hnone, Option.elim_none] at hrest
        simp only [List.map_cons, List.sum_cons, List.lookup_cons, beq_self_eq_true, if_true,
          Option.elim_some]
        omega
      · have hne : (k == k') = false := by simpa using Ne.symm hk
        simp only [List.map_cons, List.sum_cons, List.lookup_cons, hne, if_neg hk]
        omega
  exact hall t.rows t.keys_nodup

/-- An upsert replaces the part of its key. -/
theorem sum_upsert (t : Table κ ν) (k : κ) (v : ν) (f : ν → ν) (w : κ → ν → Int) :
    (t.upsert k v f).sum w =
      t.sum (fun k' v => if k' = k then 0 else w k' v) + w k ((t.get? k).elim v f) := by
  have hrest : (t.upsert k v f).sum (fun k' v => if k' = k then 0 else w k' v) =
      t.sum fun k' v => if k' = k then 0 else w k' v := by
    unfold upsert
    split
    · simp [sum, append]
    · simp only [sum, update, List.map_map]
      congr 1
      apply List.map_congr_left
      intro r _
      by_cases hk : r.1 = k
      · simp [hk]
      · simp [hk]
  rw [sum_split (t.upsert k v f) w k, hrest, get?_upsert, if_pos rfl, Option.elim_some]

end KeyedSum

end Table

end Lib
