import ReproitCloud.Lib.Table

/-!
# Count tables as views of a multiset

A count table keeps, for each key, how many source rows have that key, and no
row for a key none has.  What it stands for is a multiset of keys.  `Counts t m`
says that the table `t` is that view of `m`: a key of `m` has its count and any
other key has no row.

The view is maintained by three statements.

* `bump` adds to one key, creating its row.
* `bumpGroups` is the upsert of a `GROUP BY key` over a batch of keys.
* `dropOne` takes one off a key and then deletes the rows of a range of keys
  whose count is zero or less.

Each has a lemma giving the multiset it leaves.  `Counts.unique` says a table is
the view of at most one multiset, so a table that agrees with two
recomputations makes them equal.
-/

namespace Lib

open Multiset (replicate)

variable {κ : Type} [DecidableEq κ]

/-- The table holds exactly the counts of the keys of `m`. -/
def Counts (t : Table κ Int) (m : Multiset κ) : Prop :=
  ∀ k, t.get? k = if k ∈ m then some (m.count k : Int) else none

namespace Table

/-- Add `n` to the count of a key. -/
def bump (t : Table κ Int) (k : κ) (n : Int) : Table κ Int := t.upsert k n (· + n)

/-- Add to each key of a batch the number of times it occurs there. -/
def bumpGroups (t : Table κ Int) (ks : List κ) : Table κ Int :=
  ks.dedup.foldl (fun t k => t.bump k (ks.count k)) t

/-- Take one off a key, then delete the swept rows that are not positive. -/
def dropOne (t : Table κ Int) (sweep : κ → Bool) (k : κ) : Table κ Int :=
  (t.update (fun k' _ => k' = k) fun _ n => n - 1).delete fun k' n => sweep k' && n ≤ 0

end Table

theorem counts_empty : Counts (Table.empty : Table κ Int) 0 := by
  intro k
  simp

theorem Counts.unique {t : Table κ Int} {m m' : Multiset κ} (h : Counts t m) (h' : Counts t m') :
    m = m' := by
  ext k
  have hk := (h k).symm.trans (h' k)
  by_cases hm : k ∈ m <;> by_cases hm' : k ∈ m'
  · rw [if_pos hm, if_pos hm', Option.some.injEq] at hk
    exact_mod_cast hk
  · simp [hm, hm'] at hk
  · simp [hm, hm'] at hk
  · rw [Multiset.count_eq_zero_of_notMem hm, Multiset.count_eq_zero_of_notMem hm']

/-- A counted key has a positive count. -/
theorem Counts.pos {t : Table κ Int} {m : Multiset κ} (h : Counts t m) {k : κ} {n : Int}
    (hn : t.get? k = some n) : 0 < n ∧ k ∈ m := by
  rw [h k] at hn
  by_cases hk : k ∈ m
  · rw [if_pos hk, Option.some.injEq] at hn
    have := Multiset.count_pos.2 hk
    exact ⟨by omega, hk⟩
  · simp [hk] at hn

/-- The keys with a row are the counted ones. -/
theorem Counts.exists_row_iff {t : Table κ Int} {m : Multiset κ} (h : Counts t m) {k : κ} :
    (∃ n, (k, n) ∈ t.rows) ↔ k ∈ m := by
  constructor
  · rintro ⟨n, hn⟩
    exact (h.pos (Table.get?_eq_some_iff.2 hn)).2
  · intro hk
    refine ⟨m.count k, Table.get?_eq_some_iff.1 ?_⟩
    rw [h k, if_pos hk]

theorem Counts.bump {t : Table κ Int} {m : Multiset κ} (h : Counts t m) (k : κ) {n : Nat}
    (hn : n ≠ 0) : Counts (t.bump k n) (m + replicate n k) := by
  intro k'
  rw [Table.bump, Table.get?_upsert, h k]
  by_cases hk : k' = k
  · subst hk
    have hin : k' ∈ m + replicate n k' :=
      Multiset.mem_add.2 (.inr (Multiset.mem_replicate.2 ⟨hn, rfl⟩))
    rw [if_pos rfl, if_pos hin, Multiset.count_add, Multiset.count_replicate_self]
    by_cases hm : k' ∈ m
    · simp [hm]
    · simp [hm]
  · have hmem : k' ∈ m + replicate n k ↔ k' ∈ m := by
      simp [Multiset.mem_replicate, hk]
    have hcount : (m + replicate n k).count k' = m.count k' := by
      simp [Multiset.count_replicate, Ne.symm hk]
    rw [if_neg hk, h k', hcount]
    simp only [hmem]

/-- A batch of upserts over different keys adds the occurrences of those keys. -/
theorem Counts.bump_keys {t : Table κ Int} {m : Multiset κ} (h : Counts t m) (ks ds : List κ)
    (hnodup : ds.Nodup) (hds : ∀ k ∈ ds, k ∈ ks) :
    Counts (ds.foldl (fun t k => t.bump k (ks.count k)) t)
      (m + ↑(ks.filter (· ∈ ds))) := by
  induction ds generalizing t m with
  | nil => simpa using h
  | cons d ds ih =>
    rw [List.nodup_cons] at hnodup
    have hcount : ks.count d ≠ 0 := by
      have := List.count_pos_iff.2 (hds d (by simp))
      omega
    have hrest := ih (h.bump d hcount) hnodup.2 fun k hk => hds k (by simp [hk])
    have heq : m + replicate (ks.count d) d + ↑(ks.filter (· ∈ ds)) =
        m + ((ks.filter (· ∈ d :: ds) : List κ) : Multiset κ) := by
      rw [Multiset.add_assoc]
      congr 1
      ext k
      rw [Multiset.count_add, Multiset.count_replicate, Multiset.coe_count, Multiset.coe_count]
      by_cases hk : d = k
      · subst hk
        have hout : (ks.filter (· ∈ ds)).count d = 0 :=
          List.count_eq_zero_of_not_mem (by simp [hnodup.1])
        have hin : (ks.filter (· ∈ d :: ds)).count d = ks.count d :=
          List.count_filter (by simp)
        rw [if_pos rfl, hout, hin, Nat.add_zero]
      · rw [if_neg hk, Nat.zero_add]
        by_cases hkd : k ∈ ds
        · rw [List.count_filter (by simp [hkd]), List.count_filter (by simp [hkd])]
        · rw [List.count_eq_zero_of_not_mem (by simp [hkd]),
            List.count_eq_zero_of_not_mem (by simp [hkd, Ne.symm hk])]
    rw [heq] at hrest
    exact hrest

theorem Counts.bumpGroups {t : Table κ Int} {m : Multiset κ} (h : Counts t m) (ks : List κ) :
    Counts (t.bumpGroups ks) (m + ↑ks) := by
  have hall : ks.filter (· ∈ ks.dedup) = ks := by
    rw [List.filter_eq_self]
    intro k hk
    simpa using hk
  have := h.bump_keys ks ks.dedup ks.nodup_dedup fun k hk => List.mem_dedup.1 hk
  rwa [hall] at this

/-- Adding to many keys, as often as it comes. -/
theorem Counts.bump_rows {t : Table κ Int} {m : Multiset κ} (h : Counts t m)
    {rows : List (κ × Int)} (hpos : ∀ r ∈ rows, 0 < r.2) :
    Counts (rows.foldl (fun t r => t.bump r.1 r.2) t)
      (m + (rows.map fun r => replicate r.2.toNat r.1).sum) := by
  induction rows generalizing t m with
  | nil => simpa using h
  | cons r rows ih =>
    rw [List.forall_mem_cons] at hpos
    have hone := h.bump r.1 (Int.lt_toNat.2 hpos.1).ne'
    rw [Int.toNat_of_nonneg hpos.1.le] at hone
    have hrest := ih hone hpos.2
    rwa [Multiset.add_assoc] at hrest

/-- The rows of a view are the multiset again. -/
theorem Counts.sum_rows {t : Table κ Int} {m : Multiset κ} (h : Counts t m) :
    (t.rows.map fun r => replicate r.2.toNat r.1).sum = m := by
  have hcount : ∀ (rows : List (κ × Int)) (k : κ), (rows.map Prod.fst).Nodup →
      (rows.map fun r => replicate r.2.toNat r.1).sum.count k =
        ((rows.lookup k).map Int.toNat).getD 0 := by
    intro rows k hnodup
    induction rows with
    | nil => rfl
    | cons r rows ih =>
      rw [List.map_cons, List.nodup_cons] at hnodup
      rw [List.map_cons, List.sum_cons, Multiset.count_add, ih hnodup.2, List.lookup_cons]
      by_cases hk : k = r.1
      · have hout : rows.lookup k = none := by
          rw [List.lookup_eq_none_iff]
          intro r' hr'
          rw [bne_iff_ne, hk]
          exact fun heq => hnodup.1 (heq ▸ List.mem_map_of_mem hr')
        rw [hout, hk]
        simp
      · rw [Multiset.count_replicate, if_neg (Ne.symm hk), beq_false_of_ne hk, Nat.zero_add]
  ext k
  have hk : t.rows.lookup k = if k ∈ m then some (m.count k : Int) else none := h k
  rw [hcount t.rows k t.keys_nodup, hk]
  split
  · rfl
  · rename_i hnot
    exact (Multiset.count_eq_zero.2 hnot).symm

/-- Dropping a key removes one occurrence of it, if there is one.  The sweep
deletes no other row, since every other row is positive. -/
theorem Counts.dropOne {t : Table κ Int} {m : Multiset κ} (h : Counts t m) {sweep : κ → Bool}
    {k : κ} (hsweep : sweep k = true) : Counts (t.dropOne sweep k) (m.erase k) := by
  intro k'
  rw [Table.dropOne, Table.get?_delete, Table.get?_update, h k']
  by_cases he : k' = k
  · subst he
    rw [Multiset.count_erase_self]
    by_cases hk : k' ∈ m
    · have hpos := Multiset.count_pos.2 hk
      by_cases hone : m.count k' = 1
      · have hnot : k' ∉ m.erase k' := by
          rw [← Multiset.count_eq_zero, Multiset.count_erase_self]
          omega
        simp [hk, hone, hnot, hsweep]
      · have hin : k' ∈ m.erase k' := by
          rw [← Multiset.count_pos, Multiset.count_erase_self]
          omega
        simp [hk, hin]
        omega
    · simp [hk]
  · have hmem : k' ∈ m.erase k ↔ k' ∈ m := Multiset.mem_erase_of_ne he
    rw [Multiset.count_erase_of_ne he]
    by_cases hin : k' ∈ m
    · simp [he, hin, hmem]
    · simp [hin, hmem]

/-- Dropping a list of counted keys removes them all. -/
theorem Counts.dropMany {t : Table κ Int} {m : Multiset κ} {sweep : κ → κ → Bool}
    (hsweep : ∀ k, sweep k k = true) (ks : List κ) (h : Counts t (m + ↑ks)) :
    Counts (ks.foldl (fun t k => t.dropOne (sweep k) k) t) m := by
  induction ks generalizing t with
  | nil => simpa using h
  | cons k ks ih =>
    have hdrop := h.dropOne (hsweep k)
    have herase : (m + ↑(k :: ks)).erase k = m + (ks : Multiset κ) := by
      rw [← Multiset.cons_coe, Multiset.add_cons, Multiset.erase_cons_head]
    rw [herase] at hdrop
    exact ih hdrop

/-- Dropping keys that are not counted changes no count. -/
theorem Counts.dropMany_uncounted {t : Table κ Int} {m : Multiset κ} {sweep : κ → κ → Bool}
    (hsweep : ∀ k, sweep k k = true) (ks : List κ) (h : Counts t m) (hks : ∀ k ∈ ks, k ∉ m) :
    Counts (ks.foldl (fun t k => t.dropOne (sweep k) k) t) m := by
  induction ks generalizing t with
  | nil => exact h
  | cons k ks ih =>
    have hdrop := h.dropOne (hsweep k)
    rw [Multiset.erase_of_notMem (hks k (by simp))] at hdrop
    exact ih hdrop fun k' hk' => hks k' (by simp [hk'])

/-- Deleting the rows of a set of keys removes all their occurrences. -/
theorem Counts.delete {t : Table κ Int} {m : Multiset κ} (h : Counts t m) (p : κ → Bool) :
    Counts (t.delete fun k _ => p k) (m.filter fun k => p k = false) := by
  intro k
  rw [Table.get?_delete, h k]
  by_cases hk : k ∈ m <;> cases hp : p k <;> simp [hk, hp]

/-- How often each key of a list comes, counted from its first occurrence on. -/
def tally (ks : List κ) : Table κ Nat := ks.foldl (fun t k => t.upsert k 1 (· + 1)) .empty

theorem get?_tally [BEq κ] [LawfulBEq κ] (ks : List κ) (k : κ) :
    (tally ks).get? k = if k ∈ ks then some (ks.count k) else none := by
  induction ks using List.reverseRecOn with
  | nil => rfl
  | append_singleton ks a ih =>
    have hstep : tally (ks ++ [a]) = (tally ks).upsert a 1 (· + 1) := by
      rw [tally, List.foldl_append]
      rfl
    rw [hstep, Table.get?_upsert, List.count_append]
    by_cases hk : k = a
    · subst hk
      rw [if_pos rfl, if_pos (List.mem_append_right _ (List.mem_singleton.2 rfl)), ih]
      by_cases hmem : k ∈ ks
      · simp [hmem]
      · simp [hmem, List.count_eq_zero_of_not_mem]
    · have hcount : [a].count k = 0 := List.count_eq_zero_of_not_mem (by simpa using hk)
      rw [if_neg hk, ih, hcount]
      simp [hk]

theorem mem_rows_tally [BEq κ] [LawfulBEq κ] {ks : List κ} {k : κ} {n : Nat} :
    (k, n) ∈ (tally ks).rows ↔ k ∈ ks ∧ n = ks.count k := by
  rw [← Table.get?_eq_some_iff, get?_tally]
  split
  · rename_i hmem
    rw [Option.some.injEq]
    exact ⟨fun h => ⟨hmem, h.symm⟩, fun h => h.2.symm⟩
  · rename_i hmem
    exact ⟨fun h => (Option.some_ne_none n h.symm).elim, fun h => absurd h.1 hmem⟩

theorem getD_tally [BEq κ] [LawfulBEq κ] (ks : List κ) (k : κ) : ((tally ks).get? k).getD 0 = ks.count k := by
  rw [get?_tally]
  split
  · rfl
  · rename_i hmem
    exact (List.count_eq_zero_of_not_mem hmem).symm

end Lib
