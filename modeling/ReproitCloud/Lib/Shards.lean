import ReproitCloud.Lib.CountView

/-!
# Tables with owners

The rows of a table belong to owners, by their keys.  The rows of one owner are a *shard*.  A
statement that touches no key of an owner keeps the shard as it is, in its order.  There is a lemma
for each kind of statement, and one for a statement that is repeated over a list.
-/

namespace Lib

namespace Table

variable {κ ν α : Type} [DecidableEq α]

/-- The rows of an owner. -/
def shard (owner : κ → α) (a : α) (t : Table κ ν) : List (κ × ν) :=
  t.rows.filter fun r => owner r.1 = a

variable {owner : κ → α} {a : α}

/-- A repeated statement keeps a shard that each of its steps keeps. -/
theorem shard_foldl {ι : Type} {step : Table κ ν → ι → Table κ ν} {xs : List ι}
    (hstep : ∀ t, ∀ x ∈ xs, (step t x).shard owner a = t.shard owner a) (t : Table κ ν) :
    (xs.foldl step t).shard owner a = t.shard owner a := by
  induction xs generalizing t with
  | nil => rfl
  | cons x xs ih =>
    rw [List.foldl_cons, ih (fun t y hy => hstep t y (List.mem_cons_of_mem x hy)),
      hstep t x List.mem_cons_self]

theorem shard_delete {p : κ → ν → Bool} (h : ∀ k v, owner k = a → p k v = false)
    (t : Table κ ν) : (t.delete p).shard owner a = t.shard owner a := by
  rw [shard, delete, List.filter_filter]
  refine List.filter_congr fun r _ => ?_
  by_cases hr : owner r.1 = a
  · rw [h r.1 r.2 hr, decide_eq_true hr]
    rfl
  · rw [decide_eq_false hr, Bool.false_and]

/-- The rows of an owner can be deleted as a whole. -/
theorem shard_delete_owner (t : Table κ ν) :
    (t.delete fun k _ => owner k = a).shard owner a = [] := by
  rw [shard, delete, List.filter_filter, List.filter_eq_nil_iff]
  intro r _
  simp

theorem shard_delete_other {b : α} (h : b ≠ a) (t : Table κ ν) :
    (t.delete fun k _ => owner k = b).shard owner a = t.shard owner a :=
  shard_delete (fun _ _ hk => decide_eq_false fun heq => h (heq.symm.trans hk)) t

theorem shard_update {p : κ → ν → Bool} {f : κ → ν → ν}
    (h : ∀ k v, owner k = a → p k v = false) (t : Table κ ν) :
    (t.update p f).shard owner a = t.shard owner a := by
  rw [shard, update, List.filter_map, shard]
  have hkeep : ∀ r ∈ t.rows.filter fun r => owner r.1 = a,
      (fun r : κ × ν => (r.1, if p r.1 r.2 then f r.1 r.2 else r.2)) r = r := by
    intro r hr
    have hp := h r.1 r.2 (of_decide_eq_true (List.mem_filter.1 hr).2)
    simp only [hp, if_neg Bool.false_ne_true]
  exact (List.map_congr_left hkeep).trans (List.map_id _)

/-- An update adds no rows to an empty shard. -/
theorem shard_update_eq_nil {t : Table κ ν} (p : κ → ν → Bool) (f : κ → ν → ν)
    (h : t.shard owner a = []) : (t.update p f).shard owner a = [] := by
  rw [shard, List.filter_eq_nil_iff] at h
  rw [shard, update, List.filter_eq_nil_iff]
  intro r hr
  obtain ⟨r', hr', rfl⟩ := List.mem_map.1 hr
  exact h r' hr'

/-- Nor does a deletion. -/
theorem shard_delete_eq_nil {t : Table κ ν} (p : κ → ν → Bool) (h : t.shard owner a = []) :
    (t.delete p).shard owner a = [] := by
  rw [shard, List.filter_eq_nil_iff] at h
  rw [shard, delete, List.filter_eq_nil_iff]
  exact fun r hr => h r (List.mem_filter.1 hr).1

theorem shard_foldl_eq_nil {ι : Type} {step : Table κ ν → ι → Table κ ν} {xs : List ι}
    (hstep : ∀ t x, t.shard owner a = [] → (step t x).shard owner a = []) {t : Table κ ν}
    (h : t.shard owner a = []) : (xs.foldl step t).shard owner a = [] := by
  induction xs generalizing t with
  | nil => exact h
  | cons x xs ih => exact ih (hstep t x h)

variable [DecidableEq κ]

theorem shard_append {k : κ} (hk : owner k ≠ a) (t : Table κ ν) (v : ν) (h : t.has k = false) :
    (t.append k v h).shard owner a = t.shard owner a := by
  rw [shard, append, List.filter_append, List.filter_cons_of_neg (by simpa using hk),
    List.filter_nil, List.append_nil, shard]

theorem shard_insertIgnore {k : κ} (hk : owner k ≠ a) (t : Table κ ν) (v : ν) :
    (t.insertIgnore k v).shard owner a = t.shard owner a := by
  unfold insertIgnore
  split
  · exact shard_append hk t v _
  · rfl

theorem shard_upsert {k : κ} (hk : owner k ≠ a) (t : Table κ ν) (v : ν) (f : ν → ν) :
    (t.upsert k v f).shard owner a = t.shard owner a := by
  unfold upsert
  split
  · exact shard_append hk t v _
  · refine shard_update (fun k' v hk' => decide_eq_false fun heq => hk ?_) t
    rw [← heq]
    exact hk'

/-- Counting keys of other owners. -/
theorem shard_bumpGroups {ks : List κ} (h : ∀ k ∈ ks, owner k ≠ a) (t : Table κ Int) :
    (t.bumpGroups ks).shard owner a = t.shard owner a :=
  shard_foldl (fun t k hk => shard_upsert (h k (List.mem_dedup.1 hk)) t _ _) t

/-- Taking one off the key of another owner. -/
theorem shard_dropOne {sweep : κ → Bool} {k : κ} (hk : owner k ≠ a)
    (hsweep : ∀ k', sweep k' = true → owner k' = owner k) (t : Table κ Int) :
    (t.dropOne sweep k).shard owner a = t.shard owner a := by
  unfold dropOne
  rw [shard_delete, shard_update]
  · exact fun k' _ hk' => decide_eq_false fun heq => hk (heq ▸ hk')
  · intro k' v hk'
    rw [Bool.and_eq_false_iff]
    refine .inl (Bool.eq_false_iff.2 fun hs => hk ?_)
    rw [← hsweep k' hs]
    exact hk'

theorem shard_dropOne_eq_nil {t : Table κ Int} (sweep : κ → Bool) (k : κ)
    (h : t.shard owner a = []) : (t.dropOne sweep k).shard owner a = [] :=
  shard_delete_eq_nil _ (shard_update_eq_nil _ _ h)

end Table

/-- Weights of things with different keys sum up to no more than weights of things that have each of
the keys, with as much at least. -/
theorem sum_le_of_keyed {α κ : Type} {key : α → κ} {w : α → Nat} {xs ys : List α}
    (hnodup : (xs.map key).Nodup) (h : ∀ x ∈ xs, ∃ y ∈ ys, key y = key x ∧ w x ≤ w y) :
    (xs.map w).sum ≤ (ys.map w).sum := by
  induction xs generalizing ys with
  | nil => exact Nat.zero_le _
  | cons x xs ih =>
    rw [List.map_cons, List.nodup_cons] at hnodup
    obtain ⟨y, hy, hkey, hle⟩ := h x List.mem_cons_self
    obtain ⟨before, after, rfl⟩ := List.append_of_mem hy
    have hrest : (xs.map w).sum ≤ ((before ++ after).map w).sum := by
      refine ih hnodup.2 fun x' hx' => ?_
      obtain ⟨y', hy', hkey', hle'⟩ := h x' (List.mem_cons_of_mem x hx')
      refine ⟨y', ?_, hkey', hle'⟩
      have hne : y' ≠ y := by
        rintro rfl
        exact hnodup.1 (List.mem_map.2 ⟨x', hx', hkey'.symm.trans hkey⟩)
      simpa [hne] using hy'
    simp only [List.map_append, List.map_cons, List.sum_append, List.sum_cons] at hrest ⊢
    omega

end Lib
