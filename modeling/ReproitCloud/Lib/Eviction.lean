import ReproitCloud.Lib.Table

/-!
# Eviction from a bounded cache

A cache with a bound drops an entry of the least stamp when it is full.  Of several
entries with that stamp, the order of a hash map decides, which is `pick`.

* `dropLeast` drops such an entry.
* `roomIn` is the room that is made for a key: first the stale entries go, and if that is
  not enough, one of the least stamp.

`length_upsert_roomIn` says that an insertion after it keeps the bound.
-/

namespace Lib

variable {κ ν : Type} [DecidableEq κ]

/-- The key of an entry that no other one has a smaller stamp than. -/
def leastKey (stamp : ν → Int) (t : Table κ ν) (pick : κ) : Option κ :=
  let first := t.rows.filter fun r => t.rows.all fun r' => stamp r.2 ≤ stamp r'.2
  if first.any fun r => r.1 = pick then some pick else first.head?.map Prod.fst

/-- A table without such an entry. -/
def dropLeast (stamp : ν → Int) (t : Table κ ν) (pick : κ) : Table κ ν :=
  match leastKey stamp t pick with
  | some k => t.delete fun k' _ => k' = k
  | none => t

/-- A cache with room for a key. -/
def roomIn (cap : Nat) (stale : ν → Bool) (stamp : ν → Int) (t : Table κ ν) (k pick : κ) :
    Table κ ν :=
  if cap ≤ t.rows.length && !t.has k then
    let kept := t.delete fun _ v => stale v
    if cap ≤ kept.rows.length then dropLeast stamp kept pick else kept
  else t

variable {stamp : ν → Int} {t : Table κ ν} {pick k : κ}

/-! ## The least stamp -/

theorem leastKey_eq_some (h : leastKey stamp t pick = some k) :
    ∃ v, (k, v) ∈ t.rows ∧ ∀ r ∈ t.rows, stamp v ≤ stamp r.2 := by
  have hfirst : ∃ r ∈ t.rows.filter fun r => t.rows.all fun r' => stamp r.2 ≤ stamp r'.2,
      r.1 = k := by
    rw [leastKey] at h
    split at h
    · rename_i hany
      obtain ⟨r, hr, hpick⟩ := List.any_eq_true.mp hany
      cases h
      exact ⟨r, hr, of_decide_eq_true hpick⟩
    · obtain ⟨r, hr, hk⟩ := Option.map_eq_some_iff.mp h
      exact ⟨r, List.mem_of_mem_head? hr, hk⟩
  obtain ⟨⟨k', v⟩, hr, rfl⟩ := hfirst
  obtain ⟨hmem, hleast⟩ := List.mem_filter.mp hr
  exact ⟨v, hmem, fun r' hr' => of_decide_eq_true (List.all_eq_true.mp hleast r' hr')⟩

/-- Any entry of the least stamp may be the one. -/
theorem leastKey_pick {v : ν} (hmem : (pick, v) ∈ t.rows)
    (hleast : ∀ r ∈ t.rows, stamp v ≤ stamp r.2) : leastKey stamp t pick = some pick := by
  have hfirst : (pick, v) ∈ t.rows.filter fun r => t.rows.all fun r' => stamp r.2 ≤ stamp r'.2 :=
    List.mem_filter.mpr ⟨hmem, List.all_eq_true.mpr fun r hr => decide_eq_true (hleast r hr)⟩
  exact if_pos (List.any_eq_true.mpr ⟨(pick, v), hfirst, decide_eq_true rfl⟩)

omit [DecidableEq κ] in
theorem exists_least (stamp : ν → Int) (h : t.rows ≠ []) :
    ∃ r ∈ t.rows, ∀ r' ∈ t.rows, stamp r.2 ≤ stamp r'.2 := by
  let key : κ × ν → Int := fun r => stamp r.2
  cases hmin : t.rows.argmin key with
  | none => exact absurd (List.argmin_eq_none.mp hmin) h
  | some r =>
    refine ⟨r, List.argmin_mem hmin, fun r' hr' => ?_⟩
    have hle : key r ≤ key r' := List.le_of_mem_argmin hr' hmin
    exact hle

theorem exists_leastKey (stamp : ν → Int) (pick : κ) (h : t.rows ≠ []) :
    ∃ k, leastKey stamp t pick = some k := by
  obtain ⟨r, hr, hleast⟩ := exists_least stamp h
  have hmem : r ∈ t.rows.filter fun r => t.rows.all fun r' => stamp r.2 ≤ stamp r'.2 :=
    List.mem_filter.mpr ⟨hr, List.all_eq_true.mpr fun r' hr' => decide_eq_true (hleast r' hr')⟩
  unfold leastKey
  simp only
  split
  · exact ⟨pick, rfl⟩
  · cases hfirst : t.rows.filter fun r => t.rows.all fun r' => stamp r.2 ≤ stamp r'.2 with
    | nil =>
      rw [hfirst] at hmem
      cases hmem
    | cons r' rest => exact ⟨r'.1, rfl⟩

theorem dropLeast_eq (h : leastKey stamp t pick = some k) :
    dropLeast stamp t pick = t.delete fun k' _ => k' = k := by
  rw [dropLeast, h]

/-- What is dropped leaves the others as they were. -/
theorem get?_of_dropLeast {v : ν} (h : (dropLeast stamp t pick).get? k = some v) :
    t.get? k = some v := by
  rw [dropLeast] at h
  split at h
  · exact (Table.get?_of_delete h).1
  · exact h

/-! ## Lengths -/

/-- A table without one of its keys has a row less. -/
theorem length_delete_key {v : ν} (h : (k, v) ∈ t.rows) :
    (t.delete fun k' _ => k' = k).rows.length + 1 = t.rows.length := by
  have hone : t.count (fun k' _ => decide (k' = k)) = 1 :=
    (Table.count_key_eq_one_iff (fun _ _ hk => of_decide_eq_true hk)).mpr
      ⟨v, Table.get?_eq_some_iff.mpr h, decide_eq_true rfl⟩
  have hsplit := List.length_eq_countP_add_countP (l := t.rows)
    (fun r : κ × ν => decide (r.1 = k))
  rw [Table.count] at hone
  rw [hone] at hsplit
  rw [Table.delete, ← List.countP_eq_length_filter, hsplit, Nat.add_comm]
  simp

theorem length_dropLeast (h : t.rows ≠ []) :
    (dropLeast stamp t pick).rows.length + 1 = t.rows.length := by
  obtain ⟨k, hk⟩ := exists_leastKey stamp pick h
  obtain ⟨v, hmem, -⟩ := leastKey_eq_some hk
  rw [dropLeast_eq hk]
  exact length_delete_key hmem

theorem length_upsert_le (t : Table κ ν) (k : κ) (v : ν) (f : ν → ν) :
    (t.upsert k v f).rows.length ≤ t.rows.length + 1 := by
  unfold Table.upsert
  split
  · simp [Table.append]
  · simp [Table.update]

theorem length_upsert_of_has (h : t.has k = true) (v : ν) (f : ν → ν) :
    (t.upsert k v f).rows.length = t.rows.length := by
  rw [Table.upsert, dif_neg (by simp [h])]
  simp [Table.update]

theorem has_delete_key (t : Table κ ν) (a k : κ) :
    (t.delete fun k' _ => k' = a).has k = (!decide (k = a) && t.has k) := by
  rw [Table.has, Table.has, Table.get?_delete]
  by_cases hk : k = a <;> cases t.get? k <;> simp [hk]

/-! ## Bounded insertions -/

section Room

variable {cap : Nat} {stale : ν → Bool}

theorem get?_of_roomIn {k' : κ} {v : ν}
    (h : (roomIn cap stale stamp t k pick).get? k' = some v) : t.get? k' = some v := by
  rw [roomIn] at h
  split at h
  · dsimp only at h
    split at h
    · exact (Table.get?_of_delete (get?_of_dropLeast h)).1
    · exact (Table.get?_of_delete h).1
  · exact h

/-- An insertion into the room that was made keeps a bound that is not 0. -/
theorem length_upsert_roomIn (hcap : 0 < cap) (h : t.rows.length ≤ cap) (v : ν) (f : ν → ν) :
    ((roomIn cap stale stamp t k pick).upsert k v f).rows.length ≤ cap := by
  cases hhas : t.has k with
  | true =>
    have hroom : roomIn cap stale stamp t k pick = t := by simp [roomIn, hhas]
    rw [hroom, length_upsert_of_has hhas]
    exact h
  | false =>
    suffices hroom : (roomIn cap stale stamp t k pick).rows.length + 1 ≤ cap from
      (length_upsert_le _ _ _ _).trans hroom
    rw [roomIn, hhas]
    split
    · dsimp only
      have hkept : (t.delete fun _ v => stale v).rows.length ≤ cap :=
        (List.length_filter_le _ _).trans h
      split
      · rename_i hfull
        have hne : (t.delete fun _ v => stale v).rows ≠ [] :=
          List.ne_nil_of_length_pos (hcap.trans_le hfull)
        exact (length_dropLeast hne).trans_le hkept
      · rename_i hroom
        exact not_le.mp hroom
    · rename_i hfull
      have hbelow : ¬cap ≤ t.rows.length := by simpa using hfull
      exact not_le.mp hbelow

end Room

end Lib
