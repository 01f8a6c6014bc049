import ReproitCloud.Lib.Table

/-!
# Recency of use

A cache stamps its entries with the time of their last use and evicts one of the least
stamp.  Here is what that has to do with the order of the uses.

The order is kept as a list of keys, the one used last in front (`touch`).
`UsedAfter uses a b` says that `a` was used after the last use of `b`.  With a clock that
never goes back, the stamps of a table follow the order (`Recency`): every use of a key
keeps that, and so does the loss of entries.  An entry whose stamp is below all others is
then the least recently used (`Recency.usedAfter`).  Equal stamps say nothing of the order.
-/

namespace Lib

variable {κ ν : Type}

/-- `a` was used after the last use of `b`. -/
def UsedAfter (uses : List κ) (a b : κ) : Prop := [a, b].Sublist uses

section Order

variable {uses : List κ} {k a b : κ}

theorem UsedAfter.mem (h : UsedAfter uses a b) : a ∈ uses ∧ b ∈ uses := by
  have hsub := h.subset
  exact ⟨hsub List.mem_cons_self, hsub (by simp)⟩

theorem usedAfter_or (ha : a ∈ uses) (hb : b ∈ uses) (hne : a ≠ b) :
    UsedAfter uses a b ∨ UsedAfter uses b a := by
  induction uses with
  | nil => cases ha
  | cons c uses ih =>
    rcases List.mem_cons.mp ha with rfl | harest
    · have hbrest : b ∈ uses := (List.mem_cons.mp hb).resolve_left (Ne.symm hne)
      exact Or.inl ((List.singleton_sublist.mpr hbrest).cons_cons a)
    · rcases List.mem_cons.mp hb with rfl | hbrest
      · exact Or.inr ((List.singleton_sublist.mpr harest).cons_cons b)
      · exact (ih harest hbrest).imp (List.Sublist.cons c) (List.Sublist.cons c)

theorem UsedAfter.asymm (h : uses.Nodup) (hab : UsedAfter uses a b) : ¬UsedAfter uses b a := by
  induction uses with
  | nil => cases hab
  | cons c uses ih =>
    obtain ⟨hnot, hnodup⟩ := List.nodup_cons.mp h
    intro hba
    rcases List.sublist_cons_iff.mp hab with hab | ⟨rest, heq, hrest⟩
    · rcases List.sublist_cons_iff.mp hba with hba | ⟨rest, heq, -⟩
      · exact ih hnodup hab hba
      · exact hnot ((List.cons.inj heq).1 ▸ (UsedAfter.mem hab).2)
    · obtain ⟨rfl, rfl⟩ := List.cons.inj heq
      have hb := List.singleton_sublist.mp hrest
      rcases List.sublist_cons_iff.mp hba with hba | ⟨rest, heq, -⟩
      · exact hnot (UsedAfter.mem hba).2
      · exact hnot ((List.cons.inj heq).1 ▸ hb)

end Order

variable [DecidableEq κ]

/-- The order after a use of a key. -/
def touch (uses : List κ) (k : κ) : List κ := k :: uses.filter fun k' => k' ≠ k

section Touch

variable {uses : List κ} {k a b : κ}

@[simp] theorem mem_touch : a ∈ touch uses k ↔ a = k ∨ a ∈ uses := by
  by_cases ha : a = k <;> simp [touch, ha]

theorem nodup_touch (h : uses.Nodup) : (touch uses k).Nodup := by
  rw [touch, List.nodup_cons]
  exact ⟨by simp, h.filter _⟩

/-- The order of two other keys stays. -/
theorem usedAfter_touch_iff (ha : a ≠ k) (hb : b ≠ k) :
    UsedAfter (touch uses k) a b ↔ UsedAfter uses a b := by
  constructor
  · intro h
    rcases List.sublist_cons_iff.mp h with h | ⟨rest, heq, -⟩
    · exact h.trans List.filter_sublist
    · exact absurd (List.cons.inj heq).1 ha
  · intro h
    have hfilter := h.filter fun k' => decide (k' ≠ k)
    have hpair : ([a, b].filter fun k' => decide (k' ≠ k)) = [a, b] := by simp [ha, hb]
    rw [hpair] at hfilter
    exact hfilter.cons k

theorem not_usedAfter_touch (h : uses.Nodup) : ¬UsedAfter (touch uses k) a k := by
  intro hafter
  have hnodup : (touch uses k).Nodup := nodup_touch h
  rw [touch, List.nodup_cons] at hnodup
  rcases List.sublist_cons_iff.mp hafter with hrest | ⟨rest, heq, hrest⟩
  · exact hnodup.1 (hrest.subset (by simp))
  · obtain ⟨-, rfl⟩ := List.cons.inj heq
    exact hnodup.1 (hrest.subset List.mem_cons_self)

end Touch

/-! ## Stamps -/

/-- The stamps of a table follow the order of the uses, and none is ahead of the clock. -/
structure Recency (t : Table κ ν) (stamp : ν → Int) (uses : List κ) (now : Int) : Prop where
  nodup : uses.Nodup
  listed : ∀ k v, t.get? k = some v → k ∈ uses
  past : ∀ k v, t.get? k = some v → stamp v ≤ now
  ordered : ∀ k v k' v', t.get? k = some v → t.get? k' = some v' → UsedAfter uses k k' →
    stamp v' ≤ stamp v

namespace Recency

variable {t t' : Table κ ν} {stamp : ν → Int} {uses : List κ} {now now' : Int} {k : κ}

theorem empty (stamp : ν → Int) (now : Int) : Recency (.empty : Table κ ν) stamp [] now where
  nodup := List.nodup_nil
  listed _ _ h := by cases h
  past _ _ h := by cases h
  ordered _ _ _ _ h := by cases h

/-- Entries are lost and time passes. -/
theorem mono (h : Recency t stamp uses now) (hsub : ∀ k v, t'.get? k = some v → t.get? k = some v)
    (hnow : now ≤ now') : Recency t' stamp uses now' where
  nodup := h.nodup
  listed k v hv := h.listed k v (hsub k v hv)
  past k v hv := (h.past k v (hsub k v hv)).trans hnow
  ordered k v k' v' hv hv' := h.ordered k v k' v' (hsub k v hv) (hsub k' v' hv')

/-- A key is used: its entry, if it has one, is stamped with the time. -/
theorem touched (h : Recency t stamp uses now) (hown : ∀ v, t'.get? k = some v → stamp v = now)
    (hrest : ∀ k' v, k' ≠ k → t'.get? k' = some v → t.get? k' = some v) :
    Recency t' stamp (touch uses k) now where
  nodup := nodup_touch h.nodup
  listed k' v hv := by
    rw [mem_touch]
    by_cases hk : k' = k
    · exact Or.inl hk
    · exact Or.inr (h.listed k' v (hrest k' v hk hv))
  past k' v hv := by
    by_cases hk : k' = k
    · exact (hown v (hk ▸ hv)).le
    · exact h.past k' v (hrest k' v hk hv)
  ordered a v b w hv hw hafter := by
    by_cases hb : b = k
    · exact absurd (hb ▸ hafter) (not_usedAfter_touch h.nodup)
    · have hw' := hrest b w hb hw
      by_cases ha : a = k
      · rw [hown v (ha ▸ hv)]
        exact h.past b w hw'
      · exact h.ordered a v b w (hrest a v ha hv) hw' ((usedAfter_touch_iff ha hb).mp hafter)

/-- Of two entries the one with the smaller stamp was used first. -/
theorem usedAfter (h : Recency t stamp uses now) {k k' : κ} {v v' : ν} (hv : t.get? k = some v)
    (hv' : t.get? k' = some v') (hless : stamp v < stamp v') : UsedAfter uses k' k := by
  have hne : k' ≠ k := by
    rintro rfl
    rw [hv, Option.some.injEq] at hv'
    rw [hv'] at hless
    exact lt_irrefl _ hless
  rcases usedAfter_or (h.listed k' v' hv') (h.listed k v hv) hne with hafter | hafter
  · exact hafter
  · exact absurd (h.ordered k v k' v' hv hv' hafter) (not_le.mpr hless)

end Recency

end Lib
