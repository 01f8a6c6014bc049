import ReproitCloud.Lib.Table

/-!
# Grouping by a key

A walk over a list that collects the places of each key in a map, with the keys in the order in
which they come up.  `groupPlaces` is its result.  Each key of the list has one entry, with all
its places in order (`mem_groupPlaces`, `groupPlaces_keys_nodup`), so what stands at the places
of a key is the part of the list that has the key (`map_places`).
-/

namespace Lib

variable {α κ : Type} [DecidableEq κ]

/-! ## The walk -/

/-- Groups under construction: the places of the keys, and the keys in order of first sight. -/
structure Groups (κ : Type) [DecidableEq κ] where
  byKey : Table κ (List Nat) := .empty
  order : List κ := []

namespace Groups

/-- A key comes up at a place. -/
def add (g : Groups κ) (p : κ × Nat) : Groups κ where
  byKey := g.byKey.upsert p.1 [p.2] fun places => places ++ [p.2]
  order := if ((g.byKey.get? p.1).getD []).isEmpty then g.order ++ [p.1] else g.order

/-- The keys in order, each with its places. -/
def entries (g : Groups κ) : List (κ × List Nat) :=
  g.order.map fun k => (k, (g.byKey.get? k).getD [])

end Groups

/-- The places of each key of a list. -/
def groupPlaces (key : α → κ) (xs : List α) : List (κ × List Nat) :=
  ((xs.zipIdx.map fun x => (key x.1, x.2)).foldl Groups.add {}).entries

/-- The places of the elements that have a property. -/
def places (p : α → Bool) (xs : List α) : List Nat := (xs.zipIdx.filter fun x => p x.1).map Prod.snd

/-! ## The places -/

section Places

variable {p : α → Bool} {xs : List α}

theorem map_places (p : α → Bool) (xs : List α) :
    (places p xs).map (fun i => xs[i]?) = (xs.filter p).map some := by
  have hat : ∀ x ∈ xs.zipIdx.filter (fun x => p x.1), xs[x.2]? = some x.1 := fun x hx =>
    List.mem_zipIdx_iff_getElem?.1 (List.mem_filter.1 hx).1
  calc (places p xs).map (fun i => xs[i]?)
      = (xs.zipIdx.filter fun x => p x.1).map (fun x => xs[x.2]?) := List.map_map ..
    _ = (xs.zipIdx.filter fun x => p x.1).map (fun x => some x.1) := List.map_congr_left hat
    _ = ((xs.zipIdx.filter (p ∘ Prod.fst)).map Prod.fst).map some := (List.map_map ..).symm
    _ = ((xs.zipIdx.map Prod.fst).filter p).map some := by rw [List.filter_map]
    _ = (xs.filter p).map some := by rw [List.zipIdx_map_fst]

theorem length_places (p : α → Bool) (xs : List α) :
    (places p xs).length = (xs.filter p).length := by
  have h := congrArg List.length (map_places p xs)
  rwa [List.length_map, List.length_map] at h

theorem places_eq_nil_iff : places p xs = [] ↔ xs.filter p = [] := by
  rw [← List.length_eq_zero_iff, length_places, List.length_eq_zero_iff]

/-- The element at the first place. -/
theorem getElem?_head?_places (p : α → Bool) (xs : List α) :
    ((places p xs).head?.bind fun i => xs[i]?) = (xs.filter p).head? := by
  have h := congrArg List.head? (map_places p xs)
  rw [List.head?_map, List.head?_map] at h
  cases hplaces : (places p xs).head? with
  | none =>
    rw [hplaces] at h
    exact (Option.map_eq_none_iff.1 h.symm).symm
  | some i =>
    rw [hplaces, Option.map_some] at h
    obtain ⟨x, hx, hi⟩ := Option.map_eq_some_iff.1 h.symm
    rw [Option.bind_some, hx, ← hi]

/-- The element at the last place. -/
theorem getElem?_getLast?_places (p : α → Bool) (xs : List α) :
    ((places p xs).getLast?.bind fun i => xs[i]?) = (xs.filter p).getLast? := by
  have h := congrArg List.getLast? (map_places p xs)
  rw [List.getLast?_map, List.getLast?_map] at h
  cases hplaces : (places p xs).getLast? with
  | none =>
    rw [hplaces] at h
    exact (Option.map_eq_none_iff.1 h.symm).symm
  | some i =>
    rw [hplaces, Option.map_some] at h
    obtain ⟨x, hx, hi⟩ := Option.map_eq_some_iff.1 h.symm
    rw [Option.bind_some, hx, ← hi]

end Places

/-! ## The result -/

/-- The places of a key among those that came up. -/
def placesOf (pairs : List (κ × Nat)) (k : κ) : List Nat :=
  (pairs.filter fun p => p.1 = k).map Prod.snd

/-- What the walk has collected. -/
structure Collected (pairs : List (κ × Nat)) (g : Groups κ) : Prop where
  byKey : ∀ k, (g.byKey.get? k).getD [] = placesOf pairs k
  nodup : g.order.Nodup
  order : ∀ k, k ∈ g.order ↔ placesOf pairs k ≠ []

theorem placesOf_append (pairs : List (κ × Nat)) (p : κ × Nat) (k : κ) :
    placesOf (pairs ++ [p]) k = placesOf pairs k ++ if p.1 = k then [p.2] else [] := by
  rw [placesOf, List.filter_append, List.map_append, ← placesOf]
  by_cases h : p.1 = k <;> simp [h]

theorem Collected.add {pairs : List (κ × Nat)} {g : Groups κ} (h : Collected pairs g)
    (p : κ × Nat) : Collected (pairs ++ [p]) (g.add p) where
  byKey k := by
    rw [placesOf_append, ← h.byKey, Groups.add, Table.get?_upsert]
    by_cases hk : k = p.1
    · subst hk
      cases g.byKey.get? p.1 <;> simp
    · simp [hk, Ne.symm hk]
  nodup := by
    rw [Groups.add]
    dsimp only
    split
    · rename_i hempty
      refine List.nodup_append.2 ⟨h.nodup, List.nodup_singleton _, fun k hk k' hk' => ?_⟩
      rw [List.mem_singleton.1 hk']
      rintro rfl
      rw [h.byKey, List.isEmpty_iff] at hempty
      exact (h.order p.1).1 hk hempty
    · exact h.nodup
  order k := by
    have hempty : ((g.byKey.get? p.1).getD []).isEmpty = true ↔ p.1 ∉ g.order := by
      rw [h.byKey, List.isEmpty_iff, h.order, not_not]
    rw [placesOf_append, Groups.add]
    dsimp only
    by_cases hk : p.1 = k
    · subst hk
      split
      · simp
      · rename_i hnew
        rw [hempty, not_not] at hnew
        simp [hnew]
    · rw [if_neg hk, List.append_nil, ← h.order]
      split
      · simp [Ne.symm hk]
      · rfl

theorem collected_foldl (pairs : List (κ × Nat)) : Collected pairs (pairs.foldl Groups.add {}) := by
  induction pairs using List.reverseRecOn with
  | nil => exact ⟨fun _ => rfl, .nil, fun k => by simp [placesOf]⟩
  | append_singleton pairs p ih =>
    rw [List.foldl_append]
    exact ih.add p

variable {key : α → κ} {xs : List α}

theorem placesOf_zipIdx (key : α → κ) (xs : List α) (k : κ) :
    placesOf (xs.zipIdx.map fun x => (key x.1, x.2)) k = places (fun x => key x = k) xs := by
  rw [placesOf, places, List.filter_map, List.map_map]
  rfl

/-- The entries are the keys of the list with all their places. -/
theorem mem_groupPlaces {k : κ} {is : List Nat} :
    (k, is) ∈ groupPlaces key xs ↔ is = places (fun x => key x = k) xs ∧ is ≠ [] := by
  have h := collected_foldl (xs.zipIdx.map fun x => (key x.1, x.2))
  simp only [groupPlaces, Groups.entries, List.mem_map, Prod.mk.injEq, h.order, h.byKey,
    placesOf_zipIdx]
  constructor
  · rintro ⟨k', hk', rfl, rfl⟩
    exact ⟨rfl, hk'⟩
  · rintro ⟨rfl, his⟩
    exact ⟨k, his, rfl, rfl⟩

/-- Every key has one entry. -/
theorem groupPlaces_keys_nodup (key : α → κ) (xs : List α) :
    ((groupPlaces key xs).map Prod.fst).Nodup := by
  have h := collected_foldl (xs.zipIdx.map fun x => (key x.1, x.2))
  rw [groupPlaces, Groups.entries, List.map_map]
  exact (List.map_id' _).symm ▸ h.nodup

/-- The places of all keys are those of the list. -/
theorem sum_length_groupPlaces (key : α → κ) (xs : List α) :
    ((groupPlaces key xs).map fun g => g.2.length).sum = xs.length := by
  have hlength : ∀ g ∈ groupPlaces key xs, g.2.length = (xs.map key).count g.1 := by
    rintro ⟨k, is⟩ hg
    rw [(mem_groupPlaces.1 hg).1, length_places, List.count, List.countP_map,
      List.countP_eq_length_filter]
    rfl
  have hkeys : ((groupPlaces key xs).map Prod.fst).toFinset = (xs.map key).toFinset := by
    ext k
    simp only [List.mem_toFinset, List.mem_map, Prod.exists, mem_groupPlaces]
    constructor
    · rintro ⟨_, is, ⟨rfl, hne⟩, rfl⟩
      obtain ⟨x, hx⟩ := List.exists_mem_of_ne_nil _ (mt places_eq_nil_iff.2 hne)
      simp only [List.mem_filter, decide_eq_true_eq] at hx
      exact ⟨x, hx⟩
    · rintro ⟨x, hx, rfl⟩
      refine ⟨key x, _, ⟨rfl, fun hnil => ?_⟩, rfl⟩
      simpa using List.filter_eq_nil_iff.1 (places_eq_nil_iff.1 hnil) x hx
  calc ((groupPlaces key xs).map fun g => g.2.length).sum
      = (((groupPlaces key xs).map Prod.fst).map fun k => (xs.map key).count k).sum := by
        rw [List.map_map, List.map_congr_left hlength]
        rfl
    _ = ∑ k ∈ (xs.map key).toFinset, (xs.map key).count k := by
        rw [← List.sum_toFinset _ (groupPlaces_keys_nodup key xs), hkeys]
    _ = xs.length := by rw [List.sum_toFinset_count_eq_length, List.length_map]

end Lib
