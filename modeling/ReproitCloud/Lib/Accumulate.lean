import ReproitCloud.Lib.Table

/-!
# Accumulating weights by key

A stream of rows, each a key with a weight, is summed into a table: a row adds its weight
to that of its key.  `weightIn` is the weight that the rows of some keys have together.
The table has the same weight as the stream whatever keys are asked for
(`weightIn_weighted`), and it does not matter in how many rows a weight comes
(`weighted_split`).

`Table.entries` lists a table by ascending key, as an ordered map does.
-/

namespace Lib

variable {κ ν ι : Type}

/-! ## Ascending entries -/

namespace Table

/-- The rows in the order of their keys. -/
def entries [LinearOrder ι] (t : Table κ ν) (key : κ → ι) : List (κ × ν) :=
  t.rows.insertionSort fun a b => key a.1 ≤ key b.1

variable [LinearOrder ι] {t : Table κ ν} {key : κ → ι}

theorem entries_perm (t : Table κ ν) (key : κ → ι) : (t.entries key).Perm t.rows :=
  List.perm_insertionSort _ _

theorem mem_entries {r : κ × ν} : r ∈ t.entries key ↔ r ∈ t.rows :=
  (t.entries_perm key).mem_iff

/-- The keys of the entries ascend. -/
theorem entries_pairwise (hkey : Function.Injective key) :
    (t.entries key).Pairwise fun a b => key a.1 < key b.1 := by
  have htotal : Std.Total fun a b : κ × ν => key a.1 ≤ key b.1 := ⟨fun a b => le_total _ _⟩
  have htrans : IsTrans (κ × ν) fun a b => key a.1 ≤ key b.1 := ⟨fun a b c => le_trans⟩
  have hle := List.pairwise_insertionSort (fun a b : κ × ν => key a.1 ≤ key b.1) t.rows
  have hne : (t.entries key).Pairwise fun a b => a.1 ≠ b.1 := by
    rw [← List.pairwise_map (R := fun a b => a ≠ b)]
    exact ((t.entries_perm key).map Prod.fst).nodup_iff.2 t.keys_nodup
  exact (hle.and hne).imp fun h => lt_of_le_of_ne h.1 fun heq => h.2 (hkey heq)

end Table

/-! ## Weights -/

/-- The weight of the keys with a property. -/
def weightIn (rows : List (κ × Nat)) (p : κ → Bool) : Nat :=
  ((rows.filter fun r => p r.1).map Prod.snd).sum

@[simp] theorem weightIn_nil (p : κ → Bool) : weightIn [] p = 0 := rfl

theorem weightIn_cons (r : κ × Nat) (rows : List (κ × Nat)) (p : κ → Bool) :
    weightIn (r :: rows) p = (if p r.1 then r.2 else 0) + weightIn rows p := by
  rw [weightIn, List.filter_cons]
  split
  · rw [List.map_cons, List.sum_cons, weightIn]
  · rw [Nat.zero_add, weightIn]

theorem weightIn_append (rows rows' : List (κ × Nat)) (p : κ → Bool) :
    weightIn (rows ++ rows') p = weightIn rows p + weightIn rows' p := by
  rw [weightIn, List.filter_append, List.map_append, List.sum_append, weightIn, weightIn]

theorem weightIn_true (rows : List (κ × Nat)) :
    weightIn rows (fun _ => true) = (rows.map Prod.snd).sum := by
  rw [weightIn, List.filter_true]

theorem weightIn_perm {rows rows' : List (κ × Nat)} (h : rows.Perm rows') (p : κ → Bool) :
    weightIn rows p = weightIn rows' p :=
  ((h.filter _).map _).sum_eq

/-- Renaming the keys asks for the keys that are renamed to what is asked for. -/
theorem weightIn_map {κ' : Type} (f : κ → κ') (rows : List (κ × Nat)) (p : κ' → Bool) :
    weightIn (rows.map fun r => (f r.1, r.2)) p = weightIn rows fun k => p (f k) := by
  induction rows with
  | nil => rfl
  | cons r rows ih => rw [List.map_cons, weightIn_cons, weightIn_cons, ih]

/-! ## The table of a stream -/

section Weighted

variable [DecidableEq κ]

namespace Table

/-- `*t.entry(k).or_default() += n`. -/
def add (t : Table κ Nat) (k : κ) (n : Nat) : Table κ Nat := t.upsert k n (· + n)

theorem has_add (t : Table κ Nat) (k : κ) (n : Nat) (k' : κ) :
    (t.add k n).has k' = (decide (k' = k) || t.has k') := t.has_upsert k n _ k'

/-- Adding twice to a key is adding once. -/
theorem add_add (t : Table κ Nat) (k : κ) (m n : Nat) :
    (t.add k m).add k n = t.add k (m + n) := by
  have hhas : (t.add k m).has k ≠ false := by simp [has_add]
  have htwice : (t.add k m).add k n =
      (t.add k m).update (fun k' _ => k' = k) fun _ v => v + n := by
    rw [add, upsert, dif_neg hhas]
  rw [htwice]
  apply ext_rows
  by_cases hk : t.has k = false
  · have hold : ∀ r ∈ t.rows, r.1 ≠ k := fun r hr heq =>
      not_mem_keys_of_has_false hk (heq ▸ List.mem_map_of_mem hr)
    have hkeep : (t.rows.map fun r => (r.1, if decide (r.1 = k) = true then r.2 + n else r.2)) =
        t.rows := by
      refine (List.map_congr_left fun r hr => ?_).trans t.rows.map_id
      simp [hold r hr]
    simp only [add, upsert, dif_pos hk, append, update, List.map_append, hkeep]
    simp
  · simp only [add, upsert, dif_neg hk, update, List.map_map]
    refine List.map_congr_left fun r _ => ?_
    by_cases hr : r.1 = k
    · simp [hr, Nat.add_assoc]
    · simp [hr]

/-- Adding to a key adds to the weight of the keys with it. -/
theorem weightIn_add (t : Table κ Nat) (k : κ) (n : Nat) (p : κ → Bool) :
    weightIn (t.add k n).rows p = weightIn t.rows p + if p k then n else 0 := by
  have hsum : ∀ u : Table κ Nat, (weightIn u.rows p : Int) =
      u.sum fun k v => if p k then (v : Int) else 0 := by
    intro u
    rw [Table.sum]
    induction u.rows with
    | nil => rfl
    | cons r rows ih =>
      rw [weightIn_cons, List.map_cons, List.sum_cons, ← ih]
      split <;> simp
  have hnew := t.sum_upsert k n (· + n) fun k v => if p k then (v : Int) else 0
  have hold := t.sum_split (fun k v => if p k then (v : Int) else 0) k
  rw [← hsum] at hnew hold
  rw [← add] at hnew
  cases hrow : t.get? k with
  | none =>
    rw [hrow] at hnew hold
    simp only [Option.elim_none] at hnew hold
    split <;> rename_i hp
    · rw [if_pos hp] at hnew
      omega
    · rw [if_neg hp] at hnew
      omega
  | some v =>
    rw [hrow] at hnew hold
    simp only [Option.elim_some] at hnew hold
    split <;> rename_i hp
    · rw [if_pos hp] at hnew hold
      omega
    · rw [if_neg hp] at hnew hold
      omega

end Table

/-- The weights of a stream by key. -/
def weighted (rows : List (κ × Nat)) : Table κ Nat :=
  rows.foldl (fun t r => t.add r.1 r.2) .empty

theorem weighted_concat (rows : List (κ × Nat)) (r : κ × Nat) :
    weighted (rows ++ [r]) = (weighted rows).add r.1 r.2 := by
  rw [weighted, List.foldl_append]
  rfl

/-- No weight is lost, and none is added. -/
theorem weightIn_weighted (rows : List (κ × Nat)) (p : κ → Bool) :
    weightIn (weighted rows).rows p = weightIn rows p := by
  induction rows using List.reverseRecOn with
  | nil => rfl
  | append_singleton rows r ih =>
    rw [weighted_concat, Table.weightIn_add, ih, weightIn_append, weightIn_cons,
      weightIn_nil, Nat.add_zero]

theorem has_weighted (rows : List (κ × Nat)) (k : κ) :
    (weighted rows).has k = true ↔ k ∈ rows.map Prod.fst := by
  induction rows using List.reverseRecOn with
  | nil => exact ⟨fun h => absurd h Bool.false_ne_true, fun h => absurd h List.not_mem_nil⟩
  | append_singleton rows r ih =>
    rw [weighted_concat, Table.has_add, Bool.or_eq_true, decide_eq_true_iff, ih, List.map_append,
      List.map_singleton, List.mem_append, List.mem_singleton, or_comm]

/-- A row of a table has the weight of its key. -/
theorem weightIn_key {t : Table κ Nat} {k : κ} {n : Nat} (h : (k, n) ∈ t.rows) :
    weightIn t.rows (fun k' => k' = k) = n := by
  have hall : ∀ rows : List (κ × Nat), (rows.map Prod.fst).Nodup → (k, n) ∈ rows →
      weightIn rows (fun k' => k' = k) = n := by
    intro rows hnodup hmem
    induction rows with
    | nil => cases hmem
    | cons r rows ih =>
      rw [List.map_cons, List.nodup_cons] at hnodup
      rw [weightIn_cons]
      rcases List.mem_cons.1 hmem with rfl | hmem
      · have hnone : rows.filter (fun r => decide (r.1 = k)) = [] :=
          List.filter_eq_nil_iff.2 fun r' hr' heq =>
            hnodup.1 (List.mem_map.2 ⟨r', hr', of_decide_eq_true heq⟩)
        rw [weightIn, hnone]
        simp
      · have hne : r.1 ≠ k := fun heq => hnodup.1 (List.mem_map.2 ⟨(k, n), hmem, heq.symm⟩)
        rw [ih hnodup.2 hmem]
        simp [hne]
  exact hall t.rows t.keys_nodup h

/-- The rows of the table: the keys of the stream, each with its weight. -/
theorem mem_weighted {rows : List (κ × Nat)} {k : κ} {n : Nat} :
    (k, n) ∈ (weighted rows).rows ↔
      k ∈ rows.map Prod.fst ∧ n = weightIn rows fun k' => k' = k := by
  rw [← has_weighted, Table.has_iff_mem_keys, List.mem_map, ← weightIn_weighted]
  constructor
  · intro h
    exact ⟨⟨(k, n), h, rfl⟩, (weightIn_key h).symm⟩
  · rintro ⟨⟨⟨k', m⟩, hm, rfl⟩, rfl⟩
    rwa [weightIn_key hm]

/-- A weight that comes in several rows. -/
theorem weighted_split (before after : List (κ × Nat)) (k : κ) {ns : List Nat} (hns : ns ≠ []) :
    weighted (before ++ ns.map (k, ·) ++ after) = weighted (before ++ (k, ns.sum) :: after) := by
  have hall : ∀ (ns : List Nat) (n : Nat) (t : Table κ Nat),
      (ns.map (k, ·)).foldl (fun t r => t.add r.1 r.2) (t.add k n) = t.add k (n + ns.sum) := by
    intro ns
    induction ns with
    | nil => exact fun n t => rfl
    | cons m ns ih =>
      intro n t
      rw [List.map_cons, List.foldl_cons, Table.add_add, ih, List.sum_cons, Nat.add_assoc]
  obtain ⟨n, ns, rfl⟩ := List.exists_cons_of_ne_nil hns
  rw [weighted, weighted, List.foldl_append, List.foldl_append, List.foldl_append, List.map_cons,
    List.foldl_cons, hall, List.foldl_cons, List.sum_cons]

end Weighted

end Lib
