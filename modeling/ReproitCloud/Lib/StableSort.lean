import Mathlib

/-!
# Stable sorting by a key

`List.insertionSort` with a comparison that compares keys.  Equal keys keep the
order of the input: if the input is in order by a relation `before`, the output
is in order by key and, among equal keys, by `before` (`insertionSort_ranked`).
The sequence of keys does not depend on the order of the input
(`map_insertionSort_of_perm`).
-/

namespace Lib

variable {α κ : Type} [LinearOrder κ]

/-- A smaller key, or an equal key and an earlier place. -/
def Ranked (key : α → κ) (before : α → α → Prop) (a b : α) : Prop :=
  key a < key b ∨ key a = key b ∧ before a b

theorem Ranked.of_le {key : α → κ} {before : α → α → Prop} {a b : α} (hkey : key a ≤ key b)
    (hbefore : before a b) : Ranked key before a b := by
  rcases hkey.lt_or_eq with h | h
  · exact .inl h
  · exact .inr ⟨h, hbefore⟩

theorem Ranked.le {key : α → κ} {before : α → α → Prop} {a b : α} (h : Ranked key before a b) :
    key a ≤ key b := by
  rcases h with h | ⟨h, -⟩
  · exact h.le
  · exact h.le

section Sorting

variable {key : α → κ} {before : α → α → Prop} {r : α → α → Prop} [DecidableRel r]

/-- An element before all others in the input goes before all others of its key. -/
theorem orderedInsert_ranked (hr : ∀ a b, r a b ↔ key a ≤ key b) {a : α} {l : List α}
    (ha : ∀ b ∈ l, before a b) (hl : l.Pairwise (Ranked key before)) :
    (l.orderedInsert r a).Pairwise (Ranked key before) := by
  induction l with
  | nil => exact List.pairwise_singleton _ _
  | cons b l ih =>
    have hb := List.pairwise_cons.1 hl
    by_cases hab : r a b
    · rw [List.orderedInsert_cons_of_le _ _ hab, List.pairwise_cons]
      refine ⟨fun c hc => ?_, hl⟩
      have hle : key a ≤ key c := by
        rcases List.mem_cons.1 hc with rfl | hc
        · exact (hr a c).1 hab
        · exact ((hr a b).1 hab).trans (hb.1 c hc).le
      exact .of_le hle (ha c hc)
    · rw [List.orderedInsert_of_not_le _ _ hab, List.pairwise_cons]
      refine ⟨fun c hc => ?_, ih (fun c hc => ha c (List.mem_cons_of_mem b hc)) hb.2⟩
      rcases (List.mem_orderedInsert r).1 hc with rfl | hc
      · exact .inl (lt_of_not_ge fun hle => hab ((hr c b).2 hle))
      · exact hb.1 c hc

/-- The sort is by key and stable. -/
theorem insertionSort_ranked (hr : ∀ a b, r a b ↔ key a ≤ key b) {l : List α}
    (hl : l.Pairwise before) : (l.insertionSort r).Pairwise (Ranked key before) := by
  induction l with
  | nil => exact .nil
  | cons a l ih =>
    have ha := List.pairwise_cons.1 hl
    rw [List.insertionSort_cons]
    exact orderedInsert_ranked hr (fun b hb => ha.1 b ((List.mem_insertionSort r).1 hb)) (ih ha.2)

/-- Two inputs with the same elements have the same keys at every place. -/
theorem map_insertionSort_of_perm (hr : ∀ a b, r a b ↔ key a ≤ key b) {l l' : List α}
    (h : (l.map key).Perm (l'.map key)) :
    (l.insertionSort r).map key = (l'.insertionSort r).map key := by
  have hmap : ∀ l : List α, (l.insertionSort r).map key = (l.map key).insertionSort (· ≤ ·) :=
    fun l => List.map_insertionSort _ _ key l fun a _ b _ => hr a b
  rw [hmap, hmap]
  refine List.Perm.eq_of_pairwise' (List.pairwise_insertionSort (· ≤ ·) _)
    (List.pairwise_insertionSort (· ≤ ·) _) ?_
  exact (List.perm_insertionSort _ _).trans (h.trans (List.perm_insertionSort _ _).symm)

end Sorting

end Lib
