import ReproitCloud.Lib.Runs

/-!
# Taking turns in batches

A server takes the first `n` of what waits, in the order of a key, and whoever is not
taken waits on.  `firstBy` is such a batch, and `firstBy_full` is the reason that waiting
ends: who is left out has a whole batch before it.

`Run.pays` turns that into a bound.  When the events of a kind each lower a number, a run has
only so many of them.
-/

namespace Lib

section Batch

variable {α κ : Type} [LinearOrder κ]

/-- The first `n` elements of a list in the order of a key. -/
def firstBy (key : α → κ) (n : Nat) (l : List α) : List α :=
  (l.insertionSort fun a b => key a ≤ key b).take n

variable {key : α → κ} {n : Nat} {l : List α} {a b : α}

theorem mem_of_mem_firstBy (h : a ∈ firstBy key n l) : a ∈ l :=
  (List.mem_insertionSort _).1 (List.mem_of_mem_take h)

/-- A batch of all is the list in order. -/
theorem firstBy_sublist (key : α → κ) (n : Nat) (l : List α) :
    (firstBy key n l).Sublist (l.insertionSort fun a b => key a ≤ key b) :=
  List.take_sublist _ _

theorem nodup_map_firstBy {β : Type} (f : α → β) (h : (l.map f).Nodup) :
    ((firstBy key n l).map f).Nodup := by
  have hsorted : ((l.insertionSort fun a b => key a ≤ key b).map f).Nodup :=
    (((List.perm_insertionSort _ l).map f).nodup_iff).2 h
  exact hsorted.sublist ((firstBy_sublist key n l).map f)

/-- What a batch leaves out comes after all that is in it, and the batch is full. -/
theorem firstBy_full (ha : a ∈ l) (hnot : a ∉ firstBy key n l) :
    (firstBy key n l).length = n ∧ ∀ b ∈ firstBy key n l, key b ≤ key a := by
  have hmem : a ∈ l.insertionSort fun a b => key a ≤ key b := (List.mem_insertionSort _).2 ha
  have hsorted : (l.insertionSort fun a b => key a ≤ key b).Pairwise fun a b => key a ≤ key b :=
    List.pairwise_insertionSort _ l
  have hdrop : a ∈ (l.insertionSort fun a b => key a ≤ key b).drop n := by
    rw [← List.take_append_drop n (l.insertionSort _), List.mem_append] at hmem
    exact hmem.resolve_left hnot
  constructor
  · have hlong : n < (l.insertionSort fun a b => key a ≤ key b).length := by
      have hpos := List.length_pos_of_mem hdrop
      rw [List.length_drop] at hpos
      omega
    rw [firstBy, List.length_take, Nat.min_eq_left hlong.le]
  · intro b hb
    rw [← List.take_append_drop n (l.insertionSort _)] at hsorted
    exact (List.pairwise_append.1 hsorted).2.2 b hb a hdrop

end Batch

section Costs

variable {σ ε : Type} {step : σ → ε → σ → Prop}

/-- When the events of a kind each lower a number by `n`, and no other raises it, a run has at
most an `n`-th of it of them. -/
theorem Run.pays (inv : σ → Prop) (purse : σ → Nat) (n : Nat) (p : ε → Bool)
    (hstep : ∀ s e t, inv s → step s e t →
      inv t ∧ purse t + (if p e then n else 0) ≤ purse s)
    {s t : σ} {es : List ε} (h : Run step s es t) (hs : inv s) :
    purse t + n * es.countP p ≤ purse s := by
  induction h with
  | nil _ => exact le_refl _
  | cons he _ ih =>
    obtain ⟨hinv, hpaid⟩ := hstep _ _ _ hs he
    have hrest := ih hinv
    rw [List.countP_cons, Nat.mul_add]
    split at hpaid
    · rename_i hp
      rw [if_pos hp, Nat.mul_one]
      omega
    · rename_i hp
      rw [if_neg hp, Nat.mul_zero]
      omega

end Costs

end Lib
