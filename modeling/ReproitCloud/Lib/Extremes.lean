import ReproitCloud.Lib.Table

/-!
# Least and greatest of a stream

Three loops that programs write over a stream of observations, each with what it
computes.

* `leastOf` keeps the least value of every key.  A key is in the table when it
  was observed, with the least of its values (`get?_leastOf`).
* A running maximum in an optional accumulator is `List.max?` (`foldl_max`).
* A running choice that a later element of an equal key displaces ends with an
  element of a greatest key (`foldl_lastMax`).

`leastPositive` is the least of the numbers that are not zero.  A part of a list has the
same as the whole exactly when nothing positive in the list is below all that is positive
in the part (`leastPositive_eq_iff`).

`sum_countP` counts a stream by disjoint groups.
-/

namespace Lib

section Least

variable {κ α : Type} [DecidableEq κ] [LinearOrder α]

/-- One observation: the least value of its key so far. -/
def observe (t : Table κ α) (r : κ × α) : Table κ α := t.upsert r.1 r.2 (min · r.2)

/-- The least value observed for each key. -/
def leastOf (l : List (κ × α)) : Table κ α := l.foldl observe .empty

@[simp] theorem leastOf_append (l : List (κ × α)) (r : κ × α) :
    leastOf (l ++ [r]) = observe (leastOf l) r := by
  simp [leastOf]

theorem get?_observe (t : Table κ α) (r : κ × α) (k : κ) :
    (observe t r).get? k =
      if k = r.1 then some ((t.get? r.1).elim r.2 (min · r.2)) else t.get? k := by
  rw [observe, Table.get?_upsert]

theorem get?_leastOf_eq_none {l : List (κ × α)} {k : κ} :
    (leastOf l).get? k = none ↔ ∀ a, (k, a) ∉ l := by
  induction l using List.reverseRecOn with
  | nil => simp [leastOf]
  | append_singleton l r ih =>
    rw [leastOf_append, get?_observe]
    by_cases hk : k = r.1
    · rw [if_pos hk]
      subst hk
      simp only [reduceCtorEq, false_iff, not_forall, not_not]
      exact ⟨r.2, by simp⟩
    · rw [if_neg hk, ih]
      have hne : ∀ a, (k, a) ≠ r := fun a h => hk (by rw [← h])
      simp [hne]

/-- A key has the least of its observed values. -/
theorem get?_leastOf {l : List (κ × α)} {k : κ} {m : α} :
    (leastOf l).get? k = some m ↔ IsLeast {a | (k, a) ∈ l} m := by
  induction l using List.reverseRecOn generalizing m with
  | nil => simp [leastOf, IsLeast]
  | append_singleton l r ih =>
    rw [leastOf_append, get?_observe]
    by_cases hk : k = r.1
    · rw [if_pos hk]
      have hset : {a | (k, a) ∈ l ++ [r]} = insert r.2 {a | (k, a) ∈ l} := by
        ext a
        simp only [Set.mem_ofPred_eq, List.mem_append, List.mem_singleton, Set.mem_insert_iff]
        rw [or_comm, hk, Prod.ext_iff]
        simp
      rw [hset]
      cases hseen : (leastOf l).get? r.1 with
      | none =>
        have hempty : {a | (k, a) ∈ l} = ∅ := by
          rw [hk]
          exact Set.eq_empty_of_forall_notMem (get?_leastOf_eq_none.1 hseen)
        rw [hempty, insert_empty_eq, Option.elim_none, Option.some.injEq]
        exact ⟨fun h => h ▸ isLeast_singleton, fun h => isLeast_singleton.unique h⟩
      | some n =>
        rw [← hk] at hseen
        have hleast := (ih.1 hseen).insert r.2
        rw [Option.elim_some, Option.some.injEq, min_comm]
        exact ⟨fun h => h ▸ hleast, fun h => hleast.unique h⟩
    · rw [if_neg hk, ih]
      have hset : {a | (k, a) ∈ l ++ [r]} = {a | (k, a) ∈ l} := by
        ext a
        have hne : (k, a) ≠ r := fun h => hk (by rw [← h])
        simp [hne]
      rw [hset]

end Least

section Greatest

variable {α β : Type}

/-- A running maximum from an accumulator. -/
theorem foldl_max_some [LinearOrder α] (l : List α) (m : α) :
    l.foldl (fun acc a => some (acc.elim a (max · a))) (some m) = some (l.foldl max m) := by
  induction l generalizing m with
  | nil => rfl
  | cons a l ih => exact ih (max m a)

/-- A running maximum is the maximum. -/
theorem foldl_max [LinearOrder α] (l : List α) :
    l.foldl (fun acc a => some (acc.elim a (max · a))) none = l.max? := by
  cases l with
  | nil => rfl
  | cons a l => exact foldl_max_some l a

variable [LinearOrder β] {key : α → β} {pick : Option α → α → Option α}

/-- From a first choice on, the choice never gets smaller. -/
theorem foldl_lastMax_some
    (hpick : ∀ b a, pick (some b) a = if key b ≤ key a then some a else some b) (l : List α)
    (b : α) :
    ∃ r, l.foldl pick (some b) = some r ∧ (r = b ∨ r ∈ l) ∧ key b ≤ key r ∧
      ∀ a ∈ l, key a ≤ key r := by
  induction l generalizing b with
  | nil => exact ⟨b, rfl, .inl rfl, le_rfl, fun _ h => absurd h List.not_mem_nil⟩
  | cons a l ih =>
    rw [List.foldl_cons, hpick]
    split
    · rename_i hle
      obtain ⟨r, hr, hmem, har, hmax⟩ := ih a
      refine ⟨r, hr, .inr ?_, hle.trans har, ?_⟩
      · rcases hmem with rfl | hmem
        · exact List.mem_cons_self
        · exact List.mem_cons_of_mem _ hmem
      · exact List.forall_mem_cons.2 ⟨har, hmax⟩
    · rename_i hlt
      obtain ⟨r, hr, hmem, hbr, hmax⟩ := ih b
      refine ⟨r, hr, hmem.imp_right (List.mem_cons_of_mem _), hbr, ?_⟩
      exact List.forall_mem_cons.2 ⟨(not_le.1 hlt).le.trans hbr, hmax⟩

/-- The choice among the elements of a list: none of an empty one, otherwise an
element of a greatest key. -/
theorem foldl_lastMax (hnone : ∀ a, pick none a = some a)
    (hpick : ∀ b a, pick (some b) a = if key b ≤ key a then some a else some b) {l : List α}
    (hl : l ≠ []) : ∃ r ∈ l, l.foldl pick none = some r ∧ ∀ a ∈ l, key a ≤ key r := by
  cases l with
  | nil => exact absurd rfl hl
  | cons a l =>
    obtain ⟨r, hr, hmem, har, hmax⟩ := foldl_lastMax_some hpick l a
    refine ⟨r, List.mem_cons.2 hmem, ?_, List.forall_mem_cons.2 ⟨har, hmax⟩⟩
    rw [List.foldl_cons, hnone, hr]

end Greatest

section Positive

variable {α : Type} {l m : List Nat}

/-- The least of the positive numbers, zero when there is none. -/
def leastPositive (l : List Nat) : Nat := (l.filter (0 < ·)).min?.getD 0

theorem leastPositive_spec (l : List Nat) :
    (leastPositive l = 0 ∧ ∀ n ∈ l, n = 0) ∨
      (leastPositive l ∈ l ∧ 0 < leastPositive l ∧ ∀ n ∈ l, 0 < n → leastPositive l ≤ n) := by
  unfold leastPositive
  cases h : (l.filter (0 < ·)).min? with
  | none =>
    rw [List.min?_eq_none_iff, List.filter_eq_nil_iff] at h
    exact .inl ⟨rfl, fun n hn => by simpa using h n hn⟩
  | some least =>
    obtain ⟨hmem, hleast⟩ := List.min?_eq_some_iff.1 h
    rw [List.mem_filter, decide_eq_true_eq] at hmem
    refine .inr ⟨hmem.1, hmem.2, fun n hn hpos => ?_⟩
    exact hleast n (List.mem_filter.2 ⟨hn, decide_eq_true hpos⟩)

/-- The least positive number of a part is that of the whole when the part reaches down as
far. -/
theorem leastPositive_eq_iff (h : ∀ n ∈ m, n ∈ l) :
    leastPositive m = leastPositive l ↔ ∀ n ∈ l, 0 < n → ∃ k ∈ m, 0 < k ∧ k ≤ n := by
  rcases leastPositive_spec m with ⟨hm, hzero⟩ | ⟨hmem, hpos, hleast⟩
  · rw [hm]
    rcases leastPositive_spec l with ⟨hl, hall⟩ | ⟨hlmem, hlpos, -⟩
    · rw [hl]
      exact iff_of_true rfl fun n hn hn0 => absurd (hall n hn) hn0.ne'
    · refine iff_of_false hlpos.ne fun hreach => ?_
      obtain ⟨k, hk, hkpos, -⟩ := hreach _ hlmem hlpos
      exact hkpos.ne' (hzero k hk)
  · rcases leastPositive_spec l with ⟨-, hall⟩ | ⟨hlmem, hlpos, hlleast⟩
    · exact absurd (hall _ (h _ hmem)) hpos.ne'
    · constructor
      · intro heq n hn hn0
        exact ⟨_, hmem, hpos, heq ▸ hlleast n hn hn0⟩
      · intro hreach
        obtain ⟨k, hk, hkpos, hkle⟩ := hreach _ hlmem hlpos
        exact le_antisymm ((hleast k hk hkpos).trans hkle) (hlleast _ (h _ hmem) hpos)

/-- The first element of a least positive key has that key. -/
theorem leastPositive_of_argmin {f : α → Nat} {xs : List α} {x : α}
    (h : (xs.filter fun x => 0 < f x).argmin f = some x) : leastPositive (xs.map f) = f x := by
  have hx := List.mem_filter.1 (List.argmin_mem h)
  have hxpos : 0 < f x := of_decide_eq_true hx.2
  rcases leastPositive_spec (xs.map f) with ⟨-, hall⟩ | ⟨hmem, hpos, hleast⟩
  · exact absurd (hall _ (List.mem_map_of_mem hx.1)) hxpos.ne'
  · obtain ⟨y, hy, hfy⟩ := List.mem_map.1 hmem
    refine le_antisymm (hleast _ (List.mem_map_of_mem hx.1) hxpos) ?_
    rw [← hfy]
    refine List.le_of_mem_argmin (List.mem_filter.2 ⟨hy, decide_eq_true ?_⟩) h
    rwa [hfy]

theorem leastPositive_of_no_argmin {f : α → Nat} {xs : List α}
    (h : (xs.filter fun x => 0 < f x).argmin f = none) :
    leastPositive (xs.map f) = 0 ∧ ∀ x ∈ xs, f x = 0 := by
  rw [List.argmin_eq_none, List.filter_eq_nil_iff] at h
  have hall : ∀ x ∈ xs, f x = 0 := fun x hx => by simpa using h x hx
  refine ⟨?_, hall⟩
  rcases leastPositive_spec (xs.map f) with ⟨hzero, -⟩ | ⟨hmem, hpos, -⟩
  · exact hzero
  · obtain ⟨y, hy, hfy⟩ := List.mem_map.1 hmem
    exact absurd (hfy.symm.trans (hall y hy)) hpos.ne'

end Positive

section Groups

variable {α ρ : Type}

theorem countP_or {l : List α} {p q : α → Bool} (h : ∀ a ∈ l, p a = true → q a = false) :
    l.countP (fun a => p a || q a) = l.countP p + l.countP q := by
  induction l with
  | nil => rfl
  | cons a l ih =>
    have ih := ih fun b hb => h b (List.mem_cons_of_mem _ hb)
    have ha := h a List.mem_cons_self
    simp only [List.countP_cons, ih]
    cases hp : p a with
    | false => simp [Nat.add_assoc]
    | true => simp [ha hp, Nat.add_right_comm]

/-- The elements in one of several disjoint groups are counted group by group. -/
theorem sum_countP {rows : List ρ} {l : List α} {q : ρ → α → Bool}
    (h : rows.Pairwise fun r s => ∀ a ∈ l, q r a = true → q s a = false) :
    (rows.map fun r => l.countP (q r)).sum = l.countP fun a => rows.any fun r => q r a := by
  induction rows with
  | nil => simp
  | cons r rows ih =>
    rw [List.pairwise_cons] at h
    simp only [List.map_cons, List.sum_cons, List.any_cons, ih h.2]
    refine (countP_or fun a ha hr => ?_).symm
    rw [List.any_eq_false]
    intro s hs
    rw [h.1 s hs a ha hr]
    exact Bool.false_ne_true

end Groups

end Lib
