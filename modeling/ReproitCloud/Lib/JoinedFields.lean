import ReproitCloud.Lib.Segments

/-!
# Fields joined with a separator

A list of fields is written as one text, with a separator after each field.  A field
may hold the separator, and then the text does not say where a field ends.  It says
what the fields are when they are cut at every separator: their `pieces`, one after
the other.

Two lists of as many fields are `Regrouped` when they have the same pieces, but not
the same number of separators in every field.  This is the one way for different
fields to be written alike (`terminated_apart_iff`), and it takes a separator inside a
field (`not_regrouped_of_not_mem`).
-/

namespace Lib

variable {α : Type} [DecidableEq α]

/-- The fields, each with the separator after it. -/
def terminated (sep : α) (fields : List (List α)) : List α := fields.flatMap (· ++ [sep])

/-- The fields cut at every separator. -/
def pieces (sep : α) (fields : List (List α)) : List (List α) :=
  fields.flatMap fun field => field.splitOn sep

/-- The same pieces in other fields. -/
def Regrouped (sep : α) (xs ys : List (List α)) : Prop :=
  pieces sep xs = pieces sep ys ∧ xs.map (List.count sep) ≠ ys.map (List.count sep)

theorem splitOn_terminated (sep : α) (fields : List (List α)) :
    (terminated sep fields).splitOn sep = pieces sep fields ++ [[]] := by
  induction fields with
  | nil => rfl
  | cons field fields ih =>
    have hcons : terminated sep (field :: fields) = field ++ sep :: terminated sep fields := by
      rw [terminated, List.flatMap_cons, List.append_assoc]
      rfl
    rw [hcons, List.splitOn_append_cons_self, ih, ← List.append_assoc]
    rfl

theorem splitOn_inj (sep : α) {xs ys : List α} :
    xs.splitOn sep = ys.splitOn sep ↔ xs = ys := by
  constructor
  · intro h
    have hjoin := congrArg [sep].intercalate h
    rwa [List.intercalate_splitOn, List.intercalate_splitOn] at hjoin
  · rintro rfl
    rfl

theorem terminated_eq_iff {sep : α} {xs ys : List (List α)} :
    terminated sep xs = terminated sep ys ↔ pieces sep xs = pieces sep ys := by
  rw [← splitOn_inj sep, splitOn_terminated, splitOn_terminated, List.append_left_inj]

theorem length_splitOn (sep : α) (xs : List α) : (xs.splitOn sep).length = xs.count sep + 1 := by
  induction xs with
  | nil => rfl
  | cons x xs ih =>
    rw [List.splitOn_cons_eq_if_modifyHead, List.count_cons]
    split
    · rw [List.length_cons, ih]
    · rw [List.length_modifyHead, ih, Nat.add_zero]

/-- The pieces and the number of separators in each field tell the fields. -/
theorem fields_ext {sep : α} {xs ys : List (List α)} (hpieces : pieces sep xs = pieces sep ys)
    (hcounts : xs.map (List.count sep) = ys.map (List.count sep)) : xs = ys := by
  induction xs generalizing ys with
  | nil => exact (List.map_eq_nil_iff.1 hcounts.symm).symm
  | cons x xs ih =>
    cases ys with
    | nil => cases hcounts
    | cons y ys =>
      rw [List.map_cons, List.map_cons, List.cons.injEq] at hcounts
      have hlength : (x.splitOn sep).length = (y.splitOn sep).length := by
        rw [length_splitOn, length_splitOn, hcounts.1]
      obtain ⟨hfirst, hrest⟩ := List.append_inj hpieces hlength
      rw [(splitOn_inj sep).1 hfirst, ih hrest hcounts.2]

/-- Different fields are written differently unless they are regrouped. -/
theorem terminated_apart_iff {sep : α} {xs ys : List (List α)} :
    (xs ≠ ys → terminated sep xs ≠ terminated sep ys) ↔ ¬ Regrouped sep xs ys := by
  rw [← not_and, not_iff_not, terminated_eq_iff, Regrouped]
  constructor
  · rintro ⟨hne, hpieces⟩
    exact ⟨hpieces, fun hcounts => hne (fields_ext hpieces hcounts)⟩
  · rintro ⟨hpieces, hcounts⟩
    exact ⟨fun heq => hcounts (congrArg _ heq), hpieces⟩

/-- Fields without the separator are not regrouped. -/
theorem not_regrouped_of_not_mem {sep : α} {xs ys : List (List α)}
    (hxs : ∀ x ∈ xs, sep ∉ x) (hys : ∀ y ∈ ys, sep ∉ y) (hlength : xs.length = ys.length) :
    ¬ Regrouped sep xs ys := by
  have hzero : ∀ {zs : List (List α)}, (∀ z ∈ zs, sep ∉ z) →
      zs.map (List.count sep) = List.replicate zs.length 0 := by
    intro zs hzs
    rw [List.eq_replicate_iff]
    refine ⟨List.length_map _, ?_⟩
    intro n hn
    obtain ⟨z, hz, rfl⟩ := List.mem_map.1 hn
    exact List.count_eq_zero.2 (hzs z hz)
  rintro ⟨-, hcounts⟩
  exact hcounts (by rw [hzero hxs, hzero hys, hlength])

end Lib
