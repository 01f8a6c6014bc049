import Mathlib

/-!
# Texts that a separator divides

A text is a list, and a separator divides it into segments (`List.splitOn`).  A text lies
under another one when it is that text, the separator and more (`Under`).  This is a relation
of segments and not of characters: `under_iff` says that the segments of the one are the
first segments of the other, and `Under.unique` that of the texts with a given number of
segments a text lies under at most one.
-/

namespace Lib

variable {α : Type} [DecidableEq α] {sep : α} {xs ys scope : List α}

/-- The text starts with the scope and a separator. -/
def Under (sep : α) (scope xs : List α) : Prop := scope ++ [sep] <+: xs

instance (sep : α) (scope xs : List α) : Decidable (Under sep scope xs) :=
  inferInstanceAs (Decidable (_ <+: _))

/-- The segments determine the text. -/
theorem eq_of_splitOn_eq (h : xs.splitOn sep = ys.splitOn sep) : xs = ys := by
  have hxs : [sep].intercalate (xs.splitOn sep) = xs := List.intercalate_splitOn sep
  rw [← hxs, h, List.intercalate_splitOn]

/-- A segment has no separator in it. -/
theorem not_mem_of_mem_splitOn {seg : List α} (h : seg ∈ xs.splitOn sep) : sep ∉ seg := by
  induction xs generalizing seg with
  | nil =>
    rw [List.splitOn_nil, List.mem_singleton] at h
    rw [h]
    exact List.not_mem_nil
  | cons x xs ih =>
    rw [List.splitOn_cons_eq_if_modifyHead] at h
    split at h
    · rcases List.mem_cons.1 h with rfl | h
      · exact List.not_mem_nil
      · exact ih h
    · rename_i hx
      obtain ⟨head, tail, hsplit⟩ := List.exists_cons_of_ne_nil (List.splitOn_ne_nil sep xs)
      rw [hsplit, List.modifyHead_cons] at h
      rcases List.mem_cons.1 h with rfl | h
      · rw [List.mem_cons, not_or]
        exact ⟨fun he => hx (by simp [he]), ih (hsplit ▸ List.mem_cons_self)⟩
      · exact ih (hsplit ▸ List.mem_cons_of_mem head h)

/-- The segments of a text that was put together from some. -/
theorem splitOn_append_intercalate {rest : List (List α)} (hne : rest ≠ [])
    (h : ∀ seg ∈ rest, sep ∉ seg) :
    (scope ++ sep :: [sep].intercalate rest).splitOn sep = scope.splitOn sep ++ rest := by
  rw [List.splitOn_append_cons_self, List.splitOn_intercalate sep h hne]

/-- A text lies under a scope when the scope has its first segments. -/
theorem under_iff :
    Under sep scope xs ↔ ∃ rest, rest ≠ [] ∧ xs.splitOn sep = scope.splitOn sep ++ rest := by
  constructor
  · rintro ⟨tail, rfl⟩
    refine ⟨tail.splitOn sep, List.splitOn_ne_nil sep tail, ?_⟩
    rw [List.append_assoc, List.singleton_append, List.splitOn_append_cons_self]
  · rintro ⟨rest, hne, hsegments⟩
    have hrest : ∀ seg ∈ rest, sep ∉ seg := fun seg hseg => by
      have hmem : seg ∈ xs.splitOn sep := hsegments ▸ List.mem_append_right _ hseg
      exact not_mem_of_mem_splitOn hmem
    have heq : xs = scope ++ sep :: [sep].intercalate rest :=
      eq_of_splitOn_eq (hsegments.trans (splitOn_append_intercalate hne hrest).symm)
    exact ⟨[sep].intercalate rest, by rw [heq, List.append_assoc, List.singleton_append]⟩

/-- A text lies under one scope of a given depth. -/
theorem Under.unique {scope' : List α} (h : Under sep scope xs) (h' : Under sep scope' xs)
    (hdepth : (scope.splitOn sep).length = (scope'.splitOn sep).length) : scope = scope' := by
  obtain ⟨rest, -, hsegments⟩ := under_iff.1 h
  obtain ⟨rest', -, hsegments'⟩ := under_iff.1 h'
  exact eq_of_splitOn_eq (List.append_inj_left (hsegments.symm.trans hsegments') hdepth)

end Lib
