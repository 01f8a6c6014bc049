import Mathlib

/-!
# A value and the log of its changes

A value is stored again and again, and most of the time it is the one that is there.
The *changes* of such a history are the pairs of neighbours that differ, and a log of
them is a *faithful chain*: each change starts where the one before it ended, none is
from a value to itself, and the last one ends at the value there is.

`changes_snoc` is the rule for one more value stored.  The chain is `changes_isChain`,
`ne_of_mem_changes` and `getLast?_changes`.
-/

namespace Lib

variable {α : Type} [DecidableEq α]

/-- The neighbours of a history that differ, in order. -/
def changes : List α → List (α × α)
  | a :: b :: rest => if a = b then changes (b :: rest) else (a, b) :: changes (b :: rest)
  | _ => []

@[simp] theorem changes_nil : changes ([] : List α) = [] := rfl

@[simp] theorem changes_singleton (a : α) : changes [a] = [] := rfl

/-- Storing one more value adds a change if it is another than the last. -/
theorem changes_snoc (history : List α) (b : α) :
    changes (history ++ [b]) = changes history ++
      ((history.getLast?.filter (· ≠ b)).map fun a => (a, b)).toList := by
  induction history with
  | nil => rfl
  | cons a rest ih =>
    cases rest with
    | nil =>
      show changes [a, b] = _
      by_cases h : a = b <;> simp [changes, h, Option.filter]
    | cons c rest =>
      rw [List.getLast?_cons_cons]
      show changes (a :: c :: (rest ++ [b])) = changes (a :: c :: rest) ++ _
      have hrest : changes (c :: (rest ++ [b])) = _ := ih
      rw [changes, changes, hrest]
      split <;> rfl

theorem changes_snoc_same {history : List α} {b : α} (h : history.getLast? = some b) :
    changes (history ++ [b]) = changes history := by
  rw [changes_snoc, h]
  simp [Option.filter]

theorem changes_snoc_ne {history : List α} {a b : α} (h : history.getLast? = some a)
    (hne : a ≠ b) : changes (history ++ [b]) = changes history ++ [(a, b)] := by
  rw [changes_snoc, h]
  simp [Option.filter, hne]

/-- Storing the last value once more changes nothing, whatever comes after. -/
theorem changes_stutter {history : List α} {b : α} (h : history.getLast? = some b)
    (rest : List α) : changes (history ++ b :: rest) = changes (history ++ rest) := by
  induction rest using List.reverseRecOn with
  | nil =>
    rw [List.append_nil]
    exact changes_snoc_same h
  | append_singleton rest c ih =>
    have hlast : (history ++ b :: rest).getLast? = (history ++ rest).getLast? := by
      cases rest with
      | nil => simp [h]
      | cons d rest => simp [List.getLast?_append]
    rw [← List.cons_append, ← List.append_assoc, ← List.append_assoc, changes_snoc, changes_snoc,
      ih, hlast]

theorem ne_of_mem_changes {history : List α} {c : α × α} (h : c ∈ changes history) :
    c.1 ≠ c.2 := by
  induction history with
  | nil => cases h
  | cons a rest ih =>
    cases rest with
    | nil => cases h
    | cons b rest =>
      rw [changes] at h
      split at h
      · exact ih h
      · rename_i hne
        rcases List.mem_cons.1 h with rfl | h
        · exact hne
        · exact ih h

/-- The first change starts at the first value, if there are changes. -/
theorem head?_changes (a : α) (rest : List α) :
    ∀ c ∈ (changes (a :: rest)).head?, c.1 = a := by
  induction rest generalizing a with
  | nil => exact fun c hc => nomatch hc
  | cons b rest ih =>
    intro c hc
    rw [changes] at hc
    split at hc
    · rename_i heq
      rw [heq]
      exact ih b c hc
    · cases hc
      rfl

/-- Each change starts where the one before it ended. -/
theorem changes_isChain (history : List α) :
    (changes history).IsChain fun c d => d.1 = c.2 := by
  induction history with
  | nil => exact .nil
  | cons a rest ih =>
    cases rest with
    | nil => exact .nil
    | cons b rest =>
      rw [changes]
      split
      · exact ih
      · exact ih.cons fun d hd => head?_changes b rest d hd

/-- The last change ends at the last value. -/
theorem getLast?_changes {history : List α} {c : α × α}
    (h : (changes history).getLast? = some c) : history.getLast? = some c.2 := by
  induction history using List.reverseRecOn with
  | nil => cases h
  | append_singleton history b ih =>
    rw [List.getLast?_concat]
    cases hlast : history.getLast? with
    | none =>
      rw [List.getLast?_eq_none_iff.1 hlast] at h
      cases h
    | some a =>
      by_cases hab : a = b
      · -- nothing has changed since
        rw [changes_snoc_same (hab ▸ hlast)] at h
        rw [← hab, ← hlast]
        exact ih h
      · rw [changes_snoc_ne hlast hab, List.getLast?_concat] at h
        cases h
        rfl

end Lib
