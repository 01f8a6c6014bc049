import ReproitCloud.Lib.Table

/-!
# Sagas

Statements that cannot share a transaction, since they go to different databases, are
undone by hand: each comes with another statement that takes it back.  When a statement
fails, the ones before it are taken back, the last one first.

`saga_restores` is the rule.  If every statement is taken back from any state that is
the same as the one it left, a saga that fails leaves the same state that it found.
What counts as the same is an argument.  A saga that does not fail has run all its
statements, which `saga_cons_eq_none_iff` takes apart.
-/

namespace Lib

variable {ε σ : Type}

/-- A statement that can fail with an error, and the one that takes it back. -/
structure Compensated (ε σ : Type) where
  error : ε
  forward : σ → Option σ
  undo : σ → σ

/-- The statements one after the other.  The error is that of the statement that
failed, and then the ones before it have been taken back. -/
def saga : List (Compensated ε σ) → σ → Option ε × σ
  | [], s => (none, s)
  | step :: rest, s =>
    match step.forward s with
    | none => (some step.error, s)
    | some s' =>
      match saga rest s' with
      | (none, t) => (none, t)
      | (some e, t) => (some e, step.undo t)

/-- A statement is taken back from any state that is the same as the one it left. -/
def Compensated.TakenBack (same : σ → σ → Prop) (step : Compensated ε σ) : Prop :=
  ∀ s s' t, step.forward s = some s' → same t s' → same (step.undo t) s

section Rules

variable {step : Compensated ε σ} {steps : List (Compensated ε σ)} {s t : σ}

/-- A saga that fails leaves what it found. -/
theorem saga_restores {same : σ → σ → Prop} (hrefl : ∀ s, same s s) {e : ε}
    (hsteps : ∀ step ∈ steps, step.TakenBack same) (h : saga steps s = (some e, t)) : same t s := by
  induction steps generalizing s t with
  | nil => cases h
  | cons step rest ih =>
    obtain ⟨hstep, hrest⟩ := List.forall_mem_cons.1 hsteps
    unfold saga at h
    split at h
    · cases h
      exact hrefl s
    · rename_i s' hforward
      split at h
      · cases h
      · rename_i e' t' hsaga
        cases h
        exact hstep s s' t' hforward (ih hrest hsaga)

@[simp] theorem saga_nil_eq_none_iff :
    saga ([] : List (Compensated ε σ)) s = (none, t) ↔ s = t := by simp [saga]

/-- A saga that does not fail has run its first statement and the others after it. -/
theorem saga_cons_eq_none_iff :
    saga (step :: steps) s = (none, t) ↔
      ∃ s', step.forward s = some s' ∧ saga steps s' = (none, t) := by
  rw [saga]
  cases step.forward s with
  | none => simp
  | some s' =>
    simp only [Option.some.injEq, exists_eq_left']
    rcases saga steps s' with ⟨_ | e, t'⟩ <;> simp

end Rules

/-- An insertion is taken back by the deletion of its key. -/
theorem Table.delete_insert? {κ ν : Type} [DecidableEq κ] {t t' : Table κ ν} {k : κ} {v : ν}
    (h : t.insert? k v = some t') : (t'.delete fun k' _ => k' = k) = t := by
  have hnew : ∀ r ∈ t.rows, (!decide (r.1 = k)) = true := by
    intro r hr
    have hkey := not_mem_keys_of_has_false (has_of_insert? h)
    have hne : r.1 ≠ k := fun he => hkey (he ▸ List.mem_map_of_mem hr)
    simp [hne]
  apply ext_rows
  calc t'.rows.filter (fun r => !decide (r.1 = k))
      = (t.rows ++ [(k, v)]).filter fun r => !decide (r.1 = k) := by rw [rows_insert? h]
    _ = t.rows ++ [(k, v)].filter fun r => !decide (r.1 = k) := by
        rw [List.filter_append, List.filter_eq_self.2 hnew]
    _ = t.rows := by simp

end Lib
