import Mathlib

/-!
# Loops that end by themselves

A loop without a bound of its own: each turn either goes on with a new state or leaves with
a result.  A turn is given its number, since what the world does in it may differ from turn
to turn.  `loop` has fuel, and more fuel changes no result (`loop_mono`).

`loop_total` is the rule.  A turn that keeps an invariant and goes on must make a number
smaller.  Then the loop has a result for any fuel above the number, and what every leaving
turn guarantees is so of the result.

A loop may keep a trace of what it has done.  `Explained` says that every event of a trace
is justified by the events before it.
-/

namespace Lib

variable {σ α : Type}

/-- What a turn of a loop leads to. -/
inductive LoopStep (σ α : Type) where
  | again (s : σ)
  | done (a : α)

/-- The turns of a loop, from a number on. -/
def loop (body : Nat → σ → LoopStep σ α) : Nat → Nat → σ → Option α
  | 0, _, _ => none
  | fuel + 1, k, s =>
    match body k s with
    | .again s => loop body fuel (k + 1) s
    | .done a => some a

/-- A turn goes on with a state of one kind, or leaves with a result of another. -/
def LoopStep.Keeps (again : σ → Prop) (done : α → Prop) : LoopStep σ α → Prop
  | .again s => again s
  | .done a => done a

section Rules

variable {body : Nat → σ → LoopStep σ α} {fuel fuel' k : Nat} {s : σ} {a : α}

theorem loop_mono (h : loop body fuel k s = some a) (hfuel : fuel ≤ fuel') :
    loop body fuel' k s = some a := by
  induction fuel generalizing fuel' k s with
  | zero => cases h
  | succ fuel ih =>
    obtain ⟨fuel', rfl⟩ := Nat.exists_eq_succ_of_ne_zero (Nat.ne_of_gt (Nat.lt_of_lt_of_le
      fuel.succ_pos hfuel))
    rw [loop] at h ⊢
    cases hbody : body k s with
    | again t =>
      rw [hbody] at h
      exact ih h (Nat.le_of_succ_le_succ hfuel)
    | done b =>
      rw [hbody] at h
      exact h

/-- What every turn that leaves guarantees is so of the result. -/
theorem loop_done (post : α → Prop) (hturn : ∀ k s a, body k s = .done a → post a)
    (h : loop body fuel k s = some a) : post a := by
  induction fuel generalizing k s with
  | zero => cases h
  | succ fuel ih =>
    rw [loop] at h
    cases hbody : body k s with
    | again t =>
      rw [hbody] at h
      exact ih h
    | done b =>
      rw [hbody] at h
      cases h
      exact hturn k s _ hbody

variable (body) in
/-- The rule of a loop: an invariant, and a number that every turn which goes on lowers. -/
theorem loop_total (inv : Nat → σ → Prop) (variant : σ → Nat) (post : α → Prop)
    (hturn : ∀ k s, inv k s →
      (body k s).Keeps (fun t => inv (k + 1) t ∧ variant t < variant s) post)
    (h : inv k s) (hfuel : variant s < fuel) : ∃ a, loop body fuel k s = some a ∧ post a := by
  induction fuel generalizing k s with
  | zero => exact absurd hfuel (Nat.not_lt_zero _)
  | succ fuel ih =>
    have hthis := hturn k s h
    rw [loop]
    cases hbody : body k s with
    | again t =>
      rw [hbody] at hthis
      obtain ⟨hinv, hless⟩ := hthis
      exact ih hinv (Nat.lt_of_lt_of_le hless (Nat.le_of_lt_succ hfuel))
    | done b =>
      rw [hbody] at hthis
      exact ⟨b, rfl, hthis⟩

end Rules

section Traces

variable {ε : Type} {P : List ε → ε → Prop} {trace events : List ε}

/-- Every event of a trace is justified by those before it. -/
def Explained (P : List ε → ε → Prop) (trace : List ε) : Prop :=
  ∀ before e after, trace = before ++ e :: after → P before e

theorem explained_nil (P : List ε → ε → Prop) : Explained P [] := by
  intro before e after h
  simp at h

/-- Events that a trace justifies may follow it. -/
theorem Explained.append (hmono : ∀ before more e, P before e → P (before ++ more) e)
    (h : Explained P trace) (hevents : ∀ e ∈ events, P trace e) :
    Explained P (trace ++ events) := by
  intro before e after heq
  rcases List.append_eq_append_iff.1 heq with ⟨more, rfl, hrest⟩ | ⟨more, rfl, hrest⟩
  · have he : e ∈ events := by
      rw [hrest]
      exact List.mem_append_right more List.mem_cons_self
    exact hmono trace more e (hevents e he)
  · cases more with
    | nil =>
      have he : e ∈ events := by
        rw [List.nil_append] at hrest
        rw [← hrest]
        exact List.mem_cons_self
      have hthis := hevents e he
      rwa [List.append_nil] at hthis
    | cons e' more =>
      rw [List.cons_append, List.cons.injEq] at hrest
      obtain ⟨rfl, -⟩ := hrest
      exact h before e more rfl

end Traces

end Lib
