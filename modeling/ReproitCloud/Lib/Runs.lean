import Mathlib

/-!
# Runs of a labelled step relation

A *step relation* `step : σ → ε → σ → Prop` relates a state, the event that
happens in it and a state after it.  A *run* is a finite chain of steps with
the list of its events.  Nothing here is about one program: the events may be
SQL transactions, requests or the moves of several processes.

Two rules carry the developments built on it.

* `Run.invariant`: what one step preserves, a run preserves.
* `Run.invariant_of_guarded`: what a step preserves when its guard holds, a run
  preserves when all its steps satisfy the guard.  `Guarded step ok` is the
  relation whose steps are those of `step` that meet `ok`.

A state is *reached* from another when some run joins them (`Reaches`).  A
prefix of a run is a run, so a statement about the last state of every run is a
statement about every state a run passes.
-/

namespace Lib

variable {σ ε : Type}

/-- A finite run: the events in order, each taken from the state before it. -/
inductive Run (step : σ → ε → σ → Prop) : σ → List ε → σ → Prop
  | nil (s : σ) : Run step s [] s
  | cons {s t u : σ} {e : ε} {es : List ε} :
      step s e t → Run step t es u → Run step s (e :: es) u

/-- `t` is reached from `s` by some run. -/
def Reaches (step : σ → ε → σ → Prop) (s t : σ) : Prop := ∃ es, Run step s es t

/-- The steps of `step` that meet the guard `ok`. -/
def Guarded (step ok : σ → ε → σ → Prop) (s : σ) (e : ε) (t : σ) : Prop :=
  step s e t ∧ ok s e t

/-- The step relation of a partial step function. -/
def stepOf (next : σ → ε → Option σ) (s : σ) (e : ε) (t : σ) : Prop := next s e = some t

section Rules

variable {step ok : σ → ε → σ → Prop}

theorem Run.append {s t u : σ} {es fs : List ε} (h : Run step s es t) (h' : Run step t fs u) :
    Run step s (es ++ fs) u := by
  induction h with
  | nil _ => exact h'
  | cons hs _ ih => exact .cons hs (ih h')

theorem Run.snoc {s t u : σ} {e : ε} {es : List ε} (h : Run step s es t) (hs : step t e u) :
    Run step s (es ++ [e]) u :=
  h.append (.cons hs (.nil u))

/-- A run of events split in two passes the state between them. -/
theorem Run.of_append {s u : σ} {es fs : List ε} (h : Run step s (es ++ fs) u) :
    ∃ t, Run step s es t ∧ Run step t fs u := by
  induction es generalizing s with
  | nil => exact ⟨s, .nil s, h⟩
  | cons e es ih =>
    cases h with
    | cons hs h' =>
      obtain ⟨t, h1, h2⟩ := ih h'
      exact ⟨t, .cons hs h1, h2⟩

/-- What one step preserves, a run preserves. -/
theorem Run.invariant (inv : σ → Prop) (hstep : ∀ s e t, inv s → step s e t → inv t)
    {s t : σ} {es : List ε} (h : Run step s es t) (hs : inv s) : inv t := by
  induction h with
  | nil _ => exact hs
  | cons he _ ih => exact ih (hstep _ _ _ hs he)

/-- What a step that meets its guard preserves, a guarded run preserves. -/
theorem Run.invariant_of_guarded (inv : σ → Prop)
    (hstep : ∀ s e t, inv s → step s e t → ok s e t → inv t)
    {s t : σ} {es : List ε} (h : Run (Guarded step ok) s es t) (hs : inv s) : inv t :=
  Run.invariant inv (fun _ _ _ hi he => hstep _ _ _ hi he.1 he.2) h hs

theorem Run.mono {step' : σ → ε → σ → Prop} (hle : ∀ s e t, step s e t → step' s e t)
    {s t : σ} {es : List ε} (h : Run step s es t) : Run step' s es t := by
  induction h with
  | nil s => exact .nil s
  | cons he _ ih => exact .cons (hle _ _ _ he) ih

/-- A guarded run is a run. -/
theorem Run.of_guarded {s t : σ} {es : List ε} (h : Run (Guarded step ok) s es t) :
    Run step s es t :=
  h.mono fun _ _ _ he => he.1

/-- Forward simulation: what every step of one relation can be answered with by another, step
for step, a run can be answered with. -/
theorem Run.simulate {τ : Type} {step' : τ → ε → τ → Prop} (R : σ → τ → Prop)
    (hstep : ∀ s e s' t, R s t → step s e s' → ∃ t', step' t e t' ∧ R s' t')
    {s s' : σ} {t : τ} {es : List ε} (h : Run step s es s') (hR : R s t) :
    ∃ t', Run step' t es t' ∧ R s' t' := by
  induction h generalizing t with
  | nil s => exact ⟨t, .nil t, hR⟩
  | cons he _ ih =>
    obtain ⟨u, hu, hRu⟩ := hstep _ _ _ t hR he
    obtain ⟨t', hrun, hRt⟩ := ih hRu
    exact ⟨t', .cons hu hrun, hRt⟩

/-- A run whose steps meet a guard and keep an invariant is one whose steps meet what follows
from the two. -/
theorem Run.guarded_of_invariant {ok' : σ → ε → σ → Prop} (inv : σ → Prop)
    (hstep : ∀ s e t, inv s → step s e t → ok s e t → inv t)
    (hok : ∀ s e t, inv s → step s e t → ok s e t → ok' s e t)
    {s t : σ} {es : List ε} (h : Run (Guarded step ok) s es t) (hs : inv s) :
    Run (Guarded step ok') s es t := by
  induction h with
  | nil s => exact .nil s
  | cons he _ ih =>
    exact .cons ⟨he.1, hok _ _ _ hs he.1 he.2⟩ (ih (hstep _ _ _ hs he.1 he.2))

theorem Reaches.refl (s : σ) : Reaches step s s := ⟨[], .nil s⟩

theorem Reaches.invariant (inv : σ → Prop) (hstep : ∀ s e t, inv s → step s e t → inv t)
    {s t : σ} (h : Reaches step s t) (hs : inv s) : inv t := by
  obtain ⟨_, hr⟩ := h
  exact hr.invariant inv hstep hs

end Rules

/-! ## Running a step function -/

/-- The state after the events of a list, if every step is enabled. -/
def runOf (next : σ → ε → Option σ) : σ → List ε → Option σ
  | s, [] => some s
  | s, e :: es => (next s e).bind fun t => runOf next t es

/-- A computed run is a run, so a concrete trace is checked by evaluation. -/
theorem Run.of_runOf {next : σ → ε → Option σ} {s t : σ} {es : List ε}
    (h : runOf next s es = some t) : Run (stepOf next) s es t := by
  induction es generalizing s with
  | nil =>
    simp only [runOf, Option.some.injEq] at h
    subst h
    exact .nil s
  | cons e es ih =>
    simp only [runOf, Option.bind_eq_some_iff] at h
    obtain ⟨u, hu, hrest⟩ := h
    exact .cons hu (ih hrest)

/-- The events of a step function determine the state after them. -/
theorem Run.deterministic {next : σ → ε → Option σ} {s t u : σ} {es : List ε}
    (h : Run (stepOf next) s es t) (h' : Run (stepOf next) s es u) : t = u := by
  induction h with
  | nil s =>
    cases h'
    rfl
  | cons hstep _ ih =>
    cases h' with
    | cons hstep' hrest =>
      rw [stepOf, hstep, Option.some.injEq] at hstep'
      subst hstep'
      exact ih hrest

/-- A step function that also checks a guard. -/
def checked (next : σ → ε → Option σ) (check : σ → ε → Bool) (s : σ) (e : ε) : Option σ :=
  if check s e then next s e else none

/-- A computed run whose steps pass a check is a guarded run. -/
theorem Run.of_runOf_checked {next : σ → ε → Option σ} {check : σ → ε → Bool}
    {ok : σ → ε → σ → Prop} (hok : ∀ s e t, check s e = true → ok s e t) {s t : σ} {es : List ε}
    (h : runOf (checked next check) s es = some t) : Run (Guarded (stepOf next) ok) s es t := by
  refine (Run.of_runOf h).mono fun s e t hstep => ?_
  simp only [stepOf, checked] at hstep
  split at hstep
  · exact ⟨hstep, hok s e t ‹_›⟩
  · cases hstep

/-- A computation that evaluates to a success has a result. -/
theorem ok_of_isOk {δ α : Type} {x : Except δ α} (h : x.isOk = true) : ∃ a, x = .ok a := by
  cases x with
  | error e => cases h
  | ok a => exact ⟨a, rfl⟩

end Lib
