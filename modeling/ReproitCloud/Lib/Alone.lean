import ReproitCloud.Lib.Processes

/-!
# A process that has the store for itself

When nobody else touches the store, what a process does depends on its own steps and on what
the environment decides of them.  `ok` says which decisions are looked at, such as that no
call fails.

* `Solo p ok s op t o` says that the process can get from `op` to `o`, with `s` becoming `t`.
  The process may stop anywhere, so a fact about every `Solo` is one about every crash.
* `Within p ok Q n s op` says more: however the process goes on, it is never stuck before it
  is at a point of `Q`, and it is there after `n` steps at most.
* `Program.follow` computes where the process is after `n` steps, when the environment
  decides the same of each of them.

`Solo.invariant` is the rule for the first.  `Within.of_variant` is the rule for the second,
with a number that every step makes smaller, and `Within.solo` says that a process that gets
somewhere can get there.
-/

namespace Lib

variable {σ ο χ ε : Type}

/-- The points that a process can get to alone. -/
inductive Solo (p : Program σ ο χ ε) (ok : σ → ο → χ → Prop) : σ → ο → σ → ο → Prop
  | refl (s : σ) (op : ο) : Solo p ok s op s op
  | step {s s' t : σ} {op op' o : ο} {chance : χ} :
      ok s op chance → p.next s [] chance op = some (s', some op') →
      Solo p ok s' op' t o → Solo p ok s op t o

/-- A process alone is at a point of `Q` after `n` steps at most. -/
def Within (p : Program σ ο χ ε) (ok : σ → ο → χ → Prop) (Q : σ → ο → Prop) :
    Nat → σ → ο → Prop
  | 0, s, op => Q s op
  | n + 1, s, op =>
    Q s op ∨
      (∃ chance, ok s op chance) ∧ ∀ chance, ok s op chance →
        ∃ s' op', p.next s [] chance op = some (s', some op') ∧ Within p ok Q n s' op'

/-- Where a process alone is after a number of steps. -/
def Program.follow (p : Program σ ο χ ε) (chance : χ) : Nat → σ → ο → Option (σ × ο)
  | 0, s, op => some (s, op)
  | n + 1, s, op =>
    (p.next s [] chance op).bind fun r => r.2.bind fun op' => p.follow chance n r.1 op'

section Rules

variable {p : Program σ ο χ ε} {ok : σ → ο → χ → Prop} {Q Q' : σ → ο → Prop} {s t : σ} {op o : ο}

/-- What the steps of a process alone keep is so wherever it gets. -/
theorem Solo.invariant (inv : σ → ο → Prop)
    (hstep : ∀ s op chance s' op', inv s op → ok s op chance →
      p.next s [] chance op = some (s', some op') → inv s' op')
    (h : Solo p ok s op t o) (hs : inv s op) : inv t o := by
  induction h with
  | refl => exact hs
  | step hok hnext _ ih => exact ih (hstep _ _ _ _ _ hs hok hnext)

/-- A process alone goes on from where it got to. -/
theorem Solo.trans {u : σ} {o' : ο} (h : Solo p ok s op t o) (hrest : Solo p ok t o u o') :
    Solo p ok s op u o' := by
  induction h with
  | refl => exact hrest
  | step hok hnext _ ih => exact .step hok hnext (ih hrest)

/-- A process alone is a run of a pool with nobody else in it. -/
theorem Solo.run (h : Solo p ok s op t o) : ∃ es, Run (stepOf p.step) ⟨s, [op]⟩ es ⟨t, [o]⟩ := by
  induction h with
  | refl s op => exact ⟨[], .nil _⟩
  | @step s s' t op op' o chance _ hnext _ ih =>
    obtain ⟨es, hes⟩ := ih
    refine ⟨.advance 0 chance :: es, .cons ?_ hes⟩
    show p.step ⟨s, [op]⟩ (.advance 0 chance) = some ⟨s', [op']⟩
    simp [Program.step, hnext]

/-- Where a process is followed to, it can get to. -/
theorem Program.solo_of_follow {chance : χ} {n : Nat} (h : p.follow chance n s op = some (t, o)) :
    Solo p (fun _ _ c => c = chance) s op t o := by
  induction n generalizing s op with
  | zero =>
    cases h
    exact .refl _ _
  | succ n ih =>
    obtain ⟨⟨s', next⟩, hnext, hrest⟩ := Option.bind_eq_some_iff.1 h
    obtain ⟨op', rfl, hfollow⟩ := Option.bind_eq_some_iff.1 hrest
    exact .step rfl hnext (ih hfollow)

theorem Within.here (h : Q s op) (n : Nat) : Within p ok Q n s op := by
  cases n with
  | zero => exact h
  | succ n => exact .inl h

theorem Within.mono (hQ : ∀ s op, Q s op → Q' s op) {n m : Nat} (hnm : n ≤ m)
    (h : Within p ok Q n s op) : Within p ok Q' m s op := by
  induction n generalizing s op m with
  | zero => exact .here (hQ s op h) m
  | succ n ih =>
    obtain ⟨m, rfl⟩ := Nat.exists_eq_succ_of_ne_zero (Nat.ne_of_gt (Nat.lt_of_lt_of_le n.succ_pos hnm))
    rcases h with h | ⟨hgoes, h⟩
    · exact .inl (hQ s op h)
    · refine .inr ⟨hgoes, fun chance hok => ?_⟩
      obtain ⟨s', op', hnext, h⟩ := h chance hok
      exact ⟨s', op', hnext, ih (Nat.le_of_succ_le_succ hnm) h⟩

/-- A process is at a point of `Q` before its variant is at zero. -/
theorem Within.of_variant (variant : σ → ο → Nat) (inv : σ → ο → Prop)
    (hstep : ∀ s op, inv s op → Q s op ∨
      (∃ chance, ok s op chance) ∧ ∀ chance, ok s op chance →
        ∃ s' op', p.next s [] chance op = some (s', some op') ∧ inv s' op' ∧
          variant s' op' < variant s op)
    (h : inv s op) : Within p ok Q (variant s op) s op := by
  have hall : ∀ n s op, inv s op → variant s op ≤ n → Within p ok Q n s op := by
    intro n
    induction n with
    | zero =>
      intro s op h hn
      rcases hstep s op h with hQ | ⟨⟨chance, hok⟩, hgoes⟩
      · exact hQ
      · obtain ⟨s', op', -, -, hless⟩ := hgoes chance hok
        exact absurd (Nat.lt_of_lt_of_le hless hn) (Nat.not_lt_zero _)
    | succ n ih =>
      intro s op h hn
      rcases hstep s op h with hQ | ⟨hchance, hgoes⟩
      · exact .here hQ _
      · refine .inr ⟨hchance, fun chance hok => ?_⟩
        obtain ⟨s', op', hnext, hinv, hless⟩ := hgoes chance hok
        exact ⟨s', op', hnext, ih s' op' hinv (Nat.le_of_lt_succ (Nat.lt_of_lt_of_le hless hn))⟩
  exact hall _ s op h (le_refl _)

/-- A process that gets somewhere can get there. -/
theorem Within.solo {n : Nat} (h : Within p ok Q n s op) : ∃ t o, Solo p ok s op t o ∧ Q t o := by
  induction n generalizing s op with
  | zero => exact ⟨s, op, .refl s op, h⟩
  | succ n ih =>
    rcases h with h | ⟨⟨chance, hok⟩, h⟩
    · exact ⟨s, op, .refl s op, h⟩
    · obtain ⟨s', op', hnext, h⟩ := h chance hok
      obtain ⟨t, o, hsolo, hQ⟩ := ih h
      exact ⟨t, o, .step hok hnext hsolo, hQ⟩

end Rules

end Lib
