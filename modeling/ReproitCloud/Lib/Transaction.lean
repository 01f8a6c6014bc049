import Mathlib

/-!
# Transactions

A statement takes a state to another one or is refused.  A transaction is a list of statements:
either every statement ran, and the state after the last is the new state, or one did not, and
there is no new state.  `runAll` runs the statements and stops at the first that is refused.
`transact` also has a place where a statement fails for a reason of its own, such as a lost
connection.
-/

namespace Lib

variable {ε σ : Type}

/-- A statement of a transaction. -/
abbrev Statement (ε σ : Type) := σ → Except ε σ

/-- The statements one after the other. -/
def runAll : List (Statement ε σ) → Statement ε σ
  | [], s => .ok s
  | f :: rest, s => do runAll rest (← f s)

/-- The transaction of the statements, of which the one numbered `fault` fails: the state that is
committed, if one is. -/
def transact : List (Statement ε σ) → Option Nat → σ → Option σ
  | [], _, s => some s
  | _ :: _, some 0, _ => none
  | f :: rest, fault, s =>
    match f s with
    | .ok s' => transact rest (fault.map (· - 1)) s'
    | .error _ => none

section Running

variable {f : Statement ε σ} {fs gs : List (Statement ε σ)} {fault : Option Nat} {s s' : σ}

@[simp] theorem runAll_nil : runAll ([] : List (Statement ε σ)) s = .ok s := rfl

theorem runAll_cons : runAll (f :: fs) s = f s >>= runAll fs := rfl

/-- A statement that only writes. -/
@[simp] theorem runAll_write (g : σ → σ) :
    runAll ((fun s => .ok (g s)) :: fs) s = runAll fs (g s) := rfl

@[simp] theorem runAll_singleton : runAll [f] s = f s := by
  cases hf : f s <;> simp [runAll_cons, hf, bind, Except.bind]

theorem runAll_append : runAll (fs ++ gs) s = runAll fs s >>= runAll gs := by
  induction fs generalizing s with
  | nil => rfl
  | cons f fs ih =>
    cases hf : f s with
    | error e => simp [runAll_cons, hf, bind, Except.bind]
    | ok s1 => simpa [runAll_cons, hf, bind, Except.bind] using ih

/-- What is committed is what the statements give. -/
theorem runAll_of_transact (h : transact fs fault s = some s') : runAll fs s = .ok s' := by
  induction fs generalizing fault s with
  | nil =>
    cases h
    rfl
  | cons f fs ih =>
    rw [runAll_cons]
    unfold transact at h
    split at h
    · simp_all
    · cases h
    · rename_i hcons _
      obtain ⟨rfl, rfl⟩ := List.cons.inj hcons
      split at h
      · rename_i s1 hf
        rw [hf]
        exact ih h
      · cases h

/-- Without a failure everything the statements give is committed. -/
theorem transact_none : transact fs none s = (runAll fs s).toOption := by
  induction fs generalizing s with
  | nil => rfl
  | cons f fs ih =>
    cases hf : f s with
    | error e => simp [transact, runAll_cons, hf, bind, Except.bind, Except.toOption]
    | ok s1 => simpa [transact, runAll_cons, hf, bind, Except.bind] using ih

end Running

end Lib
