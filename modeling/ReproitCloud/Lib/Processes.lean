import ReproitCloud.Lib.Runs

/-!
# Processes over a shared store

Several processes work on one store, each a sequence of atomic steps, and the steps
of different processes come in any order.  A process is a value of a type `ο` that
says what it has done and read and what comes next.  A `Program` gives the step.

A `Pool` is the store with the processes under way, in no particular order: a process
that has stepped goes to the end of the list.  A process may be held up (`next` has
no result), by what is in the store or by another process that holds a lock.  It may
stop for good between two steps, as a process does that dies.  Whoever else writes to
the store does so in one transaction (`commit`).

A *proof outline* has a fact `G` about the store, an assertion `P` for every process
at its point, and a relation `R` between any two processes, such as that not both
are in a critical section.  `Outline.step` is the rule: a step must keep `G`, must not
disturb the assertions of the others, and must arrive at a point whose assertion
holds.
-/

namespace Lib

/-- A store and the processes under way. -/
structure Pool (σ ο : Type) where
  store : σ
  inFlight : List ο := []

/-- How a call to another service ends, for whoever makes it. -/
inductive CallResult where
  | answered
  /-- The call fails and has done nothing. -/
  | failed
  /-- The call fails and has taken effect. -/
  | unanswered
deriving DecidableEq, Repr

/-- What can happen in a pool. -/
inductive PoolEvent (ο χ ε : Type) where
  /-- A process starts. -/
  | start (op : ο)
  /-- The process at an index takes its next step. -/
  | advance (i : Nat) (chance : χ)
  /-- The process at an index stops for good. -/
  | abandon (i : Nat)
  /-- Someone else writes to the store. -/
  | commit (e : ε)

/-- The code of the processes, and what others may write.  A `χ` is what the
environment decides of a step. -/
structure Program (σ ο χ ε : Type) where
  /-- Whether a process may start at this point. -/
  starts : σ → ο → Bool
  /-- The next step of a process beside the others: the store after it, and the
  process, if it goes on. -/
  next : σ → List ο → χ → ο → Option (σ × Option ο)
  /-- The write of someone else. -/
  write : σ → List ο → ε → Option σ

variable {σ ο χ ε : Type}

/-- One event, if it can happen. -/
def Program.step (p : Program σ ο χ ε) (s : Pool σ ο) : PoolEvent ο χ ε → Option (Pool σ ο)
  | .start op => if p.starts s.store op then some ⟨s.store, s.inFlight ++ [op]⟩ else none
  | .advance i chance =>
    (s.inFlight[i]?).bind fun op =>
      (p.next s.store (s.inFlight.eraseIdx i) chance op).map fun r =>
        ⟨r.1, s.inFlight.eraseIdx i ++ r.2.toList⟩
  | .abandon i =>
    if i < s.inFlight.length then some ⟨s.store, s.inFlight.eraseIdx i⟩ else none
  | .commit e => (p.write s.store s.inFlight e).map fun store => ⟨store, s.inFlight⟩

/-- What an event does. -/
inductive Program.Effect (p : Program σ ο χ ε) (s : Pool σ ο) :
    PoolEvent ο χ ε → Pool σ ο → Prop
  | start {op : ο} : p.starts s.store op = true →
      p.Effect s (.start op) ⟨s.store, s.inFlight ++ [op]⟩
  | advance {i : Nat} {chance : χ} {op : ο} {store : σ} {next : Option ο} :
      s.inFlight[i]? = some op →
      p.next s.store (s.inFlight.eraseIdx i) chance op = some (store, next) →
      p.Effect s (.advance i chance) ⟨store, s.inFlight.eraseIdx i ++ next.toList⟩
  | abandon {i : Nat} {op : ο} : s.inFlight[i]? = some op →
      p.Effect s (.abandon i) ⟨s.store, s.inFlight.eraseIdx i⟩
  | commit {e : ε} {store : σ} : p.write s.store s.inFlight e = some store →
      p.Effect s (.commit e) ⟨store, s.inFlight⟩

theorem Program.effect_of_step {p : Program σ ο χ ε} {s s' : Pool σ ο} {e : PoolEvent ο χ ε}
    (h : p.step s e = some s') : p.Effect s e s' := by
  cases e with
  | start op =>
    rw [Program.step, Option.ite_none_right_eq_some] at h
    obtain ⟨hstarts, heq⟩ := h
    cases heq
    exact .start hstarts
  | advance i chance =>
    simp only [Program.step, Option.bind_eq_some_iff, Option.map_eq_some_iff] at h
    obtain ⟨op, hop, ⟨store, next⟩, hnext, rfl⟩ := h
    exact .advance hop hnext
  | abandon i =>
    rw [Program.step, Option.ite_none_right_eq_some] at h
    obtain ⟨hi, heq⟩ := h
    cases heq
    exact .abandon (List.getElem?_eq_getElem hi)
  | commit e =>
    simp only [Program.step, Option.map_eq_some_iff] at h
    obtain ⟨store, hwrite, rfl⟩ := h
    exact .commit hwrite

/-! ## One process among the others -/

section Others

variable {xs : List ο} {i : Nat} {x y : ο}

theorem perm_cons_eraseIdx (h : xs[i]? = some y) : List.Perm xs (y :: xs.eraseIdx i) := by
  obtain ⟨hi, rfl⟩ := List.getElem?_eq_some_iff.1 h
  exact (List.getElem_cons_eraseIdx_perm hi).symm

/-- A process is the one at an index, or one of the others. -/
theorem mem_iff_eraseIdx (h : xs[i]? = some y) : x ∈ xs ↔ x = y ∨ x ∈ xs.eraseIdx i := by
  rw [(perm_cons_eraseIdx h).mem_iff, List.mem_cons]

variable {β : Type}

/-- What the processes have of something is what the one at an index and the others
have. -/
theorem filterMap_perm_eraseIdx (f : ο → Option β) (h : xs[i]? = some y) :
    (xs.filterMap f).Perm ((f y).toList ++ (xs.eraseIdx i).filterMap f) := by
  refine ((perm_cons_eraseIdx h).filterMap f).trans (List.Perm.of_eq ?_)
  rw [List.filterMap_cons]
  cases f y <;> rfl

theorem filterMap_append_toList (f : ο → Option β) (xs : List ο) (next : Option ο) :
    (xs ++ next.toList).filterMap f = xs.filterMap f ++ (next.bind f).toList := by
  rw [List.filterMap_append]
  cases next with
  | none => rfl
  | some op =>
    rw [Option.toList_some, List.filterMap_cons, Option.bind_some]
    cases f op <;> rfl

end Others

/-! ## Proof outlines -/

/-- The store and all processes are as the outline says. -/
structure Outline (G : σ → Prop) (P : σ → ο → Prop) (R : ο → ο → Prop) (s : Pool σ ο) :
    Prop where
  store : G s.store
  each : ∀ op ∈ s.inFlight, P s.store op
  apart : s.inFlight.Pairwise R

section Rule

variable {G : σ → Prop} {P : σ → ο → Prop} {R : ο → ο → Prop} {s s' : Pool σ ο}

theorem outline_of_idle (h : G s.store) (hidle : s.inFlight = []) : Outline G P R s := by
  refine ⟨h, ?_, ?_⟩
  · rw [hidle]
    exact fun op hop => nomatch hop
  · rw [hidle]
    exact .nil

/-- Any other process is apart from the one at an index. -/
theorem Outline.apart_at (h : Outline G P R s) (hsymm : ∀ x y, R x y → R y x) {i : Nat} {op o : ο}
    (hop : s.inFlight[i]? = some op) (ho : o ∈ s.inFlight.eraseIdx i) : R op o := by
  have hpairwise := ((perm_cons_eraseIdx hop).pairwise_iff fun {x y} => hsymm x y).1 h.apart
  exact (List.pairwise_cons.1 hpairwise).1 o ho

/-- What an event of a guarded run has to establish. -/
structure KeepsOutline (p : Program σ ο χ ε) (ok : Pool σ ο → PoolEvent ο χ ε → Pool σ ο → Prop)
    (G : σ → Prop) (P : σ → ο → Prop) (R : ο → ο → Prop) : Prop where
  /-- A process starts where its assertion holds. -/
  start : ∀ s s' op, Outline G P R s → ok s (.start op) s' → p.starts s.store op = true →
    P s.store op ∧ ∀ o ∈ s.inFlight, R o op
  /-- A step keeps the store, disturbs no other process and arrives where it may. -/
  advance : ∀ s s' i chance op store next, Outline G P R s → ok s (.advance i chance) s' →
    s.inFlight[i]? = some op →
    p.next s.store (s.inFlight.eraseIdx i) chance op = some (store, next) →
    G store ∧ (∀ o ∈ s.inFlight.eraseIdx i, P store o) ∧
      ∀ op', next = some op' → P store op' ∧ ∀ o ∈ s.inFlight.eraseIdx i, R o op'
  /-- The writes of others keep the store and disturb no process. -/
  commit : ∀ s s' e store, Outline G P R s → ok s (.commit e) s' →
    p.write s.store s.inFlight e = some store → G store ∧ ∀ o ∈ s.inFlight, P store o

theorem Outline.step {p : Program σ ο χ ε} {ok : Pool σ ο → PoolEvent ο χ ε → Pool σ ο → Prop}
    {e : PoolEvent ο χ ε} (hkeeps : KeepsOutline p ok G P R) (h : Outline G P R s)
    (hstep : p.step s e = some s') (hok : ok s e s') : Outline G P R s' := by
  cases Program.effect_of_step hstep with
  | @start op hstarts =>
    obtain ⟨hnew, hapart⟩ := hkeeps.start s _ op h hok hstarts
    refine ⟨h.store, fun o ho => ?_, ?_⟩
    · rcases List.mem_append.1 ho with ho | ho
      · exact h.each o ho
      · rw [List.mem_singleton.1 ho]
        exact hnew
    · rw [List.pairwise_append]
      refine ⟨h.apart, List.pairwise_singleton R op, fun o ho o' ho' => ?_⟩
      rw [List.mem_singleton.1 ho']
      exact hapart o ho
  | @advance i chance op store next hop hnext =>
    obtain ⟨hstore, hothers, harrives⟩ := hkeeps.advance s _ i chance op store next h hok hop hnext
    refine ⟨hstore, fun o ho => ?_, ?_⟩
    · rcases List.mem_append.1 ho with ho | ho
      · exact hothers o ho
      · exact (harrives o (Option.mem_toList.1 ho)).1
    · rw [List.pairwise_append]
      refine ⟨h.apart.sublist (List.eraseIdx_sublist ..), ?_, fun o ho o' ho' => ?_⟩
      · cases next with
        | none => exact .nil
        | some op' => exact List.pairwise_singleton R op'
      · exact (harrives o' (Option.mem_toList.1 ho')).2 o ho
  | @abandon i op hop =>
    exact ⟨h.store, fun o ho => h.each o (List.mem_of_mem_eraseIdx ho),
      h.apart.sublist (List.eraseIdx_sublist ..)⟩
  | @commit e store hwrite =>
    obtain ⟨hstore, heach⟩ := hkeeps.commit s _ e store h hok hwrite
    exact ⟨hstore, heach, h.apart⟩

/-- An outline that every guarded event keeps holds along a guarded run. -/
theorem Outline.run {p : Program σ ο χ ε} {ok : Pool σ ο → PoolEvent ο χ ε → Pool σ ο → Prop}
    {es : List (PoolEvent ο χ ε)} (hkeeps : KeepsOutline p ok G P R)
    (hrun : Run (Guarded (stepOf p.step) ok) s es s') (h : Outline G P R s) : Outline G P R s' :=
  hrun.invariant_of_guarded (Outline G P R)
    (fun _ _ _ hi hstep hok => hi.step hkeeps hstep hok) h

end Rule

end Lib
