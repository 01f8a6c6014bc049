import ReproitCloud.Lib.Loops

/-!
# Closure by a worklist

A set is closed when it has everything its members lead to.  The loop starts with a set, and
everything in the set waits.  A turn takes the first that waits and adds what it leads to, and
what is new waits in turn.

Everything in the set that does not wait has its successors in the set, and the set is in
every closed set that has the start.  So the result is the least closed set
(`exists_loop_turn_isLeast`).  The loop ends, since there are only finitely many successors
to add.
-/

namespace Lib

/-- The set has everything that its members lead to. -/
def ClosedUnder {α : Type} (next : α → List α) (set : Set α) : Prop :=
  ∀ a ∈ set, ∀ b ∈ next a, b ∈ set

/-- The state of the loop. -/
structure Worklist (α : Type) where
  pending : List α
  reached : Finset α

namespace Worklist

variable {α : Type} [DecidableEq α]

/-- What is new is added, and it waits. -/
def visit (w : Worklist α) (b : α) : Worklist α :=
  if b ∈ w.reached then w else ⟨w.pending ++ [b], insert b w.reached⟩

/-- A turn takes the first that waits. -/
def turn (next : α → List α) (w : Worklist α) : LoopStep (Worklist α) (Finset α) :=
  match w.pending with
  | [] => .done w.reached
  | id :: rest => .again ((next id).foldl visit { w with pending := rest })

/-- What holds of a state: everything that does not wait has its successors. -/
structure Exploring (next : α → List α) (start : Set α) (w : Worklist α) : Prop where
  starts : start ⊆ ↑w.reached
  waiting : ∀ a ∈ w.pending, a ∈ w.reached
  settled : ∀ a ∈ w.reached, a ∉ w.pending → ∀ b ∈ next a, b ∈ w.reached
  least : ∀ set : Set α, start ⊆ set → ClosedUnder next set → ↑w.reached ⊆ set

/-- What is left to do: what waits, and what may still be added. -/
def remaining (bound : Finset α) (w : Worklist α) : Nat :=
  w.pending.length + (bound \ w.reached).card

section Visits

variable {bound : Finset α} {bs : List α} {b : α}

theorem mem_reached_foldl (bs : List α) (w : Worklist α) (a : α) :
    a ∈ (bs.foldl visit w).reached ↔ a ∈ w.reached ∨ a ∈ bs := by
  induction bs generalizing w with
  | nil => simp
  | cons b bs ih =>
    have hvisit : a ∈ (w.visit b).reached ↔ a ∈ w.reached ∨ a = b := by
      rw [visit]
      split
      · rename_i hb
        exact ⟨.inl, fun h => h.elim id fun heq => heq ▸ hb⟩
      · rw [Finset.mem_insert, or_comm]
    rw [List.foldl_cons, ih, hvisit, List.mem_cons, or_assoc]

/-- What is new waits, and nothing else does. -/
theorem mem_pending_foldl (bs : List α) (w : Worklist α) (a : α) :
    a ∈ (bs.foldl visit w).pending ↔ a ∈ w.pending ∨ a ∈ bs ∧ a ∉ w.reached := by
  induction bs generalizing w with
  | nil => simp
  | cons b bs ih =>
    rw [List.foldl_cons, ih, visit]
    split
    · rename_i hb
      have hother : a ∉ w.reached → a ≠ b := fun ha heq => ha (heq ▸ hb)
      rw [List.mem_cons]
      tauto
    · rename_i hb
      simp only [List.mem_append, Finset.mem_insert, List.mem_cons]
      by_cases hab : a = b
      · subst hab
        simp [hb]
      · simp [hab]

/-- A visit moves what may be added to what waits. -/
theorem remaining_visit (hb : b ∈ bound) (w : Worklist α) :
    remaining bound (w.visit b) = remaining bound w := by
  rw [visit]
  split
  · rfl
  · rename_i hfresh
    have hleft : b ∈ bound \ w.reached := Finset.mem_sdiff.2 ⟨hb, hfresh⟩
    have hpos := Finset.card_pos.2 ⟨b, hleft⟩
    rw [remaining, remaining, Finset.sdiff_insert, Finset.card_erase_of_mem hleft,
      List.length_append, List.length_singleton]
    omega

theorem remaining_foldl (hbs : ∀ b ∈ bs, b ∈ bound) (w : Worklist α) :
    remaining bound (bs.foldl visit w) = remaining bound w := by
  induction bs generalizing w with
  | nil => rfl
  | cons b bs ih =>
    rw [List.forall_mem_cons] at hbs
    rw [List.foldl_cons, ih hbs.2, remaining_visit hbs.1]

end Visits

section Exploration

variable {next : α → List α} {start : Set α} {bound : Finset α} {w : Worklist α}

/-- A turn keeps what holds. -/
theorem Exploring.turn {id : α} {rest : List α} (h : Exploring next start w)
    (hpending : w.pending = id :: rest) :
    Exploring next start ((next id).foldl visit { w with pending := rest }) where
  starts a ha := (mem_reached_foldl _ _ a).2 (.inl (h.starts ha))
  waiting a ha := by
    rw [mem_reached_foldl]
    rcases (mem_pending_foldl _ _ a).1 ha with ha | ⟨ha, -⟩
    · exact .inl (h.waiting a (by rw [hpending]; exact List.mem_cons_of_mem id ha))
    · exact .inr ha
  settled a ha hnot b hb := by
    rw [mem_reached_foldl] at ha ⊢
    rw [mem_pending_foldl, not_or, not_and, not_not] at hnot
    have hreached : a ∈ w.reached := ha.elim (fun h => h) hnot.2
    by_cases heq : a = id
    · subst heq
      exact .inr hb
    · refine .inl (h.settled a hreached ?_ b hb)
      rw [hpending, List.mem_cons, not_or]
      exact ⟨heq, hnot.1⟩
  least set hstart hclosed a ha := by
    have hid : id ∈ w.reached := h.waiting id (by rw [hpending]; exact List.mem_cons_self)
    rcases (mem_reached_foldl _ _ a).1 ha with ha | ha
    · exact h.least set hstart hclosed ha
    · exact hclosed id (h.least set hstart hclosed hid) a ha

omit [DecidableEq α] in
/-- The start is explored from everything in it. -/
theorem exploring_start {pending : List α} {reached : Finset α}
    (hpending : ∀ a, a ∈ pending ↔ a ∈ reached) :
    Exploring next ↑reached ⟨pending, reached⟩ where
  starts := Set.Subset.rfl
  waiting a := (hpending a).1
  settled a ha hnot := absurd ((hpending a).2 ha) hnot
  least _ hstart _ := hstart

/-- The loop ends with the least closed set that has the start. -/
theorem exists_loop_turn_isLeast {fuel : Nat} (h : Exploring next start w)
    (hbound : ∀ a, ∀ b ∈ next a, b ∈ bound) (hfuel : remaining bound w < fuel) :
    ∃ reached, loop (fun _ => Worklist.turn next) fuel 0 w = some reached ∧
      IsLeast {set : Set α | start ⊆ set ∧ ClosedUnder next set} ↑reached := by
  refine loop_total _ (fun _ => Exploring next start) (remaining bound) _ ?_ h hfuel
  intro k t ht
  cases hpending : t.pending with
  | nil =>
    rw [Worklist.turn, hpending]
    refine ⟨⟨ht.starts, fun a ha b hb => ht.settled a ha ?_ b hb⟩, fun set hset =>
      ht.least set hset.1 hset.2⟩
    rw [hpending]
    exact List.not_mem_nil
  | cons id rest =>
    rw [Worklist.turn, hpending]
    refine ⟨ht.turn hpending, ?_⟩
    rw [remaining_foldl (hbound id), remaining, remaining, hpending, List.length_cons]
    dsimp only
    omega

end Exploration

end Worklist

end Lib
