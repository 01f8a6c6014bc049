import ReproitCloud.Lib.Loops

/-!
# Topological orders

Kahn's algorithm on a finite graph, given by its nodes and a list of edges.  An edge may
occur more than once, and it counts as often as it occurs.  A node is ready when no edge
from a node that is still to come leads into it.  The loop takes the first ready node and
releases the nodes its edges lead to.

The invariant `Sorted` says of the nodes that were taken that each comes after every node with
an edge into it.  At the end all nodes were taken if and only if the graph has no cycle
(`exists_loop_turn`).
-/

namespace Lib

/-- No way along the relation leads back to where it starts. -/
def Acyclic {α : Type} (r : α → α → Prop) : Prop := ∀ a, ¬Relation.TransGen r a a

/-- The state of the loop. -/
structure Kahn (α : Type) where
  ready : List α
  indegree : α → Nat
  visited : Nat

namespace Kahn

variable {α : Type} [DecidableEq α]

/-- An edge into a node is gone. -/
def release (s : Kahn α) (next : α) : Kahn α :=
  let degree := s.indegree next - 1
  { s with
    indegree := Function.update s.indegree next degree
    ready := if degree = 0 then s.ready ++ [next] else s.ready }

/-- A turn takes the first ready node. -/
def turn (outgoing : α → List α) (s : Kahn α) : LoopStep (Kahn α) Nat :=
  match s.ready with
  | [] => .done s.visited
  | id :: rest =>
    .again ((outgoing id).foldl release { s with ready := rest, visited := s.visited + 1 })

/-- The nodes that the edges of a node lead to. -/
def targets (edges : List (α × α)) (id : α) : List α :=
  (edges.filter fun e => e.1 = id).map Prod.snd

/-! ## Releasing the targets of a node -/

section Release

variable {s : Kahn α} {released : List α}

theorem indegree_release (s : Kahn α) (next v : α) :
    (s.release next).indegree v = s.indegree v - [next].count v := by
  by_cases hv : v = next
  · simp [release, hv]
  · simp [release, Function.update_of_ne hv, Ne.symm hv]

theorem indegree_foldl (released : List α) (s : Kahn α) (v : α) :
    (released.foldl release s).indegree v = s.indegree v - released.count v := by
  induction released generalizing s with
  | nil => simp
  | cons next released ih =>
    have hcount : (next :: released).count v = [next].count v + released.count v := by
      rw [← List.singleton_append, List.count_append]
    rw [List.foldl_cons, ih, indegree_release, hcount, Nat.sub_sub]

theorem visited_foldl (released : List α) (s : Kahn α) :
    (released.foldl release s).visited = s.visited := by
  induction released generalizing s with
  | nil => rfl
  | cons next released ih => exact ih (s.release next)

/-- The nodes that become ready are those that lose all they had. -/
theorem ready_foldl (hcount : ∀ v, released.count v ≤ s.indegree v) :
    ∃ new, (released.foldl release s).ready = s.ready ++ new ∧ new.Nodup ∧
      ∀ v, v ∈ new ↔ v ∈ released ∧ s.indegree v = released.count v := by
  induction released generalizing s with
  | nil => exact ⟨[], by simp, List.nodup_nil, by simp⟩
  | cons next released ih =>
    have hnext := hcount next
    rw [List.count_cons_self] at hnext
    have hother {v : α} (hv : v ≠ next) : (next :: released).count v = released.count v :=
      List.count_cons_of_ne (Ne.symm hv)
    have hself : (s.release next).indegree next = s.indegree next - 1 := by simp [release]
    have hkept {v : α} (hv : v ≠ next) : (s.release next).indegree v = s.indegree v := by
      simp [release, Function.update_of_ne hv]
    have hrest : ∀ v, released.count v ≤ (s.release next).indegree v := by
      intro v
      by_cases hv : v = next
      · subst hv
        omega
      · rw [hkept hv, ← hother hv]
        exact hcount v
    obtain ⟨new, hready, hnodup, hmem⟩ := ih hrest
    rw [List.foldl_cons, hready]
    by_cases hzero : s.indegree next - 1 = 0
    · -- The last edge into the node: it is ready, and it is not released again.
      have hlast : released.count next = 0 := by omega
      have hfresh : next ∉ new := fun h => List.count_eq_zero.1 hlast ((hmem next).1 h).1
      refine ⟨next :: new, by simp [release, hzero], List.nodup_cons.2 ⟨hfresh, hnodup⟩,
        fun v => ?_⟩
      by_cases hv : v = next
      · subst hv
        simp only [List.mem_cons_self, true_iff, true_and, List.count_cons_self]
        omega
      · rw [List.mem_cons, List.mem_cons, or_iff_right hv, or_iff_right hv, hmem, hkept hv,
          hother hv]
    · refine ⟨new, by simp [release, hzero], hnodup, fun v => ?_⟩
      by_cases hv : v = next
      · subst hv
        rw [hmem, hself, List.count_cons_self]
        constructor
        · rintro ⟨-, hcounted⟩
          exact ⟨List.mem_cons_self, by omega⟩
        · rintro ⟨-, hcounted⟩
          exact ⟨List.count_pos_iff.1 (by omega), by omega⟩
      · rw [List.mem_cons, or_iff_right hv, hmem, hkept hv, hother hv]

end Release

/-! ## The invariant -/

section Sorting

variable {nodes : Finset α} {edges : List (α × α)} {s : Kahn α} {done : List α}

/-- How many edges into a node come from nodes that were not taken. -/
def pending (edges : List (α × α)) (done : List α) (v : α) : Nat :=
  edges.countP fun e => e.2 = v ∧ e.1 ∉ done

/-- A list in which every node comes after those with an edge into it. -/
def Sorted (edges : List (α × α)) (done : List α) : Prop :=
  ∀ before v after, done = before ++ v :: after → ∀ u, (u, v) ∈ edges → u ∈ before

/-- What holds when some nodes were taken. -/
structure Taken (nodes : Finset α) (edges : List (α × α)) (done : List α) (s : Kahn α) : Prop where
  nodup : (done ++ s.ready).Nodup
  known : ∀ v ∈ done ++ s.ready, v ∈ nodes
  indegree : ∀ v, s.indegree v = pending edges done v
  settled : ∀ v ∈ nodes, v ∈ done ++ s.ready ↔ s.indegree v = 0
  sorted : Sorted edges done
  visited : s.visited = done.length

theorem pending_eq_zero_iff {v : α} :
    pending edges done v = 0 ↔ ∀ u, (u, v) ∈ edges → u ∈ done := by
  rw [pending, List.countP_eq_zero]
  constructor
  · intro h u hu
    have hedge := h (u, v) hu
    simpa using hedge
  · rintro h ⟨u, w⟩ he
    have hsource : w = v → u ∈ done := by
      rintro rfl
      exact h u he
    simpa using hsource

theorem count_targets (edges : List (α × α)) (id v : α) :
    (targets edges id).count v = edges.countP fun e => e.1 = id ∧ e.2 = v := by
  rw [targets, List.count, List.countP_map, List.countP_filter]
  refine List.countP_congr fun e _ => ?_
  simp [and_comm]

/-- Taking a node settles its edges. -/
theorem pending_eq_add {id : α} (hid : id ∉ done) (v : α) :
    pending edges done v = pending edges (done ++ [id]) v + (targets edges id).count v := by
  rw [count_targets]
  induction edges with
  | nil => rfl
  | cons e edges ih =>
    simp only [pending, List.countP_cons] at ih ⊢
    rw [ih]
    by_cases htarget : e.2 = v
    · by_cases hsource : e.1 = id
      · simp [htarget, hsource, hid]
        omega
      · simp [htarget, hsource]
        omega
    · simp [htarget]

omit [DecidableEq α] in
/-- A list stays sorted when the node that follows has its edges from the list. -/
theorem Sorted.snoc {id : α} (h : Sorted edges done) (hid : ∀ u, (u, id) ∈ edges → u ∈ done) :
    Sorted edges (done ++ [id]) := by
  intro before v after heq u hu
  rcases List.eq_nil_or_concat after with rfl | ⟨after, last, rfl⟩
  · obtain ⟨rfl, hlast⟩ := List.append_inj' heq rfl
    obtain ⟨rfl, -⟩ := List.cons.inj hlast
    exact hid u hu
  · rw [List.concat_eq_append, ← List.cons_append, ← List.append_assoc] at heq
    obtain ⟨rfl, -⟩ := List.append_inj' heq rfl
    exact h before v after rfl u hu

/-- A turn takes one more node. -/
theorem Taken.turn {id : α} {rest : List α} (h : Taken nodes edges done s)
    (hends : ∀ e ∈ edges, e.2 ∈ nodes) (hready : s.ready = id :: rest) :
    Taken nodes edges (done ++ [id])
      ((targets edges id).foldl release { s with ready := rest, visited := s.visited + 1 }) := by
  have hnodup := h.nodup
  rw [hready, List.nodup_append'] at hnodup
  have hid : id ∉ done := fun hmem => hnodup.2.2 hmem List.mem_cons_self
  have hcount : ∀ v, (targets edges id).count v ≤ s.indegree v := by
    intro v
    rw [h.indegree, pending_eq_add hid]
    omega
  have hdegree : ∀ v, ((targets edges id).foldl release
      { s with ready := rest, visited := s.visited + 1 }).indegree v =
        s.indegree v - (targets edges id).count v := indegree_foldl _ _
  obtain ⟨new, hnew, hnewNodup, hmem⟩ : ∃ new, ((targets edges id).foldl release
      { s with ready := rest, visited := s.visited + 1 }).ready = rest ++ new ∧ new.Nodup ∧
        ∀ v, v ∈ new ↔ v ∈ targets edges id ∧ s.indegree v = (targets edges id).count v :=
    ready_foldl hcount
  have hlist : (done ++ [id]) ++ (rest ++ new) = (done ++ s.ready) ++ new := by simp [hready]
  have hfirst : id ∈ done ++ s.ready := by simp [hready]
  have hzero : ∀ v ∈ done ++ s.ready, s.indegree v = 0 :=
    fun v hv => (h.settled v (h.known v hv)).1 hv
  have hpositive : ∀ v ∈ new, s.indegree v ≠ 0 := by
    intro v hv
    obtain ⟨htarget, hcounted⟩ := (hmem v).1 hv
    have hoccurs := List.count_pos_iff.2 htarget
    exact fun hnone => by omega
  have hsource : ∀ u, (u, id) ∈ edges → u ∈ done := by
    have hnone := hzero id hfirst
    rw [h.indegree] at hnone
    exact pending_eq_zero_iff.1 hnone
  refine ⟨?_, ?_, fun v => ?_, fun v hv => ?_, h.sorted.snoc hsource, ?_⟩
  · rw [hnew, hlist, List.nodup_append']
    exact ⟨h.nodup, hnewNodup, fun v hold hv => hpositive v hv (hzero v hold)⟩
  · rw [hnew, hlist]
    intro v hv
    rcases List.mem_append.1 hv with hv | hv
    · exact h.known v hv
    · obtain ⟨e, he, rfl⟩ := List.mem_map.1 ((hmem v).1 hv).1
      exact hends e (List.mem_filter.1 he).1
  · rw [hdegree, h.indegree, pending_eq_add hid]
    omega
  · rw [hnew, hlist, hdegree, List.mem_append, h.settled v hv, hmem]
    have hle := hcount v
    constructor
    · rintro (hnone | ⟨-, hcounted⟩) <;> omega
    · intro hnone
      by_cases hv : s.indegree v = 0
      · exact .inl hv
      · exact .inr ⟨List.count_pos_iff.1 (by omega), by omega⟩
  · rw [visited_foldl, h.visited, List.length_append, List.length_singleton]

/-- A sorted list that has every node leaves no cycle. -/
theorem Sorted.acyclic (h : Sorted edges done) (hnodup : done.Nodup)
    (hall : ∀ e ∈ edges, e.1 ∈ done ∧ e.2 ∈ done) : Acyclic fun u v => (u, v) ∈ edges := by
  have hstep {u v : α} (he : (u, v) ∈ edges) : done.idxOf u < done.idxOf v := by
    obtain ⟨before, after, hdone⟩ := List.append_of_mem (hall _ he).2
    have hu : u ∈ before := h before v after hdone u he
    have hv : v ∉ before := by
      rw [hdone, List.nodup_append'] at hnodup
      exact fun hmem => hnodup.2.2 hmem List.mem_cons_self
    rw [hdone, List.idxOf_append_of_mem hu, List.idxOf_append_of_notMem hv]
    exact Nat.lt_add_right _ (List.idxOf_lt_length_of_mem hu)
  have hpath {u v : α} (hway : Relation.TransGen (fun u v => (u, v) ∈ edges) u v) :
      done.idxOf u < done.idxOf v := by
    induction hway with
    | single he => exact hstep he
    | tail _ he ih => exact ih.trans (hstep he)
  exact fun v hcycle => lt_irrefl _ (hpath hcycle)

omit [DecidableEq α] in
/-- Without a cycle, one of the nodes that are left has no edge from another one. -/
theorem exists_source_of_acyclic {left : Finset α} (hacyclic : Acyclic fun u v => (u, v) ∈ edges)
    (hleft : left.Nonempty) : ∃ v ∈ left, ∀ u ∈ left, (u, v) ∉ edges := by
  have : IsStrictOrder α (Relation.TransGen fun u v => (u, v) ∈ edges) :=
    { irrefl := hacyclic, trans := fun _ _ _ => Relation.TransGen.trans }
  have hfounded := left.wellFoundedOn (r := Relation.TransGen fun u v => (u, v) ∈ edges)
  obtain ⟨v, hv⟩ := hleft
  obtain ⟨⟨v, hv⟩, -, hmin⟩ := hfounded.has_min Set.univ ⟨⟨v, hv⟩, trivial⟩
  exact ⟨v, hv, fun u hu he => hmin ⟨u, hu⟩ trivial (.single he)⟩

/-- At the start the nodes without an edge into them are ready. -/
theorem taken_nil {ready : List α} (hnodup : ready.Nodup)
    (hready : ∀ v, v ∈ ready ↔ v ∈ nodes ∧ pending edges [] v = 0) :
    Taken nodes edges [] ⟨ready, pending edges [], 0⟩ where
  nodup := hnodup
  known v hv := ((hready v).1 hv).1
  indegree _ := rfl
  settled v hv := by
    rw [List.nil_append, hready, and_iff_right hv]
  sorted before v after h := by simp at h
  visited := rfl

/-- When no node is ready, all were taken if and only if there is no cycle. -/
theorem Taken.visited_eq_card_iff (h : Taken nodes edges done s)
    (hends : ∀ e ∈ edges, e.1 ∈ nodes ∧ e.2 ∈ nodes) (hready : s.ready = []) :
    s.visited = nodes.card ↔ Acyclic fun u v => (u, v) ∈ edges := by
  have hnodup := h.nodup
  have hknown := h.known
  have hsettled := h.settled
  rw [hready, List.append_nil] at hnodup hknown hsettled
  have hsubset : done.toFinset ⊆ nodes := fun v hv => hknown v (List.mem_toFinset.1 hv)
  have hcard : done.toFinset.card = done.length := List.toFinset_card_of_nodup hnodup
  rw [h.visited, ← hcard]
  constructor
  · intro hall
    have heq : done.toFinset = nodes := Finset.eq_of_subset_of_card_le hsubset hall.ge
    refine h.sorted.acyclic hnodup fun e he => ?_
    rw [← List.mem_toFinset, ← List.mem_toFinset, heq]
    exact hends e he
  · intro hacyclic
    by_contra hne
    have hleft : (nodes \ done.toFinset).Nonempty := by
      rw [Finset.sdiff_nonempty]
      exact fun hall => hne (congrArg Finset.card (hsubset.antisymm hall))
    obtain ⟨v, hv, hsource⟩ := exists_source_of_acyclic hacyclic hleft
    rw [Finset.mem_sdiff, List.mem_toFinset] at hv
    -- Every edge into the node comes from one that was taken, so it was taken itself.
    refine hv.2 ((hsettled v hv.1).2 ?_)
    rw [h.indegree, pending_eq_zero_iff]
    intro u hu
    by_contra hu'
    exact hsource u (Finset.mem_sdiff.2 ⟨(hends _ hu).1, by rwa [List.mem_toFinset]⟩) hu

/-- The loop ends, and it has taken every node if and only if there is no cycle. -/
theorem exists_loop_turn {fuel : Nat} (h : Taken nodes edges [] s)
    (hends : ∀ e ∈ edges, e.1 ∈ nodes ∧ e.2 ∈ nodes) (hfuel : nodes.card < fuel) :
    ∃ n, loop (fun _ => Kahn.turn (targets edges)) fuel 0 s = some n ∧
      (n = nodes.card ↔ Acyclic fun u v => (u, v) ∈ edges) := by
  refine loop_total _ (fun _ t => ∃ done, Taken nodes edges done t)
    (fun t => nodes.card - t.visited) _ ?_ ⟨[], h⟩ (by omega)
  rintro k t ⟨done, ht⟩
  cases hready : t.ready with
  | nil =>
    rw [Kahn.turn, hready]
    exact ht.visited_eq_card_iff hends hready
  | cons id rest =>
    have hnext := ht.turn (fun e he => (hends e he).2) hready
    rw [Kahn.turn, hready]
    refine ⟨⟨_, hnext⟩, ?_⟩
    have hle : (done ++ [id]).length ≤ nodes.card := by
      have hnodup := (List.nodup_append'.1 hnext.nodup).1
      rw [← List.toFinset_card_of_nodup hnodup]
      refine Finset.card_le_card fun v hv => hnext.known v ?_
      exact List.mem_append_left _ (List.mem_toFinset.1 hv)
    have hvisited := ht.visited
    rw [visited_foldl]
    rw [List.length_append, List.length_singleton] at hle
    dsimp only
    omega

end Sorting

end Kahn

end Lib
