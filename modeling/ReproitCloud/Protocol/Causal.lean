import ReproitCloud.Lib.TopologicalOrder
import ReproitCloud.Lib.Worklist
import ReproitCloud.Protocol.Checks

/-!
# Causal graphs

A proof of a failure may carry the graph of its causes.  `CausalGraph.validate` checks the
nodes, then the edges while it counts them, and then takes the nodes in a topological order.
`removalClosure` is what has to go when some nodes are removed: everything that depends on
them.

A `BTreeSet` is a finite set here, and it is walked in the order of its elements.  A `BTreeMap`
from the nodes is a function, with no edges where it has no entry.
-/

namespace ReproitCloud

open Lib

namespace Protocol

/-! ## Graphs -/

/-- `CAUSAL_GRAPH_VERSION`. -/
def causalGraphVersion : Nat := 1

def maxCausalNodes : Nat := 16384

def maxCausalEdges : Nat := 65536

def maxCausalLabelBytes : Nat := 16 * 1024

/-- `CausalNodeKind`. -/
inductive CausalNodeKind where
  | action
  | response
  | timer
  | stateWrite
  | callback
  | permission
  | actorEvent
  | backendEvent
  | environment
  | finding
deriving DecidableEq, Repr

/-- `CausalTarget`. -/
inductive CausalTarget where
  | action (actor : String) (index : UInt32)
  | exchange (actor : String) (actionIndex ordinal : UInt32) (exchangeId : String)
  | backendEvent (sequence : UInt64) (traceId spanId : String)
  | environment (key : String)
deriving DecidableEq, Repr

/-- `CausalNode`. -/
structure CausalNode where
  id : String
  kind : CausalNodeKind
  label : String
  actor : Option String := none
  target : Option CausalTarget := none
deriving DecidableEq, Repr

/-- `CausalEdgeKind`. -/
inductive CausalEdgeKind where
  | happensBefore
  | dataDependency
  | statePrerequisite
  | actorOwnership
  | contractScope
deriving DecidableEq, Repr

/-- `CausalEdge`. -/
structure CausalEdge where
  from' : String
  to' : String
  kind : CausalEdgeKind
deriving DecidableEq, Repr

/-- `CausalGraph`. -/
structure CausalGraph where
  version : Nat := causalGraphVersion
  nodes : List CausalNode := []
  edges : List CausalEdge := []
deriving DecidableEq, Repr

/-- The nodes of an edge. -/
def CausalEdge.ends (e : CausalEdge) : String × String := (e.from', e.to')

def CausalGraph.ids (g : CausalGraph) : List String := g.nodes.map CausalNode.id

/-- Whether an edge leads from one node to another. -/
def CausalGraph.Leads (g : CausalGraph) (u v : String) : Prop :=
  (u, v) ∈ g.edges.map CausalEdge.ends

/-! ## Validation -/

/-- The targets that a kind of node may have. -/
def validTarget : CausalNodeKind → Option CausalTarget → Bool
  | .action, some (.action ..) => true
  | .response, some (.exchange ..) => true
  | .timer, some (.environment _) => true
  | .permission, some (.environment _) => true
  | .environment, some (.environment _) => true
  | .stateWrite, none => true
  | .stateWrite, some (.backendEvent ..) => true
  | .callback, some (.backendEvent ..) => true
  | .backendEvent, some (.backendEvent ..) => true
  | .actorEvent, none => true
  | .finding, none => true
  | _, _ => false

def validateTarget : Option CausalTarget → Check
  | some (.action actor _) => validateToken actor
  | some (.exchange actor _ _ exchangeId) => do
    validateToken actor
    validateText maxCausalLabelBytes exchangeId
  | some (.backendEvent _ traceId spanId) => do
    validateToken traceId
    validateToken spanId
  | some (.environment key) => validateText maxCausalLabelBytes key
  | none => .ok ()

/-- `validate_node`. -/
def validateNode (n : CausalNode) : Check := do
  validateToken n.id
  validateText maxCausalLabelBytes n.label
  optional validateToken n.actor
  require (validTarget n.kind n.target) .invalidEvent
  validateTarget n.target

/-- The loop over the nodes, with the ids so far. -/
def collectIds : Finset String → List CausalNode → Except ReasonCode (Finset String)
  | ids, [] => .ok ids
  | ids, n :: rest => do
    validateNode n
    require (n.id ∉ ids) .invalidEvent
    collectIds (insert n.id ids) rest

/-- What the loop over the edges builds. -/
structure EdgeMaps where
  indegree : String → Nat := fun _ => 0
  outgoing : String → List String := fun _ => []
  uniqueEdges : Finset CausalEdge := ∅

def EdgeMaps.add (m : EdgeMaps) (e : CausalEdge) : EdgeMaps where
  indegree := Function.update m.indegree e.to' (m.indegree e.to' + 1)
  outgoing := Function.update m.outgoing e.from' (m.outgoing e.from' ++ [e.to'])
  uniqueEdges := insert e m.uniqueEdges

/-- The loop over the edges. -/
def collectEdges (ids : Finset String) : EdgeMaps → List CausalEdge → Except ReasonCode EdgeMaps
  | m, [] => .ok m
  | m, e :: rest => do
    validateToken e.from'
    validateToken e.to'
    require (!(e.from' = e.to' || e.from' ∉ ids || e.to' ∉ ids || e ∈ m.uniqueEdges)) .invalidEvent
    collectEdges ids (m.add e) rest

/-- The loop that counts the nodes in a topological order.  It has a turn for each node and
one to leave, and it needs no more. -/
def countVisited (ids : Finset String) (m : EdgeMaps) : Option Nat :=
  loop (fun _ => Kahn.turn m.outgoing) (ids.card + 1) 0
    ⟨(ids.sort).filter fun id => m.indegree id = 0, m.indegree, 0⟩

/-- `CausalGraph::validate`. -/
def CausalGraph.validate (g : CausalGraph) : Check := do
  require (g.version = causalGraphVersion) .unsupportedVersion
  require (g.nodes.length ≤ maxCausalNodes && g.edges.length ≤ maxCausalEdges) .batchTooLarge
  let ids ← collectIds ∅ g.nodes
  let m ← collectEdges ids {} g.edges
  require (countVisited ids m = some g.nodes.length) .invalidSequence

/-! ## Removal -/

/-- The kinds of edge that removal follows. -/
def CausalEdgeKind.dependency : CausalEdgeKind → Bool
  | dataDependency | statePrerequisite => true
  | _ => false

/-- The nodes that depend on a node. -/
def CausalGraph.dependents (g : CausalGraph) (id : String) : List String :=
  (g.edges.filter fun e => e.from' = id && e.kind.dependency).map CausalEdge.to'

/-- `removal_closure`.  Everything that was requested has a turn, and so has every target of
an edge. -/
def CausalGraph.removalClosure (g : CausalGraph) (requested : Finset String) :
    Option (Finset String) :=
  loop (fun _ => Worklist.turn g.dependents) (requested.card + g.edges.length + 1) 0
    ⟨requested.sort, requested⟩

/-! ## What is accepted -/

/-- The edges of a graph are between its nodes, its nodes have ids of their own and pass their
checks, and it has no cycle. -/
structure CausalGraph.Ordered (g : CausalGraph) : Prop where
  version : g.version = causalGraphVersion
  nodes : g.nodes.length ≤ maxCausalNodes
  edges : g.edges.length ≤ maxCausalEdges
  fields : ∀ n ∈ g.nodes, validateNode n = .ok ()
  ids : g.ids.Nodup
  ends : ∀ e ∈ g.edges, e.from' ∈ g.ids ∧ e.to' ∈ g.ids
  acyclic : Acyclic g.Leads

section Accepted

variable {g : CausalGraph} {ids ids' : Finset String} {nodes : List CausalNode}
  {edges : List CausalEdge} {m m' : EdgeMaps}

/-- A check before a computation that gives a value. -/
theorem then_eq_ok_iff {α : Type} {check : Check} {rest : Except ReasonCode α} {a : α} :
    (check >>= fun _ => rest) = .ok a ↔ check = .ok () ∧ rest = .ok a := by
  cases check <;> simp [bind, Except.bind]

/-- What is not seen again after a value: it was not seen before, and it is not the value. -/
theorem forall_fresh_iff {α β : Type} [DecidableEq β] (key : α → β) (accepted : α → Prop)
    {rest : List α} {a : α} {seen : Finset β} :
    (∀ b ∈ rest, accepted b ∧ key b ∉ insert (key a) seen) ↔
      (∀ b ∈ rest, accepted b ∧ key b ∉ seen) ∧ key a ∉ rest.map key := by
  simp only [Finset.mem_insert, not_or, List.mem_map, not_exists, not_and]
  constructor
  · intro h
    exact ⟨fun b hb => ⟨(h b hb).1, (h b hb).2.2⟩, fun b hb => (h b hb).2.1⟩
  · rintro ⟨h, hne⟩ b hb
    exact ⟨(h b hb).1, hne b hb, (h b hb).2⟩

theorem bind_eq_ok_iff {α : Type} {value : Except ReasonCode α} {check : α → Check} :
    value >>= check = .ok () ↔ ∃ a, value = .ok a ∧ check a = .ok () := by
  cases value <;> simp [bind, Except.bind]

theorem collectIds_eq_ok_iff :
    collectIds ids nodes = .ok ids' ↔
      (∀ n ∈ nodes, validateNode n = .ok () ∧ n.id ∉ ids) ∧ (nodes.map CausalNode.id).Nodup ∧
        ids' = ids ∪ (nodes.map CausalNode.id).toFinset := by
  induction nodes generalizing ids with
  | nil =>
    simp only [collectIds]
    simp [eq_comm]
  | cons n nodes ih =>
    rw [collectIds, then_eq_ok_iff, then_eq_ok_iff, require_ok_iff, decide_eq_true_iff, ih,
      List.forall_mem_cons, List.map_cons, List.nodup_cons, List.toFinset_cons,
      forall_fresh_iff CausalNode.id fun n => validateNode n = .ok (), Finset.insert_union,
      Finset.union_insert]
    tauto

/-- What the loop asks of an edge. -/
def EdgeAccepted (ids : Finset String) (e : CausalEdge) : Prop :=
  validateToken e.from' = .ok () ∧ validateToken e.to' = .ok () ∧ e.from' ≠ e.to' ∧
    e.from' ∈ ids ∧ e.to' ∈ ids

theorem collectEdges_eq_ok_iff :
    collectEdges ids m edges = .ok m' ↔
      (∀ e ∈ edges, EdgeAccepted ids e ∧ e ∉ m.uniqueEdges) ∧ edges.Nodup ∧
        m' = edges.foldl EdgeMaps.add m := by
  induction edges generalizing m with
  | nil =>
    simp only [collectEdges]
    simp [eq_comm]
  | cons e edges ih =>
    have hfresh : (∀ e' ∈ edges, EdgeAccepted ids e' ∧ e' ∉ (m.add e).uniqueEdges) ↔
        (∀ e' ∈ edges, EdgeAccepted ids e' ∧ e' ∉ m.uniqueEdges) ∧ e ∉ edges.map id :=
      forall_fresh_iff id (EdgeAccepted ids)
    rw [List.map_id] at hfresh
    rw [collectEdges, then_eq_ok_iff, then_eq_ok_iff, then_eq_ok_iff, require_ok_iff, ih, hfresh,
      List.forall_mem_cons, List.nodup_cons, List.foldl_cons, EdgeAccepted]
    simp only [Bool.not_eq_true', Bool.or_eq_false_iff, decide_eq_false_iff_not, not_not]
    tauto

/-- The maps count and list the edges. -/
theorem indegree_foldl_add (edges : List CausalEdge) (m : EdgeMaps) (v : String) :
    (edges.foldl EdgeMaps.add m).indegree v =
      m.indegree v + edges.countP fun e => e.to' = v := by
  induction edges generalizing m with
  | nil => rfl
  | cons e edges ih =>
    rw [List.foldl_cons, ih, List.countP_cons]
    by_cases hv : v = e.to'
    · subst hv
      simp [EdgeMaps.add]
      omega
    · simp [EdgeMaps.add, Function.update_of_ne hv, Ne.symm hv]

theorem outgoing_foldl_add (edges : List CausalEdge) (m : EdgeMaps) (u : String) :
    (edges.foldl EdgeMaps.add m).outgoing u =
      m.outgoing u ++ (edges.filter fun e => e.from' = u).map CausalEdge.to' := by
  induction edges generalizing m with
  | nil => simp
  | cons e edges ih =>
    rw [List.foldl_cons, ih, List.filter_cons]
    by_cases hu : u = e.from'
    · subst hu
      simp [EdgeMaps.add]
    · simp [EdgeMaps.add, Function.update_of_ne hu, Ne.symm hu]

/-- The maps are those that a topological order starts with. -/
theorem indegree_eq_pending (edges : List CausalEdge) :
    (edges.foldl EdgeMaps.add {}).indegree = Kahn.pending (edges.map CausalEdge.ends) [] := by
  funext v
  rw [indegree_foldl_add, Nat.zero_add, Kahn.pending, List.countP_map]
  refine List.countP_congr fun e _ => ?_
  rw [decide_eq_true_iff, Function.comp_apply, decide_eq_true_iff]
  simp [CausalEdge.ends]

theorem outgoing_eq_targets (edges : List CausalEdge) :
    (edges.foldl EdgeMaps.add {}).outgoing = Kahn.targets (edges.map CausalEdge.ends) := by
  funext u
  rw [outgoing_foldl_add, Kahn.targets, List.nil_append, List.filter_map, List.map_map]
  rfl

/-- The count ends, and it has every node if and only if the edges have no cycle. -/
theorem exists_countVisited (hends : ∀ e ∈ edges, e.from' ∈ ids ∧ e.to' ∈ ids) :
    ∃ n, countVisited ids (edges.foldl EdgeMaps.add {}) = some n ∧
      (n = ids.card ↔ Acyclic fun u v => (u, v) ∈ edges.map CausalEdge.ends) := by
  rw [countVisited, indegree_eq_pending, outgoing_eq_targets]
  refine Kahn.exists_loop_turn (Kahn.taken_nil ?_ fun v => ?_) ?_ (Nat.lt_succ_self _)
  · exact (Finset.sort_nodup _ _).filter _
  · rw [List.mem_filter, Finset.mem_sort, decide_eq_true_iff]
  · rintro p hp
    obtain ⟨e, he, rfl⟩ := List.mem_map.1 hp
    exact hends e he

/-- What an edge is asked for besides its ends follows from the checks of the nodes. -/
theorem CausalGraph.Ordered.edgeAccepted (h : g.Ordered) :
    ∀ e ∈ g.edges, EdgeAccepted g.ids.toFinset e := by
  intro e he
  have htoken : ∀ id ∈ g.ids, validateToken id = .ok () := by
    intro id hid
    obtain ⟨n, hn, rfl⟩ := List.mem_map.1 hid
    exact (both_ok_iff.1 (h.fields n hn)).1
  obtain ⟨hfrom, hto⟩ := h.ends e he
  refine ⟨htoken _ hfrom, htoken _ hto, fun hloop => ?_, List.mem_toFinset.2 hfrom,
    List.mem_toFinset.2 hto⟩
  -- An edge from a node to itself is a cycle.
  have hleads : g.Leads e.from' e.to' := List.mem_map_of_mem he
  rw [hloop] at hleads
  exact h.acyclic _ (.single hleads)

/-- The ids of the nodes are as many as the nodes when none occurs twice. -/
theorem card_ids (h : g.ids.Nodup) : g.ids.toFinset.card = g.nodes.length := by
  rw [List.toFinset_card_of_nodup h, CausalGraph.ids, List.length_map]

/-- What `validate` accepts. -/
theorem CausalGraph.validate_ok_iff : g.validate = .ok () ↔ g.Ordered ∧ g.edges.Nodup := by
  rw [CausalGraph.validate, both_ok_iff, both_ok_iff, require_ok_iff, require_ok_iff,
    decide_eq_true_iff, Bool.and_eq_true, decide_eq_true_iff, decide_eq_true_iff]
  constructor
  · rintro ⟨hversion, ⟨hnodes, hedges⟩, h⟩
    obtain ⟨ids, hids, h⟩ := bind_eq_ok_iff.1 h
    obtain ⟨m, hm, h⟩ := bind_eq_ok_iff.1 h
    obtain ⟨hfields, hnodup, rfl⟩ := collectIds_eq_ok_iff.1 hids
    obtain ⟨haccepted, hunique, rfl⟩ := collectEdges_eq_ok_iff.1 hm
    rw [Finset.empty_union] at haccepted h
    have hends : ∀ e ∈ g.edges, e.from' ∈ g.ids.toFinset ∧ e.to' ∈ g.ids.toFinset :=
      fun e he => (haccepted e he).1.2.2.2
    obtain ⟨n, hn, hall⟩ := exists_countVisited hends
    rw [card_ids hnodup] at hall
    have hcount : n = g.nodes.length := by
      have h := decide_eq_true_iff.1 (require_ok_iff.1 h)
      exact Option.some.inj (hn.symm.trans h)
    refine ⟨⟨hversion, hnodes, hedges, fun n hn => (hfields n hn).1, hnodup, fun e he => ?_,
      hall.1 hcount⟩, hunique⟩
    rw [← List.mem_toFinset, ← List.mem_toFinset]
    exact hends e he
  · rintro ⟨h, hunique⟩
    have hids : collectIds ∅ g.nodes = .ok g.ids.toFinset :=
      collectIds_eq_ok_iff.2 ⟨fun n hn => ⟨h.fields n hn, Finset.notMem_empty _⟩, h.ids,
        (Finset.empty_union _).symm⟩
    have hm : collectEdges g.ids.toFinset {} g.edges = .ok (g.edges.foldl EdgeMaps.add {}) :=
      collectEdges_eq_ok_iff.2 ⟨fun e he => ⟨h.edgeAccepted e he, Finset.notMem_empty _⟩, hunique,
        rfl⟩
    obtain ⟨n, hn, hall⟩ := exists_countVisited fun e he => (h.edgeAccepted e he).2.2.2
    rw [card_ids h.ids] at hall
    refine ⟨h.version, ⟨h.nodes, h.edges⟩, bind_eq_ok_iff.2 ⟨_, hids, bind_eq_ok_iff.2 ⟨_, hm, ?_⟩⟩⟩
    rw [require_ok_iff, decide_eq_true_iff, hn, hall.2 h.acyclic]

/-- Everything that a removal leads to is the target of an edge. -/
theorem CausalGraph.mem_dependents_iff {id id' : String} :
    id' ∈ g.dependents id ↔
      ∃ e ∈ g.edges, e.kind.dependency = true ∧ e.from' = id ∧ e.to' = id' := by
  rw [CausalGraph.dependents, List.mem_map]
  simp only [List.mem_filter, Bool.and_eq_true, decide_eq_true_eq]
  tauto

/-- A set of nodes has whatever depends on one of them. -/
def CausalGraph.DependentsIn (g : CausalGraph) (set : Set String) : Prop :=
  ∀ e ∈ g.edges, e.kind.dependency = true → e.from' ∈ set → e.to' ∈ set

theorem CausalGraph.closedUnder_dependents_iff {set : Set String} :
    ClosedUnder g.dependents set ↔ g.DependentsIn set := by
  constructor
  · intro h e he hkind hfrom
    exact h e.from' hfrom e.to' (CausalGraph.mem_dependents_iff.2 ⟨e, he, hkind, rfl, rfl⟩)
  · intro h id hid id' hid'
    obtain ⟨e, he, hkind, rfl, rfl⟩ := CausalGraph.mem_dependents_iff.1 hid'
    exact h e he hkind hid

/-- The closure ends, with the least set that has the request and all that depends on it. -/
theorem CausalGraph.exists_removalClosure (g : CausalGraph) (requested : Finset String) :
    ∃ removed, g.removalClosure requested = some removed ∧
      IsLeast {set : Set String | ↑requested ⊆ set ∧ g.DependentsIn set} ↑removed := by
  have hbound : ∀ id, ∀ id' ∈ g.dependents id, id' ∈ (g.edges.map CausalEdge.to').toFinset := by
    intro id id' hid'
    obtain ⟨e, he, -, -, rfl⟩ := CausalGraph.mem_dependents_iff.1 hid'
    exact List.mem_toFinset.2 (List.mem_map_of_mem he)
  have hfuel : Worklist.remaining (g.edges.map CausalEdge.to').toFinset
      ⟨requested.sort, requested⟩ < requested.card + g.edges.length + 1 := by
    have hcard := Finset.card_le_card
      (Finset.sdiff_subset (s := (g.edges.map CausalEdge.to').toFinset) (t := requested))
    have hlength := List.toFinset_card_le (g.edges.map CausalEdge.to')
    rw [List.length_map] at hlength
    rw [Worklist.remaining, Finset.length_sort]
    dsimp only
    omega
  obtain ⟨removed, hremoved, hleast⟩ := Worklist.exists_loop_turn_isLeast
    (Worklist.exploring_start fun _ => Finset.mem_sort _) hbound hfuel
  refine ⟨removed, hremoved, ?_⟩
  simp only [CausalGraph.closedUnder_dependents_iff] at hleast
  exact hleast

end Accepted

/-- Causal graphs are validated and closed as they should be.  A graph is accepted if and only
if its nodes have ids of their own, its edges are between them without a cycle, and no edge
occurs twice.  A removal ends with the least set that has the request and its dependents. -/
theorem causal_graph_sound (g : CausalGraph) :
    (g.validate = .ok () ↔ g.Ordered ∧ g.edges.Nodup) ∧
      ∀ requested : Finset String, ∃ removed, g.removalClosure requested = some removed ∧
        IsLeast {set : Set String | ↑requested ⊆ set ∧ g.DependentsIn set} ↑removed :=
  ⟨CausalGraph.validate_ok_iff, g.exists_removalClosure⟩

/-- Two nodes, and one edge between them that occurs twice. -/
def twiceGraph : CausalGraph where
  nodes := [⟨"a", .actorEvent, "a", none, none⟩, ⟨"b", .actorEvent, "b", none, none⟩]
  edges := [⟨"a", "b", .happensBefore⟩, ⟨"a", "b", .happensBefore⟩]

/-- An edge that occurs twice makes no cycle, and it is refused. -/
theorem repeated_edge_is_refused :
    twiceGraph.Ordered ∧ twiceGraph.validate = .error .invalidEvent := by
  have hleads {u v : String} (h : twiceGraph.Leads u v) : u = "a" ∧ v = "b" := by
    have hends : (u, v) = ("a", "b") := by
      simpa [CausalGraph.Leads, twiceGraph, CausalEdge.ends] using h
    exact Prod.ext_iff.1 hends
  have hway {u v : String} (h : Relation.TransGen twiceGraph.Leads u v) : u = "a" ∧ v = "b" := by
    induction h with
    | single h => exact hleads h
    | tail _ h ih => exact ⟨ih.1, (hleads h).2⟩
  refine ⟨⟨rfl, by decide, by decide, by decide, by decide, by decide, fun id h => ?_⟩, by decide⟩
  obtain ⟨rfl, hb⟩ := hway h
  exact absurd hb (by decide)

end Protocol

end ReproitCloud
