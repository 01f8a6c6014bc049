import ReproitCloud.Telemetry.Storable
import ReproitCloud.Lib.JoinedFields

/-!
# The graphs of an app

The accepted batches of an app make up two graphs.  The usage graph has an edge for
every `GraphEdge` event, counted by its key, and `get_graph` reads the edges back
from the keys.  The evidence graphs are stored node by node under the ids of the
nodes, and `proof_ledger` reads the payload of a root.

`Applied` is what a batch does to the tables of both.  `delivered_invariant` carries
an invariant of these tables and of the batches that were accepted so far over every
sequence of deliveries, with batches that fail or come twice.

The key of an edge is its three texts, joined with `|`, and a text may hold a `|`.
`graph_exact_iff` says that this is the one thing that can go wrong.  A stored node
is one that was sent, and with its parents (`evidence_closed`).
-/

namespace ReproitCloud

open Lib Protocol

/-! ## Deliveries -/

/-- A post of a batch, or `prune_processed_batches`. -/
inductive Delivery where
  | post (batch : EventBatch) (now : Micros) (fault : Option Nat)
      (errorSerials outboxSerials : Nat)
  | prune (now : Micros)

def Delivery.event : Delivery → IngestEvent
  | post batch now fault errors outbox => .call ⟨now, batch.toIngest, fault, errors, outbox⟩
  | prune now => .prune now

/-- The batch that a delivery is accepted with. -/
def Delivery.accepted (P : Platform) (t : TenantStore) : Delivery → List EventBatch
  | post batch now fault errors outbox =>
    if (ingestCall P t ⟨now, batch.toIngest, fault, errors, outbox⟩).1 = .accepted then [batch]
    else []
  | prune _ => []

/-- The batches that are accepted, in their order. -/
def acceptedBatches (P : Platform) (t : TenantStore) : List Delivery → List EventBatch
  | [] => []
  | d :: ds => d.accepted P t ++ acceptedBatches P (ingestEvent P t d.event) ds

/-- The store after some deliveries. -/
def delivered (P : Platform) (t : TenantStore) (ds : List Delivery) : TenantStore :=
  storeAfter P t (ds.map Delivery.event)

/-- What a batch does to the tables of the two graphs. -/
structure Applied (b : IngestBatch) (t u : TenantStore) : Prop where
  edges : u.edges =
    b.edges.foldl (fun es e => es.upsert (b.appId, e.1) e.2 (· + e.2)) t.edges
  nodes : u.artifactNodes =
    (b.evidence.flatMap EvidenceGraph.nodes).foldl (fun ns n => ns.insertIgnore (b.appId, n.id) n)
      t.artifactNodes
  roots : ∀ app run root, u.artifactRoots.has (app, run, root) = true →
    t.artifactRoots.has (app, run, root) = true ∨
      app = b.appId ∧ (∃ g ∈ b.evidence, g.runId = run ∧ g.root = root) ∧
        u.artifactNodes.has (app, root) = true

/-- The same tables of the two graphs. -/
structure SameGraphs (t u : TenantStore) : Prop where
  edges : u.edges = t.edges
  nodes : u.artifactNodes = t.artifactNodes
  roots : u.artifactRoots = t.artifactRoots

section Deliveries

variable {P : Platform} {t u : TenantStore} {now : Micros} {b : IngestBatch}

theorem applied_of_isEmpty (h : b.isEmpty = true) : Applied b t t := by
  simp only [IngestBatch.isEmpty, Bool.and_eq_true, List.isEmpty_iff] at h
  obtain ⟨⟨hedges, -⟩, hevidence⟩ := h
  exact ⟨by rw [hedges]; rfl, by rw [hevidence]; rfl, fun _ _ _ h => .inl h⟩

theorem has_insertRoots {app : String} {evidence : List EvidenceGraph}
    {roots : Table (String × String × String) Unit} {key : String × String × String} :
    (evidence.foldl (fun rs g => rs.insertIgnore (app, g.runId, g.root) ()) roots).has key = true ↔
      roots.has key = true ∨ ∃ g ∈ evidence, key = (app, g.runId, g.root) := by
  induction evidence generalizing roots with
  | nil => simp
  | cons g evidence ih =>
    have hone : (roots.insertIgnore (app, g.runId, g.root) ()).has key = true ↔
        roots.has key = true ∨ key = (app, g.runId, g.root) := by
      rw [Table.has, Table.has, Table.get?_insertIgnore]
      by_cases hkey : key = (app, g.runId, g.root) <;> simp [hkey]
    rw [List.foldl_cons, ih, hone, or_assoc, List.exists_mem_cons_iff]

/-- Storing the graphs, after the edges. -/
theorem applied_storeGraphs (hedges : t.edges =
      b.edges.foldl (fun es e => es.upsert (b.appId, e.1) e.2 (· + e.2)) u.edges)
    (hnodes : t.artifactNodes = u.artifactNodes) (hroots : t.artifactRoots = u.artifactRoots)
    {v : TenantStore} (h : storeGraphs t b.appId b.evidence = .ok v) : Applied b u v := by
  simp only [storeGraphs] at h
  split at h
  · rename_i hnone
    rw [List.isEmpty_iff] at hnone
    cases h
    refine ⟨hedges, ?_, fun _ _ _ h => .inl (hroots ▸ h)⟩
    rw [hnone, hnodes]
    rfl
  · split at h
    · rename_i hrooted
      cases h
      refine ⟨hedges, by rw [hnodes], fun app run root hroot => ?_⟩
      rw [has_insertRoots, hroots] at hroot
      rcases hroot with hroot | ⟨g, hg, hkey⟩
      · exact .inl hroot
      · cases hkey
        exact .inr ⟨rfl, ⟨g, hg, rfl, rfl⟩, List.all_eq_true.1 hrooted g hg⟩
    · cases h

theorem applied_of_applyBatch (h : applyBatch P now b t = .ok u) : Applied b t u := by
  rw [applyBatch] at h
  obtain ⟨traffic, htraffic⟩ := recordTraffic_eq t now b.appId b.deployment
  simp only [htraffic, upsertEdges] at h
  split at h
  · refine applied_storeGraphs ?_ ?_ ?_ h
    · split
      · rfl
      · simp only [insertErrors, enqueueIssues_eq]
    · split
      · rfl
      · simp only [insertErrors, enqueueIssues_eq]
    · split
      · rfl
      · simp only [insertErrors, enqueueIssues_eq]
  · cases h

/-- One delivery applies the batch that it is accepted with, or leaves the graphs. -/
theorem delivery_cases (P : Platform) (t : TenantStore) (d : Delivery) :
    d.accepted P t = [] ∧ SameGraphs t (ingestEvent P t d.event) ∨
      ∃ batch now fault errors outbox, d = .post batch now fault errors outbox ∧
        d.accepted P t = [batch] ∧
        ∃ s, SameGraphs t s ∧ Applied batch.toIngest s (ingestEvent P t d.event) := by
  cases d with
  | prune now => exact .inl ⟨rfl, rfl, rfl, rfl⟩
  | post batch now fault errors outbox =>
    have hcalled := ingestCall_cases P t ⟨now, batch.toIngest, fault, errors, outbox⟩
    simp only [Delivery.accepted, Delivery.event, ingestEvent]
    generalize (ingestCall P t ⟨now, batch.toIngest, fault, errors, outbox⟩).1 = answer at hcalled
    generalize (ingestCall P t ⟨now, batch.toIngest, fault, errors, outbox⟩).2 = t' at hcalled
    cases hcalled with
    | nothing hempty =>
      exact .inr ⟨batch, now, fault, errors, outbox, rfl, rfl, t, ⟨rfl, rfl, rfl⟩,
        applied_of_isEmpty hempty⟩
    | duplicate hbatch hknown => exact .inl ⟨rfl, rfl, rfl, rfl⟩
    | rolledBack hbatch => exact .inl ⟨rfl, rfl, rfl, rfl⟩
    | committed hbatch hfresh happlied =>
      exact .inr ⟨batch, now, fault, errors, outbox, rfl, rfl,
        consumeBatch now batch.toIngest t, ⟨rfl, rfl, rfl⟩, applied_of_applyBatch happlied⟩

/-- An invariant of the tables of the two graphs and the accepted batches. -/
theorem delivered_invariant (Inv : TenantStore → List EventBatch → Prop)
    (Posted : EventBatch → Prop) (hsame : ∀ {t u bs}, SameGraphs t u → Inv t bs → Inv u bs)
    (happlied : ∀ {t u bs b}, Posted b → Applied b.toIngest t u → Inv t bs → Inv u (bs ++ [b]))
    {bs : List EventBatch} (h : Inv t bs) (ds : List Delivery)
    (hposted : ∀ batch now fault errors outbox,
      .post batch now fault errors outbox ∈ ds → Posted batch) :
    Inv (delivered P t ds) (bs ++ acceptedBatches P t ds) := by
  induction ds generalizing t bs with
  | nil => simpa [delivered, storeAfter, acceptedBatches] using h
  | cons d ds ih =>
    have hrest := fun {t' bs'} (h' : Inv t' bs') => ih h' fun batch now fault errors outbox hin =>
      hposted batch now fault errors outbox (List.mem_cons_of_mem _ hin)
    rw [acceptedBatches, ← List.append_assoc]
    rcases delivery_cases P t d with ⟨hnone, hgraphs⟩ |
        ⟨batch, now, fault, errors, outbox, hd, hone, s, hgraphs, hbatch⟩
    · rw [hnone, List.append_nil]
      exact hrest (hsame hgraphs h)
    · rw [hone]
      have hpost : Posted batch :=
        hposted batch now fault errors outbox (hd ▸ List.mem_cons_self)
      exact hrest (happlied hpost hbatch (hsame hgraphs h))

end Deliveries

/-! ## The usage graph -/

/-- The three texts of an edge: from, action and to. -/
abbrev EdgeTexts := String × String × String

/-- The edge of an event. -/
def edgeTexts? : Event → Option EdgeTexts
  | .graphEdge from' label to' => some (from', label, to')
  | _ => none

/-- The edges that an app's batches carry, as often as they do. -/
def sentEdges (app : String) (bs : List EventBatch) : Multiset EdgeTexts :=
  ↑((bs.filter fun b => b.appId = app).flatMap fun b =>
    b.frames.filterMap fun f => edgeTexts? f.event)

/-- The key of an edge. -/
def keyOf (e : EdgeTexts) : String := edgeKey e.1 e.2.1 e.2.2

/-- An edge of the answer of `get_graph`. -/
structure GraphEdge where
  from' : String
  action : String
  to' : String
  count : Int
deriving DecidableEq, Repr

def GraphEdge.texts (e : GraphEdge) : EdgeTexts := (e.from', e.action, e.to')

/-- `TenantStore::edges`. -/
def TenantStore.edgesOf (t : TenantStore) (app : String) : List (String × Int) :=
  ((t.edges.rows.filter fun r => r.1.1 = app).map fun r => (r.1.2, r.2)).insertionSort
    fun a b => a.1 ≤ b.1

/-- The edge of a row, by the parts of its key. -/
def graphEdge (row : String × Int) : GraphEdge :=
  let p := (row.1.toList.splitOn '|').map String.ofList
  ⟨p.getD 0 "", p.getD 1 "", p.getD 2 "", row.2⟩

/-- The answer of `get_graph`. -/
structure UsageGraph where
  states : Nat
  edges : List GraphEdge

/-- `get_graph`. -/
def getGraph (t : TenantStore) (app : String) : UsageGraph :=
  let edges := (t.edgesOf app).map graphEdge
  ⟨((edges.flatMap fun e => [e.from', e.to']).filter fun s => s ≠ "" && s ≠ "\u2205").dedup.length,
    edges⟩

/-- The graph has the edges that were sent, each once and with its number. -/
structure Exact (sent : Multiset EdgeTexts) (edges : List GraphEdge) : Prop where
  once : (edges.map GraphEdge.texts).Nodup
  counted : ∀ e, e ∈ edges ↔ e.texts ∈ sent ∧ e.count = sent.count e.texts
  apart : ∀ e ∈ sent, ∀ e' ∈ sent, keyOf e = keyOf e' → e = e'

/-- No text of the edge holds a separator. -/
def PipeFree (e : EdgeTexts) : Prop := '|' ∉ e.1.toList ∧ '|' ∉ e.2.1.toList ∧ '|' ∉ e.2.2.toList

section Usage

variable {P : Platform} {app : String}

/-- The stored edges are the edges that were sent, by their keys. -/
def EdgesKept (t : TenantStore) (bs : List EventBatch) : Prop :=
  Counts t.edges ↑(bs.flatMap fun b =>
    (b.frames.filterMap fun f => f.event.edge?).map fun key => (b.appId, key))

theorem edgesKept_applied {t u : TenantStore} {bs : List EventBatch} {b : EventBatch}
    (happlied : Applied b.toIngest t u) (h : EdgesKept t bs) : EdgesKept u (bs ++ [b]) := by
  have hcounts := counts_edges b.frames
  have hpos : ∀ r ∈ (aggregateEvents b.frames).edgeCounts.rows.map (fun r => ((b.appId, r.1), r.2)),
      0 < r.2 := by
    intro r hr
    obtain ⟨r', hr', rfl⟩ := List.mem_map.1 hr
    exact (hcounts.pos (Table.get?_eq_some_iff.2 hr')).1
  have hsum : (((aggregateEvents b.frames).edgeCounts.rows.map fun r => ((b.appId, r.1), r.2)).map
      fun r => Multiset.replicate r.2.toNat r.1).sum =
      (↑((b.frames.filterMap fun f => f.event.edge?).map fun key => (b.appId, key)) :
        Multiset (String × String)) := by
    rw [← Multiset.map_coe, ← hcounts.sum_rows, List.map_map]
    show _ = Multiset.mapAddMonoidHom (fun key => (b.appId, key)) _
    rw [map_list_sum, List.map_map]
    congr 1
    refine List.map_congr_left fun r _ => ?_
    simp
  have hbumped := Counts.bump_rows h hpos
  rw [hsum, List.foldl_map] at hbumped
  have hedges : u.edges = (aggregateEvents b.frames).edgeCounts.rows.foldl
      (fun t r => t.bump (b.appId, r.1) r.2) t.edges := happlied.edges
  rw [EdgesKept, hedges, List.flatMap_append, ← Multiset.coe_add]
  simpa using hbumped

theorem edgesKept_delivered (P : Platform) (ds : List Delivery) :
    EdgesKept (delivered P .empty ds) (acceptedBatches P .empty ds) := by
  have hstart : EdgesKept .empty [] := counts_empty
  have hsame : ∀ {t u bs}, SameGraphs t u → EdgesKept t bs → EdgesKept u bs := by
    intro t u bs hsame h
    rwa [EdgesKept, hsame.edges]
  exact delivered_invariant (P := P) EdgesKept (fun _ => True) hsame
    (fun _ happlied h => edgesKept_applied happlied h) hstart ds fun _ _ _ _ _ _ => trivial

theorem edges_eq_map_keyOf (frames : List EventFrame) :
    (frames.filterMap fun f => f.event.edge?) =
      (frames.filterMap fun f => edgeTexts? f.event).map keyOf := by
  rw [List.map_filterMap]
  congr 1
  funext f
  cases f.event <;> rfl

/-- Among the keys of all apps, those of one are the keys of its edges. -/
theorem count_keys (app : String) (bs : List EventBatch) (key : String) :
    (↑(bs.flatMap fun b => (b.frames.filterMap fun f => f.event.edge?).map fun key =>
        (b.appId, key)) : Multiset (String × String)).count (app, key) =
      ((sentEdges app bs).map keyOf).count key := by
  induction bs with
  | nil => rfl
  | cons b bs ih =>
    rw [List.flatMap_cons, ← Multiset.coe_add, Multiset.count_add, ih, edges_eq_map_keyOf,
      ← Multiset.map_coe, sentEdges, sentEdges, List.filter_cons]
    by_cases happ : b.appId = app
    · rw [if_pos (decide_eq_true happ), List.flatMap_cons, ← Multiset.coe_add, Multiset.map_add,
        Multiset.count_add, happ,
        Multiset.count_map_eq_count' _ _ (Prod.mk_right_injective app), Multiset.map_coe,
        Multiset.map_coe]
    · rw [if_neg (by simpa using happ), Multiset.count_eq_zero_of_notMem, Nat.zero_add]
      intro hmem
      obtain ⟨key', -, heq⟩ := Multiset.mem_map.1 hmem
      exact happ (congrArg Prod.fst heq)

/-- The rows of an app count the keys of its edges. -/
theorem mem_edgesOf_iff {t : TenantStore} {bs : List EventBatch} (h : EdgesKept t bs)
    {key : String} {n : Int} : (key, n) ∈ t.edgesOf app ↔
      key ∈ (sentEdges app bs).map keyOf ∧ n = ((sentEdges app bs).map keyOf).count key := by
  have hrow : (key, n) ∈ t.edgesOf app ↔ t.edges.get? (app, key) = some n := by
    rw [Table.get?_eq_some_iff, TenantStore.edgesOf, List.mem_insertionSort]
    constructor
    · intro hmem
      obtain ⟨r, hr, heq⟩ := List.mem_map.1 hmem
      obtain ⟨hr, happ⟩ := List.mem_filter.1 hr
      cases heq
      rw [← of_decide_eq_true happ]
      exact hr
    · intro hmem
      exact List.mem_map.2 ⟨((app, key), n), List.mem_filter.2 ⟨hmem, decide_eq_true rfl⟩, rfl⟩
  have hcount := count_keys app bs key
  rw [hrow, h (app, key), hcount]
  have hsent : (app, key) ∈ (↑(bs.flatMap fun b => (b.frames.filterMap fun f => f.event.edge?).map
      fun key => (b.appId, key)) : Multiset (String × String)) ↔
        key ∈ (sentEdges app bs).map keyOf := by
    rw [← Multiset.count_pos, hcount, Multiset.count_pos]
  split
  · rename_i hmem
    rw [Option.some.injEq]
    exact ⟨fun heq => ⟨hsent.1 hmem, heq.symm⟩, fun heq => heq.2.symm⟩
  · rename_i hmem
    exact ⟨fun heq => (Option.some_ne_none n heq.symm).elim, fun heq => absurd (hsent.2 heq.1) hmem⟩

theorem nodup_edgesOf (t : TenantStore) (app : String) :
    ((t.edgesOf app).map Prod.fst).Nodup := by
  rw [TenantStore.edgesOf, ((List.perm_insertionSort _ _).map Prod.fst).nodup_iff, List.map_map]
  have hkeys : ((t.edges.rows.filter fun r => r.1.1 = app).map Prod.fst).Nodup :=
    t.edges.keys_nodup.sublist (List.filter_sublist.map _)
  refine List.Nodup.of_map (fun key => (app, key)) ?_
  rw [List.map_map]
  refine (List.map_congr_left fun r hr => ?_) ▸ hkeys
  obtain ⟨-, happ⟩ := List.mem_filter.1 hr
  rw [← of_decide_eq_true happ]
  rfl

theorem splitOn_keyOf {e : EdgeTexts} (h : PipeFree e) :
    (keyOf e).toList.splitOn '|' = [e.1.toList, e.2.1.toList, e.2.2.toList] := by
  obtain ⟨hfrom, haction, hto⟩ := h
  rw [keyOf, edgeKey, String.toList_ofList, List.append_assoc, List.cons_append,
    List.splitOn_append_cons_self, List.splitOn_append_cons_self, List.splitOn_eq_singleton hfrom,
    List.splitOn_eq_singleton haction, List.splitOn_eq_singleton hto]
  rfl

theorem graphEdge_keyOf {e : EdgeTexts} (h : PipeFree e) (n : Int) :
    graphEdge (keyOf e, n) = ⟨e.1, e.2.1, e.2.2, n⟩ := by
  simp [graphEdge, splitOn_keyOf h]

/-- What is read back holds no separator. -/
theorem pipeFree_graphEdge (row : String × Int) : PipeFree (graphEdge row).texts := by
  have hpart : ∀ i, '|' ∉ (((row.1.toList.splitOn '|').map String.ofList).getD i "").toList := by
    intro i hmem
    rw [List.getD_eq_getElem?_getD, List.getElem?_map] at hmem
    cases hpiece : (row.1.toList.splitOn '|')[i]? with
    | none => simp [hpiece] at hmem
    | some piece =>
      rw [hpiece, Option.map_some, Option.getD_some, String.toList_ofList] at hmem
      exact not_mem_of_mem_splitOn (List.mem_of_getElem? hpiece) hmem
  exact ⟨hpart 0, hpart 1, hpart 2⟩

theorem keyOf_inj {e e' : EdgeTexts} (h : PipeFree e) (h' : PipeFree e') (hkey : keyOf e = keyOf e') :
    e = e' := by
  have hread := (graphEdge_keyOf h 0).symm.trans (hkey ▸ graphEdge_keyOf h' 0)
  rw [GraphEdge.mk.injEq] at hread
  exact Prod.ext hread.1 (Prod.ext hread.2.1 hread.2.2.1)

/-- After every sequence of deliveries, `get_graph` answers with the edges that were sent
and their numbers when no text of an edge holds a separator. -/
theorem graph_exact_iff (P : Platform) (ds : List Delivery) (app : String) :
    Exact (sentEdges app (acceptedBatches P .empty ds))
        (getGraph (delivered P .empty ds) app).edges ↔
      ∀ e ∈ sentEdges app (acceptedBatches P .empty ds), PipeFree e := by
  have hkept := edgesKept_delivered P ds
  generalize delivered P .empty ds = t at hkept
  generalize acceptedBatches P .empty ds = bs at hkept
  constructor
  · intro hexact e he
    have hmem : (⟨e.1, e.2.1, e.2.2, (sentEdges app bs).count e⟩ : GraphEdge) ∈
        (getGraph t app).edges := (hexact.counted _).2 ⟨he, rfl⟩
    obtain ⟨row, -, hrow⟩ := List.mem_map.1 hmem
    have hfree := pipeFree_graphEdge row
    rw [hrow] at hfree
    exact hfree
  · intro hfree
    have hinj : ∀ e ∈ sentEdges app bs, ∀ e' ∈ sentEdges app bs, keyOf e = keyOf e' → e = e' :=
      fun e he e' he' => keyOf_inj (hfree e he) (hfree e' he')
    have hon : Set.InjOn keyOf {e | e ∈ sentEdges app bs} := fun e he e' he' => hinj e he e' he'
    have hcount : ∀ e ∈ sentEdges app bs,
        ((sentEdges app bs).map keyOf).count (keyOf e) = (sentEdges app bs).count e :=
      fun e he => Multiset.count_map_eq_count keyOf _ hon e he
    refine ⟨?_, fun e => ?_, hinj⟩
    · have hkeys : ((getGraph t app).edges.map GraphEdge.texts).map keyOf =
          (t.edgesOf app).map Prod.fst := by
        rw [getGraph, List.map_map, List.map_map]
        refine List.map_congr_left fun row hrow => ?_
        obtain ⟨e, he, hkey⟩ := Multiset.mem_map.1 ((mem_edgesOf_iff hkept).1 hrow).1
        show keyOf (graphEdge (row.1, row.2)).texts = row.1
        rw [← hkey, graphEdge_keyOf (hfree e he)]
        rfl
      refine List.Nodup.of_map keyOf ?_
      rw [hkeys]
      exact nodup_edgesOf t app
    · rw [getGraph, List.mem_map]
      constructor
      · rintro ⟨⟨key, n⟩, hrow, rfl⟩
        obtain ⟨hkey, hn⟩ := (mem_edgesOf_iff hkept).1 hrow
        obtain ⟨e, he, rfl⟩ := Multiset.mem_map.1 hkey
        rw [graphEdge_keyOf (hfree e he)]
        exact ⟨he, hn.trans (congrArg Nat.cast (hcount e he))⟩
      · rintro ⟨he, hn⟩
        refine ⟨(keyOf e.texts, e.count), (mem_edgesOf_iff hkept).2
          ⟨Multiset.mem_map_of_mem _ he, by rw [hn, hcount _ he]⟩, ?_⟩
        rw [graphEdge_keyOf (hfree _ he)]
        rfl

/-- A delivery of two edges with one key between them. -/
def twoPaths : Delivery :=
  .post { batchId := "batch-1", appId := "shop",
          frames := [{ runId := "run-1", sequence := 1,
                       event := .graphEdge "cart" "tap|pay" "done" },
                     { runId := "run-1", sequence := 2,
                       event := .graphEdge "cart|tap" "pay" "done" }] } 0 none 0 0

theorem graph_exact_iff_home :
    PipeFree ("home", "tap", "cart") ∧
      Exact (sentEdges "shop" (acceptedBatches oneBucket .empty
          [.post (oneEdge "home" "tap" "cart") 0 none 0 0]))
        (getGraph (delivered oneBucket .empty [.post (oneEdge "home" "tap" "cart") 0 none 0 0])
          "shop").edges := by
  have hfree : PipeFree ("home", "tap", "cart") := ⟨by decide, by decide, by decide⟩
  refine ⟨hfree, (graph_exact_iff oneBucket _ "shop").2 fun e he => ?_⟩
  have hsent : sentEdges "shop" (acceptedBatches oneBucket .empty
      [.post (oneEdge "home" "tap" "cart") 0 none 0 0]) = {("home", "tap", "cart")} := by decide
  rw [hsent, Multiset.mem_singleton] at he
  exact he ▸ hfree

/-- The two edges are accepted, and read back as one that was not sent. -/
theorem two_paths_share_a_key :
    (∀ batch now fault errors outbox, twoPaths = .post batch now fault errors outbox →
        batch.validate oneHash = .ok ()) ∧
      (getGraph (delivered oneBucket .empty [twoPaths]) "shop").edges =
        [⟨"cart", "tap", "pay", 2⟩] ∧
      ¬ ∀ ds app, Exact (sentEdges app (acceptedBatches oneBucket .empty ds))
        (getGraph (delivered oneBucket .empty ds) app).edges := by
  have hread : (getGraph (delivered oneBucket .empty [twoPaths]) "shop").edges =
      [⟨"cart", "tap", "pay", 2⟩] := by decide
  refine ⟨?_, hread, fun hexact => ?_⟩
  · rintro batch now fault errors outbox hpost
    cases hpost
    decide
  · have hcounted := (hexact [twoPaths] "shop").counted ⟨"cart", "tap", "pay", 2⟩
    rw [hread] at hcounted
    exact absurd (hcounted.1 (List.mem_singleton.2 rfl)).1 (by decide)

end Usage

/-! ## The evidence graphs -/

/-- The parents of a stored node are stored nodes of its app, and so are the roots. -/
structure Closed (t : TenantStore) : Prop where
  parents : ∀ app id n, t.artifactNodes.get? (app, id) = some n →
    ∀ parent ∈ n.parents, t.artifactNodes.has (app, parent) = true
  roots : ∀ app run root, t.artifactRoots.has (app, run, root) = true →
    t.artifactNodes.has (app, root) = true

/-- What is stored of the graphs is closed, and comes from accepted batches. -/
structure Evident (A : Artifacts) (t : TenantStore) (bs : List EventBatch) : Prop where
  closed : Closed t
  valid : ∀ b ∈ bs, b.Accepted A
  nodes : ∀ app id n, t.artifactNodes.get? (app, id) = some n →
    ∃ b ∈ bs, b.appId = app ∧ ∃ g ∈ b.evidence, ∃ m ∈ g.nodes, m.id = id ∧ n = m.stored
  roots : ∀ app run root, t.artifactRoots.has (app, run, root) = true →
    ∃ b ∈ bs, b.appId = app ∧ ∃ g ∈ b.evidence, g.runId = run ∧ g.root = root

/-- No two nodes of the batches have one hash and differ in what it is the hash of. -/
def CollisionFree (A : Artifacts) (bs : List EventBatch) : Prop :=
  ∀ b ∈ bs, ∀ g ∈ b.evidence, ∀ n ∈ g.nodes, ∀ b' ∈ bs, ∀ g' ∈ b'.evidence, ∀ n' ∈ g'.nodes,
    A.digest (artifactMaterial n.kind n.parents n.payload) =
        A.digest (artifactMaterial n'.kind n'.parents n'.payload) →
      artifactMaterial n.kind n.parents n.payload = artifactMaterial n'.kind n'.parents n'.payload

/-- The roots of a run that are proof ledgers, with their payloads. -/
def TenantStore.ledgerRows (t : TenantStore) (app run : String) : List (String × Json) :=
  (t.artifactRoots.rows.filter fun r => r.1.1 = app && r.1.2.1 = run).filterMap fun r =>
    ((t.artifactNodes.get? (app, r.1.2.2)).filter fun n => n.kind = "proof-ledger").map fun n =>
      (r.1.2.2, n.payload)

/-- Why a stored ledger is not read. -/
inductive LedgerError where
  | payload
  | refused (reason : ReasonCode)
deriving DecidableEq, Repr

/-- `TenantStore::proof_ledger`, for the `created_at` of every root. -/
def TenantStore.proofLedger (createdAt : String × String × String → Micros) (t : TenantStore)
    (app run : String) : Except LedgerError (Option (String × ProofLedger)) :=
  let rows := (t.ledgerRows app run).insertionSort fun a b =>
    createdAt (app, run, b.1) < createdAt (app, run, a.1) ∨
      createdAt (app, run, a.1) = createdAt (app, run, b.1) ∧ a.1 ≤ b.1
  match rows with
  | [] => .ok none
  | (root, payload) :: _ =>
    match ProofLedger.fromValue payload with
    | none => .error .payload
    | some ledger =>
      match ledger.validate with
      | .ok () => .ok (some (root, ledger))
      | .error reason => .error (.refused reason)

/-- The condition that a blocker names does not hold of the ledger. -/
def Fails (l : ProofLedger) : PromotionBlocker → Prop
  | .missingAuthority => l.authority = []
  | .noViolation => l.evaluation = .satisfied
  | .evaluationAbstained => l.evaluation = .abstain
  | .replayNotReproduced => l.confirmation ≠ .reproduced
  | .replayIdentityMismatch => l.replayIdentityMatched = false
  | .minimizationNotPreserved => l.minimization ≠ .preserved

/-- The promotion of a ledger is what its stages are worth. -/
structure Earned (l : ProofLedger) : Prop where
  confirmed : l.promotion = .confirmed ↔
    l.authority ≠ [] ∧ l.evaluation = .violation ∧ l.confirmation = .reproduced ∧
      l.replayIdentityMatched = true ∧ l.minimization = .preserved
  blockers : ∀ blocker, blocker ∈ l.blockers ↔ Fails l blocker

/-- The ledger is the payload of a root that an accepted batch has for the app and the run. -/
def SentFor (bs : List EventBatch) (app run root : String) (l : ProofLedger) : Prop :=
  ∃ b ∈ bs, b.appId = app ∧ ∃ g ∈ b.evidence, g.runId = run ∧ g.root = root ∧
    ∃ n ∈ g.nodes, n.id = root ∧ n.kind = .proofLedger ∧ ProofLedger.fromValue n.payload = some l

section Evidence

variable {P : Platform} {A : Artifacts} {t u : TenantStore} {bs : List EventBatch} {b : EventBatch}

theorem get?_insertNodes {app : String} {nodes : List ReproitCloud.ArtifactNode}
    {ns : Table (String × String) ReproitCloud.ArtifactNode} {key : String × String}
    {n : ReproitCloud.ArtifactNode}
    (h : (nodes.foldl (fun ns n => ns.insertIgnore (app, n.id) n) ns).get? key = some n) :
    ns.get? key = some n ∨ n ∈ nodes ∧ key = (app, n.id) := by
  induction nodes generalizing ns with
  | nil => exact .inl h
  | cons m nodes ih =>
    rcases ih h with hhead | ⟨hmem, hkey⟩
    · rw [Table.get?_insertIgnore] at hhead
      split at hhead
      · rename_i hkey
        cases hold : ns.get? (app, m.id) with
        | some old =>
          rw [hold, Option.getD_some] at hhead
          exact .inl (hkey ▸ hold.trans hhead)
        | none =>
          rw [hold, Option.getD_none, Option.some.injEq] at hhead
          subst hhead
          exact .inr ⟨List.mem_cons_self, hkey⟩
      · exact .inl hhead
    · exact .inr ⟨List.mem_cons_of_mem _ hmem, hkey⟩

/-- The nodes of a batch, as they are stored. -/
theorem mem_nodes_toIngest {n : ReproitCloud.ArtifactNode} :
    n ∈ b.toIngest.evidence.flatMap ReproitCloud.EvidenceGraph.nodes ↔
      ∃ g ∈ b.evidence, ∃ m ∈ g.nodes, n = m.stored := by
  constructor
  · intro hn
    obtain ⟨_, hstored, hn⟩ := List.mem_flatMap.1 hn
    obtain ⟨g, hg, rfl⟩ := List.mem_map.1 hstored
    obtain ⟨m, hm, rfl⟩ := List.mem_map.1 hn
    exact ⟨g, hg, m, hm, rfl⟩
  · rintro ⟨g, hg, m, hm, rfl⟩
    exact List.mem_flatMap.2 ⟨g.stored, List.mem_map_of_mem hg, List.mem_map_of_mem hm⟩

theorem evident_applied (hvalid : b.validate A = .ok ()) (happlied : Applied b.toIngest t u)
    (h : Evident A t bs) : Evident A u (bs ++ [b]) := by
  have haccepted := EventBatch.validate_ok hvalid
  have hkept : ∀ {key}, t.artifactNodes.has key = true → u.artifactNodes.has key = true := by
    intro key hkey
    rw [happlied.nodes]
    exact has_insertNodes.2 (.inl hkey)
  have hnode : ∀ {key n}, u.artifactNodes.get? key = some n →
      t.artifactNodes.get? key = some n ∨
        ∃ g ∈ b.evidence, ∃ m ∈ g.nodes, n = m.stored ∧ key = (b.appId, m.id) := by
    intro key n hkey
    rw [happlied.nodes] at hkey
    rcases get?_insertNodes hkey with hold | ⟨hmem, hkey⟩
    · exact .inl hold
    · obtain ⟨g, hg, m, hm, rfl⟩ := mem_nodes_toIngest.1 hmem
      exact .inr ⟨g, hg, m, hm, rfl, hkey⟩
  refine ⟨⟨fun app id n hn parent hparent => ?_, fun app run root hroot => ?_⟩, ?_,
    fun app id n hn => ?_, fun app run root hroot => ?_⟩
  · rcases hnode hn with hold | ⟨g, hg, m, hm, rfl, hkey⟩
    · exact hkept (h.closed.parents app id n hold parent hparent)
    · -- The parent is in the graph of the node, and the whole graph is stored.
      cases hkey
      obtain ⟨-, -, hclosed, -, -⟩ := EvidenceGraph.validate_ok (haccepted.evidence g hg)
      obtain ⟨p, hp, rfl⟩ := List.mem_map.1 ((hclosed m hm).2 parent hparent)
      rw [happlied.nodes]
      exact has_insertNodes.2 (.inr ⟨p.stored, mem_nodes_toIngest.2 ⟨g, hg, p, hp, rfl⟩, rfl⟩)
  · rcases happlied.roots app run root hroot with hold | ⟨-, -, hstored⟩
    · exact hkept (h.closed.roots app run root hold)
    · exact hstored
  · intro b' hb'
    rcases List.mem_append.1 hb' with hb' | hb'
    · exact h.valid b' hb'
    · rw [List.mem_singleton.1 hb']
      exact haccepted
  · rcases hnode hn with hold | ⟨g, hg, m, hm, rfl, hkey⟩
    · obtain ⟨b', hb', hrest⟩ := h.nodes app id n hold
      exact ⟨b', List.mem_append_left _ hb', hrest⟩
    · cases hkey
      exact ⟨b, List.mem_append_right _ (List.mem_singleton.2 rfl), rfl, g, hg, m, hm, rfl, rfl⟩
  · rcases happlied.roots app run root hroot with hold | ⟨happ, ⟨_, hstored, hrun, hroot⟩, -⟩
    · obtain ⟨b', hb', hrest⟩ := h.roots app run root hold
      exact ⟨b', List.mem_append_left _ hb', hrest⟩
    · obtain ⟨g, hg, rfl⟩ := List.mem_map.1 hstored
      exact ⟨b, List.mem_append_right _ (List.mem_singleton.2 rfl), happ.symm, g, hg, hrun, hroot⟩

theorem evident_delivered (P : Platform) (ds : List Delivery)
    (hposted : ∀ batch now fault errors outbox,
      .post batch now fault errors outbox ∈ ds → batch.validate A = .ok ()) :
    Evident A (delivered P .empty ds) (acceptedBatches P .empty ds) := by
  have hstart : Evident A .empty [] := by
    refine ⟨⟨?_, ?_⟩, ?_, ?_, ?_⟩
    · intro app id n h
      cases h
    · intro app run root h
      cases h
    · intro b h
      cases h
    · intro app id n h
      cases h
    · intro app run root h
      cases h
  have hsame : ∀ {t u bs}, SameGraphs t u → Evident A t bs → Evident A u bs := by
    intro t u bs hsame h
    refine ⟨⟨?_, ?_⟩, h.valid, ?_, ?_⟩
    · rw [hsame.nodes]
      exact h.closed.parents
    · rw [hsame.nodes, hsame.roots]
      exact h.closed.roots
    · rw [hsame.nodes]
      exact h.nodes
    · rw [hsame.roots]
      exact h.roots
  exact delivered_invariant (P := P) (Evident A) (fun b => b.validate A = .ok ()) hsame
    evident_applied hstart ds hposted

/-- Nodes with one id are the same, when no hashes collide. -/
theorem CollisionFree.same {b' : EventBatch} {g g' : Protocol.EvidenceGraph}
    {n n' : Protocol.ArtifactNode} (h : CollisionFree A bs) (hb : b ∈ bs) (hg : g ∈ b.evidence)
    (hn : n ∈ g.nodes) (hb' : b' ∈ bs) (hg' : g' ∈ b'.evidence) (hn' : n' ∈ g'.nodes)
    (hvalid : n.validate A = .ok ()) (hvalid' : n'.validate A = .ok ()) (hid : n.id = n'.id) :
    n.kind.asStr = n'.kind.asStr ∧ n.payload = n'.payload := by
  obtain ⟨-, -, hhash⟩ := artifactId_ok (ArtifactNode.validate_ok hvalid).1
  obtain ⟨-, -, hhash'⟩ := artifactId_ok (ArtifactNode.validate_ok hvalid').1
  rw [hid, hhash'] at hhash
  have hdigest := List.append_cancel_left (String.ofList_injective hhash)
  have hmaterial := h b hb g hg n hn b' hb' g' hg' n' hn' (String.toList_inj.1 hdigest.symm)
  simp only [artifactMaterial, Json.array.injEq, List.cons.injEq, Json.string.injEq] at hmaterial
  exact ⟨hmaterial.1, hmaterial.2.2.1⟩

/-- A ledger that is read is the payload of a stored root of the run. -/
theorem proofLedger_ok {createdAt : String × String × String → Micros} {app run root : String}
    {l : ProofLedger} (h : t.proofLedger createdAt app run = .ok (some (root, l))) :
    l.validate = .ok () ∧ t.artifactRoots.has (app, run, root) = true ∧
      ∃ n, t.artifactNodes.get? (app, root) = some n ∧ n.kind = "proof-ledger" ∧
        ProofLedger.fromValue n.payload = some l := by
  simp only [TenantStore.proofLedger] at h
  split at h
  · cases h
  rename_i row payload rest hrows
  split at h
  · cases h
  rename_i ledger hledger
  split at h
  · rename_i hvalid
    cases h
    have hmem : (root, payload) ∈ (root, payload) :: rest := List.mem_cons_self
    rw [← hrows, List.mem_insertionSort] at hmem
    obtain ⟨⟨⟨app', run', root'⟩, _⟩, hmem, hnode⟩ := List.mem_filterMap.1 hmem
    obtain ⟨hrow, hkey⟩ := List.mem_filter.1 hmem
    simp only [Bool.and_eq_true, decide_eq_true_eq] at hkey
    obtain ⟨n, hn, hpair⟩ := Option.map_eq_some_iff.1 hnode
    obtain ⟨hn, hkind⟩ := Option.filter_eq_some_iff.1 hn
    cases hpair
    obtain ⟨rfl, rfl⟩ := hkey
    have hrow := Table.get?_eq_some_iff.2 hrow
    refine ⟨hvalid, ?_, n, hn, of_decide_eq_true hkind, hledger⟩
    rw [Table.has, hrow]
    rfl
  · cases h

theorem earned_of_validate {l : ProofLedger} (h : l.validate = .ok ()) : Earned l := by
  have hderived := ProofLedger.validate_ok h
  have hpromotion := congrArg Prod.fst hderived
  have hblockers := congrArg Prod.snd hderived
  refine ⟨?_, fun blocker => ?_⟩
  · exact (Eq.congr_left hpromotion).trans derivePromotion_confirmed_iff
  · show blocker ∈ l.blockers ↔ _
    rw [show l.blockers = _ from hblockers, mem_derivePromotion]
    cases blocker <;> rfl

/-- After every sequence of deliveries what is stored is closed, and a ledger that is read was
sent for the app and the run and has earned its promotion. -/
theorem evidence_closed (A : Artifacts) (P : Platform) (ds : List Delivery)
    (hposted : ∀ batch now fault errors outbox,
      .post batch now fault errors outbox ∈ ds → batch.validate A = .ok ())
    (hfree : CollisionFree A (acceptedBatches P .empty ds)) :
    Closed (delivered P .empty ds) ∧
      ∀ createdAt app run root l,
        (delivered P .empty ds).proofLedger createdAt app run = .ok (some (root, l)) →
          SentFor (acceptedBatches P .empty ds) app run root l ∧ Earned l := by
  have hevident := evident_delivered P ds hposted
  refine ⟨hevident.closed, fun createdAt app run root l hread => ?_⟩
  obtain ⟨hvalid, hroot, n, hn, hkind, hledger⟩ := proofLedger_ok hread
  refine ⟨?_, earned_of_validate hvalid⟩
  obtain ⟨b, hb, happ, g, hg, hrun, hgroot⟩ := hevident.roots app run root hroot
  obtain ⟨b', hb', -, g', hg', m', hm', hid', rfl⟩ := hevident.nodes app root n hn
  obtain ⟨-, -, hclosed, -, hin⟩ := EvidenceGraph.validate_ok ((hevident.valid b hb).evidence g hg)
  obtain ⟨-, -, hclosed', -, -⟩ :=
    EvidenceGraph.validate_ok ((hevident.valid b' hb').evidence g' hg')
  obtain ⟨m, hm, hid⟩ := List.mem_map.1 hin
  have hid : m.id = root := hid.trans hgroot
  -- The root that was sent for the run and the node that is stored under its id are the same.
  obtain ⟨hkinds, hpayload⟩ := hfree.same hb hg hm hb' hg' hm' (hclosed m hm).1
    (hclosed' m' hm').1 (hid.trans hid'.symm)
  have hsame : m.kind = .proofLedger := by
    have hname : m.kind.asStr = "proof-ledger" := hkinds.trans hkind
    cases hm : m.kind <;> rw [hm] at hname <;> first | rfl | exact absurd hname (by decide)
  exact ⟨b, hb, happ, g, hg, hrun, hgroot, m, hm, hid, hsame, by rw [hpayload]; exact hledger⟩

/-- A ledger of a finding that was reproduced. -/
def reproducedLedger : ProofLedger where
  findingIdentities := ["finding-1"]
  authority := [.authoredContract]
  evaluation := .violation
  evaluationReasons := []
  confirmation := .reproduced
  replayIdentityMatched := true
  minimization := .preserved
  promotion := .confirmed
  blockers := []

/-- A batch whose one graph is the ledger. -/
def ledgerBatch : EventBatch where
  batchId := "batch-1"
  appId := "shop"
  frames := []
  evidence :=
    let id := String.ofList ("sha256:".toList ++ List.replicate 64 '0')
    [{ runId := "run-1", root := id,
       nodes := [{ id := id, kind := .proofLedger, parents := [],
                   payload := .object
                    [("findingIdentities", .array [.string "finding-1"]),
                      ("authority", .array [.string "authored-contract"]),
                      ("evaluation", .string "violation"), ("evaluationReasons", .array []),
                      ("confirmation", .string "reproduced"), ("replayIdentityMatched", .bool true),
                      ("minimization", .string "preserved"), ("promotion", .string "confirmed"),
                      ("blockers", .array [])] }] }]

set_option maxRecDepth 4000 in
theorem evidence_closed_ledger :
    ledgerBatch.validate oneHash = .ok () ∧
      Closed (delivered oneBucket .empty
        [.post ledgerBatch 0 none 0 0, .post ledgerBatch 1 none 0 0]) ∧
      ∃ root, (delivered oneBucket .empty [.post ledgerBatch 0 none 0 0,
          .post ledgerBatch 1 none 0 0]).proofLedger (fun _ => 0) "shop" "run-1" =
            .ok (some (root, reproducedLedger)) ∧
        SentFor [ledgerBatch] "shop" "run-1" root reproducedLedger ∧ Earned reproducedLedger := by
  have hvalid : ledgerBatch.validate oneHash = .ok () := by decide +kernel
  have hposted : ∀ batch now fault errors outbox, .post batch now fault errors outbox ∈
      [Delivery.post ledgerBatch 0 none 0 0, .post ledgerBatch 1 none 0 0] →
        batch.validate oneHash = .ok () := by
    intro batch now fault errors outbox hin
    rcases List.mem_cons.1 hin with hin | hin
    · cases hin
      exact hvalid
    · cases List.mem_singleton.1 hin
      exact hvalid
  have haccepted : acceptedBatches oneBucket .empty
      [.post ledgerBatch 0 none 0 0, .post ledgerBatch 1 none 0 0] = [ledgerBatch] := by rfl
  have hfree : CollisionFree oneHash (acceptedBatches oneBucket .empty
      [.post ledgerBatch 0 none 0 0, .post ledgerBatch 1 none 0 0]) := by
    rw [haccepted]
    intro b hb g hg n hn b' hb' g' hg' n' hn' _
    obtain rfl := List.mem_singleton.1 hb
    obtain rfl := List.mem_singleton.1 hb'
    obtain rfl := List.mem_singleton.1 hg
    obtain rfl := List.mem_singleton.1 hg'
    obtain rfl := List.mem_singleton.1 hn
    obtain rfl := List.mem_singleton.1 hn'
    rfl
  have hread : (delivered oneBucket .empty [.post ledgerBatch 0 none 0 0,
      .post ledgerBatch 1 none 0 0]).proofLedger (fun _ => 0) "shop" "run-1" =
        .ok (some (String.ofList ("sha256:".toList ++ List.replicate 64 '0'), reproducedLedger)) := by
    decide
  obtain ⟨hclosed, hledgers⟩ := evidence_closed oneHash oneBucket _ hposted hfree
  exact ⟨hvalid, hclosed, _, hread, haccepted ▸ hledgers _ _ _ _ _ hread⟩

end Evidence

end ReproitCloud
