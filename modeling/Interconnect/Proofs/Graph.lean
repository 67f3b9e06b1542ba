import Interconnect.Proofs.Checked
import Interconnect.Topology.Graph
import Mathlib.Data.List.Basic

/-! # Graphs built step by step

    Nodes and edges have 32-bit indices, and the greatest index is kept as a mark for
    none. A graph is therefore built by steps that can fail: a node or an edge needs an
    index that is left, and an edge needs both of its ends. Looking up a neighbour can
    fail, too, where its node does not exist.

    Main statements: the steps that build the graph of a topology succeed, with
    `Topology.graph` as their result (`Topology.graph?_eq_some`), and so do the look-ups
    of its neighbours (`Graph.neighbors?_eq_some`), if the topology is not too large and
    its edges join routers that it has. It is just the size that a synthesis looks at
    before it lets a topology pass (`Topology.graph?_eq_some_iff`).
-/

namespace Interconnect

namespace Graph

variable {g : Graph} {e : Edge}

/-! ## Steps -/

/-- One more node, if an index is left for it. -/
def addNode? (g : Graph) (rank : Nat) : Option Graph :=
  if g.nodes.length < room then some { g with nodes := g.nodes ++ [rank] } else none

/-- One more edge, if an index is left for it and both of its ends are nodes. -/
def addEdge? (g : Graph) (e : Edge) : Option Graph :=
  if g.edges.length < room ∧ e.source < g.nodes.length ∧ e.target < g.nodes.length then
    some { g with edges := g.edges ++ [e] }
  else none

/-- The indices of the nodes adjacent to that of a rank, in the order of its neighbours. -/
def adjacent (g : Graph) (rank : Nat) : List Nat :=
  let node := index rank
  let newest := g.edges.reverse
  (newest.filter fun e => e.source = node).map (·.target) ++
    (newest.filter fun e => e.target = node ∧ e.source ≠ node).map (·.source)

/-- The routers adjacent to the node of a rank, if all of their nodes exist. -/
def neighbors? (g : Graph) (rank : Nat) : Option (List Nat) :=
  (g.adjacent rank).mapM fun n => g.nodes[n]?

theorem neighbors_eq (g : Graph) (rank : Nat) :
    g.neighbors rank = (g.adjacent rank).filterMap fun n => g.nodes[n]? :=
  rfl

/-! ## Runs -/

/-- Nodes are added one after the other as long as there are indices. -/
theorem foldlM_addNode? {ranks : List Nat} (h : g.nodes.length + ranks.length ≤ room) :
    ranks.foldlM addNode? g = some { g with nodes := g.nodes ++ ranks } := by
  induction ranks generalizing g with
  | nil => simp
  | cons rank ranks ih =>
    rw [List.length_cons] at h
    rw [List.foldlM_cons, addNode?, if_pos (by omega), Option.bind_eq_bind, Option.bind_some, ih,
      List.append_assoc, List.singleton_append]
    rw [List.length_append, List.length_singleton]
    omega

/-- Edges between nodes are added one after the other as long as there are indices. -/
theorem foldlM_addEdge? {edges : List Edge} (h : g.edges.length + edges.length ≤ room)
    (hends : ∀ e ∈ edges, e.source < g.nodes.length ∧ e.target < g.nodes.length) :
    edges.foldlM addEdge? g = some { g with edges := g.edges ++ edges } := by
  induction edges generalizing g with
  | nil => simp
  | cons e edges ih =>
    rw [List.length_cons] at h
    have hfirst := hends e List.mem_cons_self
    rw [List.foldlM_cons, addEdge?, if_pos ⟨by omega, hfirst⟩, Option.bind_eq_bind,
      Option.bind_some, ih, List.append_assoc, List.singleton_append]
    · rw [List.length_append, List.length_singleton]
      omega
    · exact fun e' he' => hends e' (List.mem_cons_of_mem e he')

/-- Nodes are only added as long as there are indices. -/
theorem foldlM_addNode?_eq_none {ranks : List Nat} (hroom : g.nodes.length ≤ room)
    (h : room < g.nodes.length + ranks.length) : ranks.foldlM addNode? g = none := by
  induction ranks generalizing g with
  | nil => exact absurd h (Nat.not_lt.mpr hroom)
  | cons rank ranks ih =>
    rw [List.length_cons] at h
    rw [List.foldlM_cons, addNode?]
    by_cases hleft : g.nodes.length < room
    · rw [if_pos hleft, Option.bind_eq_bind, Option.bind_some]
      apply ih
      · rw [List.length_append, List.length_singleton]
        exact hleft
      · rw [List.length_append, List.length_singleton]
        omega
    · rw [if_neg hleft]
      rfl

theorem foldlM_addEdge?_eq_none {edges : List Edge} (hroom : g.edges.length ≤ room)
    (h : room < g.edges.length + edges.length) : edges.foldlM addEdge? g = none := by
  induction edges generalizing g with
  | nil => exact absurd h (Nat.not_lt.mpr hroom)
  | cons e edges ih =>
    rw [List.length_cons] at h
    rw [List.foldlM_cons, addEdge?]
    by_cases hleft : g.edges.length < room ∧ e.source < g.nodes.length ∧ e.target < g.nodes.length
    · rw [if_pos hleft, Option.bind_eq_bind, Option.bind_some]
      apply ih
      · rw [List.length_append, List.length_singleton]
        exact hleft.1
      · rw [List.length_append, List.length_singleton]
        omega
    · rw [if_neg hleft]
      rfl

/-- A rank that has an index is its own index. -/
theorem index_of_lt {rank : Nat} (h : rank < room) : index rank = rank :=
  Nat.mod_eq_of_lt (Nat.lt_trans h (by decide))

/-! ## Look-ups -/

/-- Look-ups that all find something lose nothing. -/
theorem mapM_getElem? {α : Type} {xs : List α} {ns : List Nat} (h : ∀ n ∈ ns, n < xs.length) :
    ns.mapM (fun n => xs[n]?) = some (ns.filterMap fun n => xs[n]?) := by
  induction ns with
  | nil => rfl
  | cons n ns ih =>
    have hn : xs[n]? = some _ := List.getElem?_eq_getElem (h n List.mem_cons_self)
    rw [List.mapM_cons, hn, List.filterMap_cons_some hn,
      ih fun m hm => h m (List.mem_cons_of_mem n hm)]
    rfl

/-- Adjacent nodes are ends of edges. -/
theorem lt_of_mem_adjacent (hends : ∀ e ∈ g.edges, e.source < g.nodes.length ∧ e.target < g.nodes.length)
    {rank n : Nat} (h : n ∈ g.adjacent rank) : n < g.nodes.length := by
  rcases List.mem_append.mp h with h | h
  · obtain ⟨e, he, rfl⟩ := List.mem_map.mp h
    exact (hends e (List.mem_reverse.mp (List.mem_filter.mp he).1)).2
  · obtain ⟨e, he, rfl⟩ := List.mem_map.mp h
    exact (hends e (List.mem_reverse.mp (List.mem_filter.mp he).1)).1

theorem neighbors?_eq_some
    (hends : ∀ e ∈ g.edges, e.source < g.nodes.length ∧ e.target < g.nodes.length) (rank : Nat) :
    g.neighbors? rank = some (g.neighbors rank) := by
  rw [neighbors?, neighbors_eq]
  exact mapM_getElem? fun n hn => lt_of_mem_adjacent hends hn

end Graph

/-! ## The graph of a topology -/

namespace Topology

/-- The graph of a topology, built node by node and then edge by edge. -/
def graph? (t : Topology) : Option Graph := do
  let nodes ← (t.routers.map (·.rank)).foldlM Graph.addNode? ⟨[], []⟩
  (t.edges.map fun l => ⟨Graph.index l.source, Graph.index l.target, l.id⟩).foldlM Graph.addEdge?
    nodes

variable {t : Topology}

/-- The ends of the graph's edges are nodes if the routers of the edges exist. -/
theorem graph_ends (hrouters : t.routers.length ≤ Graph.room)
    (hends : ∀ l ∈ t.edges, l.source < t.routers.length ∧ l.target < t.routers.length) :
    ∀ e ∈ t.graph.edges, e.source < t.graph.nodes.length ∧ e.target < t.graph.nodes.length := by
  intro e he
  obtain ⟨l, hl, rfl⟩ := List.mem_map.mp he
  obtain ⟨hsource, htarget⟩ := hends l hl
  simp only [graph, List.length_map]
  rw [Graph.index_of_lt (by omega), Graph.index_of_lt (by omega)]
  exact ⟨hsource, htarget⟩

theorem graph?_eq_some (hrouters : t.routers.length ≤ Graph.room)
    (hedges : t.edges.length ≤ Graph.room)
    (hends : ∀ l ∈ t.edges, l.source < t.routers.length ∧ l.target < t.routers.length) :
    t.graph? = some t.graph := by
  have hnodes : (t.routers.map (·.rank)).foldlM Graph.addNode? ⟨[], []⟩ =
      some ⟨t.routers.map (·.rank), []⟩ :=
    Graph.foldlM_addNode? (by simpa using hrouters)
  rw [graph?, hnodes, Option.bind_eq_bind, Option.bind_some]
  exact Graph.foldlM_addEdge? (by simpa using hedges) (graph_ends hrouters hends)

theorem indexed_eq_ok_iff {t' : Topology} :
    t.indexed = .ok t' ↔
      t.routers.length ≤ Graph.room ∧ t.edges.length ≤ Graph.room ∧ t = t' := by
  simp only [indexed, ite_error_eq_ok, Nat.not_lt, Except.ok.injEq]

/-- The graph of a topology can be built exactly if there is an index for everything. -/
theorem graph?_eq_some_iff
    (hends : ∀ l ∈ t.edges, l.source < t.routers.length ∧ l.target < t.routers.length) :
    t.graph? = some t.graph ↔ t.indexed = .ok t := by
  rw [indexed_eq_ok_iff]
  constructor
  · intro h
    obtain ⟨nodes, hnodes, hedges⟩ := Option.bind_eq_some_iff.mp h
    have hrouters : t.routers.length ≤ Graph.room := by
      by_contra hmany
      rw [Graph.foldlM_addNode?_eq_none (Nat.zero_le _) (by simpa using hmany)] at hnodes
      cases hnodes
    rw [Graph.foldlM_addNode? (by simpa using hrouters)] at hnodes
    cases hnodes
    refine ⟨hrouters, ?_, rfl⟩
    by_contra hmany
    rw [Graph.foldlM_addEdge?_eq_none (Nat.zero_le _) (by simpa using hmany)] at hedges
    cases hedges
  · rintro ⟨hrouters, hedges, -⟩
    exact graph?_eq_some hrouters hedges hends

end Topology

end Interconnect
