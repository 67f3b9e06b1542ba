import Interconnect.Proofs.Neighbors
import Interconnect.Proofs.Overlay
import Mathlib.Algebra.BigOperators.Group.Finset.Basic

/-! # The graph of a network

    The graph of a topology is built from the forward links alone, and answers by node
    index. A synthesized network has an index for every router and every edge, and its graph
    says what the links say.

    * The neighbours of a router are where the links that leave it lead to, each of them
      once, and there are as many of them as links.
    * Routers are neighbours of each other, or neither is one of the other.
    * There is one edge for two links, so that the degrees add up to the number of links.

    `synthesize_graphView` is the main statement.
-/

namespace Interconnect

/-- The graph of a topology says what its links say. -/
structure Topology.GraphView (t : Topology) : Prop where
  /-- No step fails in building the graph, -/
  built : t.graph? = some t.graph
  /-- and none in listing the neighbours of a router. -/
  listed : ∀ a < t.routers.length, t.graph.neighbors? a = some (t.graph.neighbors a)
  /-- A router has one node, at its rank. -/
  nodes : t.graph.nodes = List.range t.routers.length
  /-- The neighbours of a router are where its links lead to, each of them once. -/
  neighbors : ∀ a < t.routers.length,
    (t.graph.neighbors a).Nodup ∧ (t.graph.neighbors a).Perm ((t.leaving a).map (·.target))
  degree : ∀ a < t.routers.length, t.graph.degree a = (t.leaving a).length
  symmetric : ∀ a < t.routers.length, ∀ b < t.routers.length,
    (b ∈ t.graph.neighbors a ↔ a ∈ t.graph.neighbors b)
  /-- There is an edge for each pair of links. -/
  edges : 2 * t.graph.edges.length = t.links.length
  degrees : ((List.range t.routers.length).map t.graph.degree).sum = t.links.length

/-! ## Degrees -/

/-- Numbers below a bound are counted once when each number below it is counted. -/
theorem sum_count_range {xs : List Nat} {n : Nat} (h : ∀ x ∈ xs, x < n) :
    ((List.range n).map xs.count).sum = xs.length := by
  have hcard := Multiset.sum_count_eq_card (s := Finset.range n) (m := (xs : Multiset Nat))
    fun x hx => Finset.mem_range.mpr (h x hx)
  simpa only [Finset.sum, Finset.range_val, Multiset.range, Multiset.map_coe, Multiset.sum_coe,
    Multiset.coe_count, Multiset.coe_card] using hcard

namespace Stages

variable {c : Configuration} {endpoints : List Endpoint} {t : Topology}
  {placements : List Placement} {wiring : Wiring} {a b : Nat}

theorem graph_nodes (s : Stages c endpoints t placements wiring) :
    t.graph.nodes = List.range t.routers.length := by
  rw [s.length_routers, ← s.ranks_eq]
  rfl

theorem nodup_neighbors (s : Stages c endpoints t placements wiring)
    (hroom : t.routers.length ≤ Graph.room) (ha : a < t.routers.length) :
    (t.graph.neighbors a).Nodup :=
  (s.neighbors_perm hroom ha).nodup_iff.mpr s.nodup_leaving_targets

theorem degree_eq (s : Stages c endpoints t placements wiring)
    (hroom : t.routers.length ≤ Graph.room) (ha : a < t.routers.length) :
    t.graph.degree a = (t.leaving a).length := by
  rw [Graph.degree, (s.neighbors_perm hroom ha).length_eq, List.length_map]

/-- The wiring joins two routers whichever way round. -/
theorem mem_neighbors_comm (s : Stages c endpoints t placements wiring)
    (hroom : t.routers.length ≤ Graph.room) (ha : a < t.routers.length)
    (hb : b < t.routers.length) :
    b ∈ t.graph.neighbors a ↔ a ∈ t.graph.neighbors b := by
  rw [s.mem_neighbors_iff hroom ha, s.mem_neighbors_iff hroom hb, edgeKey_comm]

/-- Every link leaves one of the routers. -/
theorem sum_degrees (s : Stages c endpoints t placements wiring)
    (hroom : t.routers.length ≤ Graph.room) :
    ((List.range t.routers.length).map t.graph.degree).sum = t.links.length := by
  have hsources : ∀ a ∈ t.links.map (·.source), a < t.routers.length := by
    intro a ha
    obtain ⟨l, hl, rfl⟩ := List.mem_map.mp ha
    exact (s.links_routers hl).2.1
  have hdegree : ∀ a ∈ List.range t.routers.length,
      t.graph.degree a = (t.links.map (·.source)).count a := by
    intro a ha
    rw [s.degree_eq hroom (List.mem_range.mp ha), Topology.leaving, ← List.countP_eq_length_filter,
      List.count, List.countP_map]
    rfl
  rw [List.map_congr_left hdegree, sum_count_range hsources, List.length_map]

end Stages

/-! ## Main statement -/

/-- **The graph of a network** says what the links say. -/
theorem synthesize_graphView {c : Configuration} {endpoints : List Endpoint} {t : Topology}
    (h : synthesize c endpoints = .ok t) : t.GraphView := by
  obtain ⟨placements, wiring, s⟩ := synthesize_stages h
  obtain ⟨hrouters, hedges⟩ := synthesize_room h
  have hends : ∀ l ∈ t.edges, l.source < t.routers.length ∧ l.target < t.routers.length :=
    fun l hl => (s.edges_routers hl).2
  exact {
    built := Topology.graph?_eq_some hrouters hedges hends
    listed := fun a _ => Graph.neighbors?_eq_some (Topology.graph_ends hrouters hends) a
    nodes := s.graph_nodes
    neighbors := fun a ha => ⟨s.nodup_neighbors hrouters ha, s.neighbors_perm hrouters ha⟩
    degree := fun a ha => s.degree_eq hrouters ha
    symmetric := fun a ha b hb => s.mem_neighbors_comm hrouters ha hb
    edges := by rw [Topology.graph, List.length_map, t.length_links]
    degrees := s.sum_degrees hrouters }

theorem synthesize_graphView_fourRing :
    ∃ t, synthesize (.fourRing .segmentOrdinal) (Endpoint.population 4 0 0) = .ok t ∧
      t.GraphView := by
  obtain ⟨t, h⟩ := exists_synthesize_fourRing .segmentOrdinal
  exact ⟨t, h, synthesize_graphView h⟩

end Interconnect
