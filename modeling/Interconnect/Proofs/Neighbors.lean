import Interconnect.Proofs.Graph
import Interconnect.Proofs.WellFormed
import Mathlib.Data.List.Perm.Basic

/-! # The neighbours of a router

    The links that leave a router are the forward links of the edges that it comes first
    in, and the reverses of those that it comes second in. They lead to the routers that
    the graph has as its neighbours (`Stages.neighbors_perm`), and these are the routers
    that the wiring proposes to join with it, each of them once
    (`Stages.leaving_targets_perm`). How many there are is read off such a list of them
    (`Stages.degree`).
-/

namespace Interconnect

/-! ## Links that leave a router -/

namespace Topology

variable {t : Topology} {a : Nat} {l : InternalLink}

/-- The links that leave a router. -/
def leaving (t : Topology) (a : Nat) : List InternalLink :=
  t.links.filter fun l => l.source = a

theorem mem_leaving : l ∈ t.leaving a ↔ l ∈ t.links ∧ l.source = a := by
  simp [leaving]

/-- The links, those of one direction before those of the other. -/
theorem links_perm (t : Topology) :
    t.links.Perm (t.edges ++ t.edges.map InternalLink.reversed) := by
  have hsplit := List.flatMap_append_perm t.edges (fun l => [l]) fun l => [l.reversed]
  rw [List.flatMap_singleton', ← List.map_eq_flatMap] at hsplit
  exact hsplit.symm

theorem leaving_perm (t : Topology) (a : Nat) :
    (t.leaving a).Perm ((t.edges.filter fun l => l.source = a) ++
      (t.edges.filter fun l => l.target = a).map InternalLink.reversed) := by
  have hfilter := t.links_perm.filter fun l => l.source = a
  rw [List.filter_append, List.filter_map] at hfilter
  exact hfilter

/-- The router of a rank has a number of links to other routers, and as many neighbours
    in the graph. -/
structure Degree (t : Topology) (rank d : Nat) : Prop where
  leaving : (t.leaving rank).length = d
  graph : t.graph.degree rank = d

end Topology

/-! ## Neighbours in the graph -/

namespace Stages

variable {c : Configuration} {endpoints : List Endpoint} {t : Topology}
  {placements : List Placement} {wiring : Wiring} {a b : Nat}

/-- The graph has the edges of the topology, if it has indices for their routers. -/
theorem graph_edges (s : Stages c endpoints t placements wiring)
    (hroom : t.routers.length ≤ Graph.room) :
    t.graph.edges = t.edges.map fun l => ⟨l.source, l.target, l.id⟩ := by
  apply List.map_congr_left
  intro l hl
  obtain ⟨-, hsource, htarget⟩ := s.edges_routers hl
  rw [Graph.index_of_lt (Nat.lt_of_lt_of_le hsource hroom),
    Graph.index_of_lt (Nat.lt_of_lt_of_le htarget hroom)]

/-- The node at an index is the router of that rank. -/
theorem graph_node (s : Stages c endpoints t placements wiring) (ha : a < t.routers.length) :
    t.graph.nodes[a]? = some a := by
  rw [s.length_routers] at ha
  show (t.routers.map (·.rank))[a]? = some a
  rw [s.ranks_eq, List.getElem?_range ha]

theorem neighbors_eq_adjacent (s : Stages c endpoints t placements wiring)
    (hroom : t.routers.length ≤ Graph.room) :
    t.graph.neighbors a = t.graph.adjacent a := by
  have hends := Topology.graph_ends hroom fun l hl => (s.edges_routers hl).2
  rw [Graph.neighbors_eq]
  -- every adjacent node is found at its index
  have hnodes : ∀ n ∈ t.graph.adjacent a, t.graph.nodes[n]? = some n := by
    intro n hn
    have hlt := Graph.lt_of_mem_adjacent hends hn
    rw [Topology.graph, List.length_map] at hlt
    exact s.graph_node hlt
  rw [List.filterMap_congr hnodes]
  exact List.filterMap_some

/-- The links that leave a router lead to its neighbours in the graph. -/
theorem neighbors_perm (s : Stages c endpoints t placements wiring)
    (hroom : t.routers.length ≤ Graph.room) (ha : a < t.routers.length) :
    (t.graph.neighbors a).Perm ((t.leaving a).map (·.target)) := by
  have hindex : Graph.index a = a := Graph.index_of_lt (Nat.lt_of_lt_of_le ha hroom)
  have hout : ((t.graph.edges.filter fun e => e.source = a).map (·.target)) =
      (t.edges.filter fun l => l.source = a).map (·.target) := by
    rw [s.graph_edges hroom, List.filter_map, List.map_map]
    rfl
  have hin : ((t.graph.edges.filter fun e => e.target = a ∧ e.source ≠ a).map (·.source)) =
      ((t.edges.filter fun l => l.target = a).map InternalLink.reversed).map (·.target) := by
    rw [s.graph_edges hroom, List.filter_map, List.map_map, List.map_map]
    -- an edge that enters a router does not leave it
    have hother : t.edges.filter (fun l => l.target = a ∧ l.source ≠ a) =
        t.edges.filter fun l => l.target = a := by
      apply List.filter_congr
      intro l hl
      have hne := (s.edges_routers hl).1
      by_cases htarget : l.target = a
      · simp [htarget, htarget ▸ hne]
      · simp [htarget]
    exact congrArg (List.map (·.source)) hother
  -- the graph lists the newest edges first
  rw [s.neighbors_eq_adjacent hroom, Graph.adjacent, hindex, List.filter_reverse,
    List.filter_reverse, List.map_reverse, List.map_reverse, hout, hin]
  refine .trans (.append (List.reverse_perm _) (List.reverse_perm _)) ?_
  rw [← List.map_append]
  exact (t.leaving_perm a).symm.map _

/-! ## Neighbours in the wiring -/

/-- A link leads from one router to another if the wiring joins them, whichever way
    round. -/
theorem exists_link_iff (s : Stages c endpoints t placements wiring) :
    (∃ l ∈ t.links, l.source = a ∧ l.target = b) ↔
      ∃ p ∈ wiring.proposals, p.key = edgeKey a b := by
  rw [← s.exists_edge_iff]
  constructor
  · intro h
    obtain ⟨l, hl, rfl, rfl⟩ := h
    obtain ⟨e, he, rfl | rfl⟩ := Topology.mem_links.mp hl
    · exact ⟨l, he, rfl⟩
    · exact ⟨e, he, edgeKey_comm _ _⟩
  · intro h
    obtain ⟨e, he, hedge⟩ := h
    rcases edgeKey_eq_iff.mp hedge with ⟨hsource, htarget⟩ | ⟨hsource, htarget⟩
    · exact ⟨e, Topology.mem_links.mpr ⟨e, he, .inl rfl⟩, hsource, htarget⟩
    · exact ⟨e.reversed, Topology.mem_links.mpr ⟨e, he, .inr rfl⟩, htarget, hsource⟩

theorem nodup_leaving_targets (s : Stages c endpoints t placements wiring) :
    ((t.leaving a).map (·.target)).Nodup := by
  apply List.Nodup.map_on _ (s.nodup_links.filter _)
  intro l hl m hm htarget
  obtain ⟨hl, hsource⟩ := Topology.mem_leaving.mp hl
  obtain ⟨hm, hsource'⟩ := Topology.mem_leaving.mp hm
  exact s.links_unique hl hm (hsource.trans hsource'.symm) htarget

theorem mem_leaving_targets (s : Stages c endpoints t placements wiring) :
    b ∈ (t.leaving a).map (·.target) ↔ ∃ p ∈ wiring.proposals, p.key = edgeKey a b := by
  rw [← s.exists_link_iff, List.mem_map]
  simp only [Topology.mem_leaving, and_assoc]

/-- The neighbours of a router in the graph are those that the wiring joins with it. -/
theorem mem_neighbors_iff (s : Stages c endpoints t placements wiring)
    (hroom : t.routers.length ≤ Graph.room) (ha : a < t.routers.length) :
    b ∈ t.graph.neighbors a ↔ ∃ p ∈ wiring.proposals, p.key = edgeKey a b := by
  rw [(s.neighbors_perm hroom ha).mem_iff, s.mem_leaving_targets]

/-- The links that leave a router lead to those that the wiring joins with it, to each
    of them once. -/
theorem leaving_targets_perm (s : Stages c endpoints t placements wiring) {others : List Nat}
    (hnodup : others.Nodup)
    (hjoined : ∀ b, b ∈ others ↔ ∃ p ∈ wiring.proposals, p.key = edgeKey a b) :
    ((t.leaving a).map (·.target)).Perm others := by
  apply (List.perm_ext_iff_of_nodup s.nodup_leaving_targets hnodup).mpr
  intro b
  rw [s.mem_leaving_targets, hjoined]

/-- A router has as many links as there are routers that the wiring joins with it. -/
theorem degree (s : Stages c endpoints t placements wiring)
    (hroom : t.routers.length ≤ Graph.room) (ha : a < t.routers.length)
    {others : List Nat} (hnodup : others.Nodup)
    (hjoined : ∀ b, b ∈ others ↔ ∃ p ∈ wiring.proposals, p.key = edgeKey a b) :
    t.Degree a others.length where
  leaving := by
    rw [← List.length_map (·.target), (s.leaving_targets_perm hnodup hjoined).length_eq]
  graph := by
    rw [Graph.degree, ((s.neighbors_perm hroom ha).trans
      (s.leaving_targets_perm hnodup hjoined)).length_eq]

/-- Routers that the wiring joins have one link from the one to the other. -/
theorem countP_between (s : Stages c endpoints t placements wiring)
    (h : ∃ p ∈ wiring.proposals, p.key = edgeKey a b) :
    (t.links.countP fun l => l.source = a ∧ l.target = b) = 1 := by
  have hcount : ((t.leaving a).map (·.target)).count b = 1 :=
    List.count_eq_one_of_mem s.nodup_leaving_targets (s.mem_leaving_targets.mpr h)
  rw [List.count, List.countP_map, Topology.leaving, List.countP_filter] at hcount
  rw [← hcount]
  apply List.countP_congr
  intro l _
  simp [and_comm]

end Stages

end Interconnect
