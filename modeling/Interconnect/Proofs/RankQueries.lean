import Interconnect.Proofs.Connected
import Interconnect.Proofs.GraphView

/-! # Ranks that no router has

    A router is looked up by its rank, and its neighbours by the node index of the rank,
    which has 32 bits. A rank that no router has is therefore not always without neighbours.

    * Below `2 ^ 32` it is its own index. There is no node, and there are no neighbours.
    * Beyond, it has the neighbours of its remainder. It has none if there is no router of
      that rank, or if that router is the only one: all others have a neighbour, since the
      network is connected.

    `neighbors_without_router` is the main statement.
-/

namespace Interconnect

/-- What the graph answers to a rank that no router has. -/
structure Topology.Unrouted (t : Topology) (rank : Nat) : Prop where
  /-- The graph takes the rank for its index. -/
  wraps : t.graph.neighbors rank = t.graph.neighbors (Graph.index rank)
  /-- A rank that is an index has no neighbours. -/
  small : rank < 2 ^ 32 → t.graph.neighbors rank = [] ∧ t.graph.degree rank = 0
  /-- Any rank has none exactly if its index is the rank of no router, or of the only one. -/
  empty_iff : t.graph.neighbors rank = [] ∧ t.graph.degree rank = 0 ↔
    t.router? (Graph.index rank) = none ∨ t.routers.length = 1

/-! ## Node indices -/

theorem Topology.router?_eq_none_iff {t : Topology} {rank : Nat} :
    t.router? rank = none ↔ t.routers.length ≤ rank :=
  List.getElem?_eq_none_iff

namespace Graph

theorem index_eq_self {rank : Nat} (h : rank < 2 ^ 32) : index rank = rank :=
  Nat.mod_eq_of_lt h

theorem index_index (rank : Nat) : index (index rank) = index rank :=
  Nat.mod_mod rank 4294967296

/-- The graph knows ranks by their indices only. -/
theorem neighbors_index (g : Graph) (rank : Nat) : g.neighbors (index rank) = g.neighbors rank := by
  rw [neighbors, neighbors, index_index]

theorem no_neighbors_iff {g : Graph} {rank : Nat} :
    g.neighbors rank = [] ∧ g.degree rank = 0 ↔ g.neighbors rank = [] := by
  rw [degree, List.length_eq_zero_iff, and_self]

end Graph

namespace Stages

variable {c : Configuration} {endpoints : List Endpoint} {t : Topology}
  {placements : List Placement} {wiring : Wiring} {a : Nat}

/-- An index beyond the routers is that of no node, and no edge ends there. -/
theorem neighbors_eq_nil_of_le (s : Stages c endpoints t placements wiring)
    (hroom : t.routers.length ≤ Graph.room) (ha : t.routers.length ≤ a)
    (hindex : Graph.index a = a) : t.graph.neighbors a = [] := by
  have hends := Topology.graph_ends hroom fun l hl => (s.edges_routers hl).2
  rw [s.graph_nodes, List.length_range] at hends
  rw [s.neighbors_eq_adjacent hroom, Graph.adjacent, hindex, List.append_eq_nil_iff,
    List.map_eq_nil_iff, List.map_eq_nil_iff, List.filter_eq_nil_iff, List.filter_eq_nil_iff]
  constructor
  · intro e he
    have hsource := (hends e (List.mem_reverse.mp he)).1
    simp only [decide_eq_true_eq]
    omega
  · intro e he
    have htarget := (hends e (List.mem_reverse.mp he)).2
    simp only [decide_eq_true_eq]
    omega

/-- A router that is not the only one has a neighbour. -/
theorem neighbors_ne_nil (s : Stages c endpoints t placements wiring)
    (hroom : t.routers.length ≤ Graph.room) (ha : a < t.routers.length)
    (htwo : 1 < t.routers.length) : t.graph.neighbors a ≠ [] := by
  -- a walk to another router begins with a link that leaves this one
  obtain ⟨b, hb, hne⟩ : ∃ b < t.routers.length, a ≠ b := by
    by_cases hzero : a = 0
    · exact ⟨1, htwo, by omega⟩
    · exact ⟨0, by omega, hzero⟩
  rw [s.length_routers] at ha hb
  obtain ⟨walk, hwalk⟩ := s.joined ha hb
  rw [← s.length_routers] at ha
  cases hwalk with
  | stay => exact absurd rfl hne
  | @follow _ _ l rest hl hsource hrest =>
    have hleaving : l.target ∈ (t.leaving a).map (·.target) :=
      List.mem_map_of_mem (Topology.mem_leaving.mpr ⟨hl, hsource⟩)
    exact List.ne_nil_of_mem ((s.neighbors_perm hroom ha).mem_iff.mpr hleaving)

/-- The only router has no neighbours. -/
theorem neighbors_eq_nil_of_single (s : Stages c endpoints t placements wiring)
    (hroom : t.routers.length ≤ Graph.room) (ha : a < t.routers.length)
    (hone : t.routers.length = 1) : t.graph.neighbors a = [] := by
  rw [List.eq_nil_iff_forall_not_mem]
  intro b hb
  obtain ⟨l, hl, htarget⟩ := List.mem_map.mp ((s.neighbors_perm hroom ha).mem_iff.mp hb)
  obtain ⟨hne, hsource, htarget⟩ := s.links_routers (Topology.mem_leaving.mp hl).1
  omega

/-- A rank has neighbours exactly if its index is the rank of one of several routers. -/
theorem neighbors_eq_nil_iff (s : Stages c endpoints t placements wiring)
    (hroom : t.routers.length ≤ Graph.room) (rank : Nat) :
    t.graph.neighbors rank = [] ↔
      t.router? (Graph.index rank) = none ∨ t.routers.length = 1 := by
  rw [← t.graph.neighbors_index, Topology.router?_eq_none_iff]
  constructor
  · intro hnil
    by_contra hrouter
    exact s.neighbors_ne_nil hroom (by omega) (by omega) hnil
  · intro hrouter
    rcases Nat.lt_or_ge (Graph.index rank) t.routers.length with hlt | hge
    · exact s.neighbors_eq_nil_of_single hroom hlt (by omega)
    · exact s.neighbors_eq_nil_of_le hroom hge (Graph.index_index rank)

end Stages

/-! ## Main statement -/

/-- **Ranks that no router has** are without neighbours, unless the graph takes them for
    the rank of a router. -/
theorem neighbors_without_router {c : Configuration} {endpoints : List Endpoint} {t : Topology}
    (h : synthesize c endpoints = .ok t) {rank : Nat} (hnone : t.router? rank = none) :
    t.Unrouted rank := by
  obtain ⟨placements, wiring, s⟩ := synthesize_stages h
  have hroom := (synthesize_room h).1
  have hiff : t.graph.neighbors rank = [] ∧ t.graph.degree rank = 0 ↔
      t.router? (Graph.index rank) = none ∨ t.routers.length = 1 := by
    rw [Graph.no_neighbors_iff, s.neighbors_eq_nil_iff hroom]
  refine { wraps := (t.graph.neighbors_index rank).symm, small := ?_, empty_iff := hiff }
  intro hsmall
  rw [hiff, Graph.index_eq_self hsmall]
  exact .inl hnone

theorem neighbors_without_router_fourRing :
    ∃ t, synthesize (.fourRing .segmentOrdinal) (Endpoint.population 4 0 0) = .ok t ∧
      t.router? 4294967300 = none ∧ t.Unrouted 4294967300 := by
  obtain ⟨t, placements, channel, h, s, -⟩ := exists_fourRing_stages .segmentOrdinal
  have hnone : t.router? 4294967300 = none := by
    rw [Topology.router?_eq_none_iff, s.length_routers_fourRing]
    decide
  exact ⟨t, h, hnone, neighbors_without_router h hnone⟩

/-- In the ring of four, the first rank that is no index is the rank of no router, and has
    the two neighbours of router 0. -/
theorem fourRing_wraps :
    ∃ t, synthesize (.fourRing .segmentOrdinal) (Endpoint.population 4 0 0) = .ok t ∧
      t.router? 4294967296 = none ∧ (t.graph.neighbors 4294967296).Perm [1, 3] ∧
      t.graph.degree 4294967296 = 2 := by
  obtain ⟨t, placements, channel, h, s, -, -, hrouters⟩ := exists_fourRing_stages .segmentOrdinal
  have hroom := (synthesize_room h).1
  have hnone : t.router? 4294967296 = none := by
    rw [Topology.router?_eq_none_iff, s.length_routers_fourRing]
    decide
  have hkeys : channel.keys = [(0, 1), (1, 2), (2, 3), (0, 3)] := by
    rw [Escape.Cycle.keys, Escape.Cycle.edges, hrouters]
    rfl
  have hjoined : ∀ b, b ∈ [1, 3] ↔
      ∃ p ∈ Wiring.ringProposals channel, p.key = edgeKey 0 b := by
    intro b
    rw [Wiring.exists_ringProposals_iff, hkeys]
    rcases Nat.eq_zero_or_pos b with rfl | hpos
    · decide
    · rw [edgeKey_of_lt hpos]
      simp
  have hperm : (t.graph.neighbors 4294967296).Perm [1, 3] := by
    rw [← t.graph.neighbors_index]
    exact (s.neighbors_perm hroom (by rw [s.length_routers_fourRing]; decide)).trans
      (s.leaving_targets_perm (by decide) hjoined)
  exact ⟨t, h, hnone, hperm, hperm.length_eq⟩

end Interconnect
