import Interconnect.Proofs.FlattenedButterfly.Edges
import Interconnect.Proofs.FullyConnected.Edges
import Interconnect.Proofs.HierarchicalRing.Edges
import Interconnect.Proofs.Mesh.Edges
import Interconnect.Proofs.Ring.Edges

/-! # How many edges are asked for

    The number of edges is settled by the family and its grid, before anything is wired.
    It is what decides whether a network has a graph, so it is said of the configuration
    (`Configuration.edges`) and then shown of every network that is put together
    (`Stages.length_edges_eq`).
-/

namespace Interconnect

/-- The number of edges that a family draws on a grid. -/
def Family.edgeCount (family : Family) (g : Grid) : Nat :=
  match family with
  | .mesh => g.rows * (g.cols - 1) + g.cols * (g.rows - 1)
  | .ring => g.rows * g.cols
  | .fullyConnected => (g.rows * g.cols) * (g.rows * g.cols - 1) / 2
  | .flattenedButterfly => g.rows * g.cols.choose 2 + g.cols * g.rows.choose 2
  | .hierarchicalRing => g.rows * (g.cols + 1)

/-- The number of edges that is asked for. -/
def Configuration.edges (c : Configuration) : Nat :=
  c.family.edgeCount c.layout

namespace Stages

variable {c : Configuration} {endpoints : List Endpoint} {t : Topology}
  {placements : List Placement} {wiring : Wiring}

/-- A topology has as many edges as its hops. -/
theorem length_edges_of_hops (s : Stages c endpoints t placements wiring) {hops : List Hop}
    (h : (Proposal.fresh [] wiring.proposals).map t.hop = hops) :
    t.edges.length = hops.length := by
  rw [s.length_edges, ← h, List.length_map]

theorem length_edges_eq_edgeCount (s : Stages c endpoints t placements wiring) :
    t.edges.length = c.family.edgeCount t.grid := by
  cases hfamily : c.family with
  | mesh =>
    rw [s.length_edges_of_hops (s.mesh_hops hfamily), Hop.length_mesh]
    rfl
  | ring =>
    rw [s.length_edges_of_hops (s.ring_hops hfamily), Hop.length_ring, s.length_routers]
    rfl
  | fullyConnected =>
    rw [s.length_edges_of_hops (s.fullyConnected_hops hfamily), Hop.length_complete,
      s.length_routers]
    rfl
  | flattenedButterfly =>
    rw [s.length_edges_of_hops (s.butterfly_hops hfamily), Hop.length_butterfly]
    rfl
  | hierarchicalRing =>
    obtain ⟨halves, central, r, rfl⟩ := s.hierarchicalRings hfamily
    exact r.length_edges s

/-- There are as many edges as are asked for. -/
theorem length_edges_eq (s : Stages c endpoints t placements wiring) :
    t.edges.length = c.edges := by
  rw [s.length_edges_eq_edgeCount, Configuration.edges, Configuration.grid_eq_layout s.grid]

end Stages

/-- No more edges are synthesized than a graph has room for. -/
theorem synthesize_edges_le {c : Configuration} {endpoints : List Endpoint} {t : Topology}
    (h : synthesize c endpoints = .ok t) : c.edges ≤ Graph.room := by
  obtain ⟨placements, wiring, s⟩ := synthesize_stages h
  rw [← s.length_edges_eq]
  exact (synthesize_room h).2

end Interconnect
