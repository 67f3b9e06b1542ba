import Interconnect.Proofs.Hops
import Interconnect.Proofs.Neighbors
import Interconnect.Proofs.Wiring.Places
import Interconnect.Proofs.Wiring.RankOrder

/-! # The edges of a mesh

    The cells of a mesh come in the order of their ranks, and each of them brings the
    edges to its right-hand and to its upper neighbour, where it has them. No other cell
    brings one of these edges, so that none is turned down, and those are all edges
    there are: two routers are joined exactly if they are drawn next to each other.
    `mesh_edges` is the main statement.
-/

namespace Interconnect

open Proposal (fresh)

/-! ## What is expected -/

/-- The hops from a cell of a mesh to its neighbours further right and further up. -/
def Hop.meshCell (g : Grid) (row col : Nat) : List Hop :=
  (if col + 1 < g.cols then [along g row col (col + 1)] else []) ++
    (if row + 1 < g.rows then [upward g row (row + 1) col] else [])

/-- The hops of a mesh, cell by cell. -/
def Hop.mesh (g : Grid) : List Hop :=
  g.cells.flatMap fun (row, col) => meshCell g row col

/-- Two routers have positions that differ by one unit along one axis. -/
def Topology.NextTo (t : Topology) (a b : Nat) : Prop :=
  ∃ p q, t.position a = .ok p ∧ t.position b = .ok q ∧ p.Adjacent q

/-- The edges of a mesh whose links have a latency and are numbered on from a first id. -/
structure Topology.MeshEdges (t : Topology) (first latency : Nat) : Prop where
  edges : t.edges = Hop.links first latency (Hop.mesh t.grid)
  /-- Everything that the family proposes is accepted. -/
  accepted : ∃ wiring, Family.mesh.wiring t.grid = .ok wiring ∧
    (Draft.start .mesh t.grid latency first).AcceptsAll wiring.proposals
  count : t.edges.length = t.grid.rows * (t.grid.cols - 1) + t.grid.cols * (t.grid.rows - 1)
  joined : ∀ a ∈ t.routers, ∀ b ∈ t.routers,
    (∃ l ∈ t.links, l.source = a.rank ∧ l.target = b.rank) ↔ t.NextTo a.rank b.rank
  neighbors : ∀ a ∈ t.routers, ∀ b ∈ t.routers,
    b.rank ∈ t.graph.neighbors a.rank ↔ t.NextTo a.rank b.rank

/-! ## Cells -/

namespace Wiring

variable {g : Grid} {row col : Nat} {p : Proposal}

/-- A cell of a mesh only proposes edges to later cells. -/
theorem lt_target_of_mem_meshCell (hcol : col < g.cols) (hp : p ∈ meshCell g row col) :
    g.cell row col < p.target := by
  rcases mem_meshCell.mp hp with ⟨-, rfl⟩ | ⟨-, rfl⟩
  · exact Grid.cell_lt_cell_along.mpr col.lt_succ_self
  · exact (Grid.cell_lt_cell_upward (by omega)).mpr row.lt_succ_self

theorem nodup_meshCell_targets (hcol : col < g.cols) :
    ((meshCell g row col).map (·.target)).Nodup := by
  unfold meshCell
  by_cases hnext : col + 1 < g.cols
  · by_cases hup : row + 1 < g.rows
    · -- one of the two neighbours is in the same row, and the other is not
      have hne : g.cell row (col + 1) ≠ g.cell (row + 1) col := by
        rw [ne_eq, Grid.cell_inj hnext hcol]
        omega
      simp [hnext, hup, hne]
    · simp [hnext, hup]
  · by_cases hup : row + 1 < g.rows
    · simp [hnext, hup]
    · simp [hnext, hup]

theorem meshCells_rankOrdered (g : Grid) :
    RankOrdered (g.rows * g.cols) fun a => meshCell g (a / g.cols) (a % g.cols) := by
  refine .of_cells ?_ ?_ ?_ ?_
  · intro row _ col _ p hp
    rcases mem_meshCell.mp hp with ⟨-, rfl⟩ | ⟨-, rfl⟩
    · rfl
    · rfl
  · intro row _ col hcol p hp
    exact Nat.ne_of_gt (lt_target_of_mem_meshCell hcol hp)
  · intro row _ col hcol
    exact nodup_meshCell_targets hcol
  · intro row _ col hcol p hp hlt
    exact absurd hlt (Nat.lt_asymm (lt_target_of_mem_meshCell hcol hp))

/-- All edges that the cells of a mesh propose are new. -/
theorem fresh_meshCells (g : Grid) :
    fresh [] (g.cells.flatMap fun (row, col) => meshCell g row col) =
      g.cells.flatMap fun (row, col) => meshCell g row col := by
  rw [(meshCells_rankOrdered g).fresh_cells]
  apply List.flatMap_congr
  rintro ⟨row, col⟩ hcell
  obtain ⟨-, hcol⟩ := Grid.mem_cells.mp hcell
  rw [List.filter_eq_self]
  intro p hp
  simpa using lt_target_of_mem_meshCell hcol hp

end Wiring

/-- A cell has one hop for its column and one for its row, where the line goes on. -/
theorem Hop.length_meshCell (g : Grid) (row col : Nat) :
    (meshCell g row col).length =
      (if col + 1 < g.cols then 1 else 0) + if row + 1 < g.rows then 1 else 0 := by
  rw [meshCell, List.length_append]
  congr 1
  · split <;> rfl
  · split <;> rfl

theorem Hop.length_mesh (g : Grid) :
    (mesh g).length = g.rows * (g.cols - 1) + g.cols * (g.rows - 1) := by
  rw [mesh, Grid.length_flatMap_cells (length_meshCell g), Wiring.sum_range_next,
    Wiring.sum_range_next]

/-! ## Stages -/

namespace Stages

variable {c : Configuration} {endpoints : List Endpoint} {t : Topology}
  {placements : List Placement} {wiring : Wiring} {a b : Nat}

theorem mesh_hops (s : Stages c endpoints t placements wiring) (hfamily : c.family = .mesh) :
    (fresh [] wiring.proposals).map t.hop = Hop.mesh t.grid := by
  have hplan : t.plan = none := s.plan_eq_none (by simp [hfamily]) (by simp [hfamily])
  have hunfolded : t.family ≠ .ring := by simp [s.family, hfamily]
  rw [s.mesh_proposals hfamily, Wiring.fresh_meshCells, List.map_flatMap]
  apply List.flatMap_congr
  rintro ⟨row, col⟩ hcell
  obtain ⟨-, hcol⟩ := Grid.mem_cells.mp hcell
  show (Wiring.meshCell t.grid row col).map t.hop = Hop.meshCell t.grid row col
  rw [Wiring.meshCell, Hop.meshCell, List.map_append]
  congr 1
  · split
    · next hnext => simp [Topology.hop_along hplan hunfolded col.lt_succ_self hnext]
    · rfl
  · split
    · simp [Topology.hop_upward hplan hunfolded row.lt_succ_self hcol]
    · rfl

/-- The wiring of a mesh joins two routers if they are drawn next to each other. -/
theorem mesh_joins_iff (s : Stages c endpoints t placements wiring) (hfamily : c.family = .mesh)
    (ha : a < t.grid.rows * t.grid.cols) (hb : b < t.grid.rows * t.grid.cols) :
    (∃ p ∈ wiring.proposals, p.key = edgeKey a b) ↔ t.NextTo a b := by
  have hunfolded : t.family ≠ .ring := by simp [s.family, hfamily]
  have hpositions : t.NextTo a b ↔
      (t.family.spot t.grid a).Adjacent (t.family.spot t.grid b) := by
    simp [Topology.NextTo, s.position_eq]
  rw [hpositions]
  constructor
  · intro h
    obtain ⟨p, hp, hkey⟩ := h
    have hnext := (s.adjacent_of_mesh hfamily p hp).2
    rcases edgeKey_eq_iff.mp hkey with ⟨rfl, rfl⟩ | ⟨rfl, rfl⟩
    · exact hnext
    · exact hnext.symm
  · intro hnext
    obtain ⟨row, col, hrow, hcol, rfl⟩ := Grid.exists_cell ha
    obtain ⟨row', col', hrow', hcol', rfl⟩ := Grid.exists_cell hb
    rw [Family.spot_cell hunfolded hcol, Family.spot_cell hunfolded hcol'] at hnext
    -- of two neighbours, the one further left or further down proposes the edge
    have hmem : ∀ p, Wiring.MeshProposal t.grid p → p ∈ wiring.proposals := fun p hp =>
      (s.mem_mesh_iff hfamily).mpr hp
    rcases hnext with ⟨hsame, hx | hx⟩ | ⟨hsame, hy | hy⟩
    · obtain ⟨rfl, rfl⟩ : row = row' ∧ col + 1 = col' := ⟨hsame, hx⟩
      exact ⟨_, hmem _ (.along hrow hcol'), rfl⟩
    · obtain ⟨rfl, rfl⟩ : row = row' ∧ col' + 1 = col := ⟨hsame, hx⟩
      exact ⟨_, hmem _ (.along hrow hcol), edgeKey_comm _ _⟩
    · obtain ⟨rfl, rfl⟩ : col = col' ∧ row + 1 = row' := ⟨hsame, hy⟩
      exact ⟨_, hmem _ (.upward hrow' hcol), rfl⟩
    · obtain ⟨rfl, rfl⟩ : col = col' ∧ row' + 1 = row := ⟨hsame, hy⟩
      exact ⟨_, hmem _ (.upward hrow hcol), edgeKey_comm _ _⟩

/-- No proposal of a mesh is turned down. -/
theorem mesh_acceptsAll (s : Stages c endpoints t placements wiring) (hfamily : c.family = .mesh)
    (latency first : Nat) :
    (Draft.start .mesh t.grid latency first).AcceptsAll wiring.proposals := by
  obtain ⟨draft, hrun⟩ := Draft.exists_proposeAll (d := .start .mesh t.grid latency first)
    (fun _ _ => .inr (Nat.ne_of_gt s.cols_pos)) s.distinct
  refine Draft.acceptsAll_of_start ?_ hrun
  rw [s.mesh_proposals hfamily, ← Wiring.fresh_meshCells]
  exact Proposal.nodup_fresh_keys _ _

end Stages

/-! ## Main statement -/

/-- **The edges of a mesh** run from every cell to its right-hand and to its upper
    neighbour, in the order of the ranks, and nowhere else. -/
theorem mesh_edges {c : Configuration} {endpoints : List Endpoint} {t : Topology}
    (h : synthesize c endpoints = .ok t) (hfamily : c.family = .mesh) :
    t.MeshEdges endpoints.length c.linkLatency.toNat := by
  obtain ⟨placements, wiring, s⟩ := synthesize_stages h
  have hedges := s.edges_eq_links
  rw [s.mesh_hops hfamily] at hedges
  refine {
    edges := hedges
    accepted := ⟨wiring, hfamily ▸ s.wired, s.mesh_acceptsAll hfamily _ _⟩
    count := ?_, joined := ?_, neighbors := ?_ }
  · rw [hedges, Hop.length_links, Hop.length_mesh]
  · intro a ha b hb
    rw [s.exists_link_iff, s.mesh_joins_iff hfamily (s.rank_lt ha) (s.rank_lt hb)]
  · intro a ha b hb
    rw [s.mem_neighbors_iff (synthesize_room h).1 (s.rank_lt_length ha),
      s.mesh_joins_iff hfamily (s.rank_lt ha) (s.rank_lt hb)]

theorem mesh_edges_sixteen :
    ∃ t, synthesize { family := .mesh } (Endpoint.population 16 0 0) = .ok t ∧
      t.grid = ⟨4, 4⟩ ∧ t.MeshEdges 16 1 := by
  obtain ⟨t, h⟩ := exists_synthesize_sixteen .mesh
  exact ⟨t, h, synthesize_grid h rfl, mesh_edges h rfl⟩

end Interconnect
