import Interconnect.Proofs.Hops
import Interconnect.Proofs.Neighbors
import Interconnect.Proofs.Wiring.Places
import Interconnect.Proofs.Wiring.RankOrder

/-! # The edges of a flattened butterfly

    Every cell proposes all other cells of its row and of its column, so that every edge
    is proposed twice. What is left of this, in the order of the ranks:

    * each cell brings the edges to the later cells of its row, and then those to the
      later cells of its column, both in ascending order;
    * a router is joined to all others of its row and of its column;
    * where two routers share neither, the only way from one to the other that takes a
      link along a row and then one along a column turns where the row of the one meets
      the column of the other.

    `flattenedButterfly_edges` is the main statement.
-/

namespace Interconnect

open Proposal (fresh)
open Wiring (placesAfter placesAround)

/-! ## What is expected -/

/-- The hops from a cell of a flattened butterfly to those further right in its row, and
    to those further up in its column. -/
def Hop.butterflyCell (g : Grid) (row col : Nat) : List Hop :=
  (placesAfter g.cols col).map (along g row col) ++
    (placesAfter g.rows row).map fun row' => upward g row row' col

/-- The hops of a flattened butterfly, cell by cell. -/
def Hop.butterfly (g : Grid) : List Hop :=
  g.cells.flatMap fun (row, col) => butterflyCell g row col

/-- The edges of a flattened butterfly whose links have a latency and are numbered on
    from a first id. -/
structure Topology.ButterflyEdges (t : Topology) (first latency : Nat) : Prop where
  edges : t.edges = Hop.links first latency (Hop.butterfly t.grid)
  /-- Each row has an edge for every two of its routers, and so has each column. -/
  count : t.edges.length =
    t.grid.rows * t.grid.cols.choose 2 + t.grid.cols * t.grid.rows.choose 2
  degree : ∀ r ∈ t.routers, t.Degree r.rank ((t.grid.rows - 1) + (t.grid.cols - 1))
  /-- One link leads from a router to another, or two links do by way of a third one. -/
  reach : ∀ a ∈ t.routers, ∀ b ∈ t.routers, a ≠ b →
    (∃ l ∈ t.links, l.source = a.rank ∧ l.target = b.rank) ∨
      ∃! m, m ∈ t.routers ∧ t.Linked 1 a.rank m.rank ∧ t.Linked 2 m.rank b.rank

/-! ## Cells -/

namespace Wiring

variable {g : Grid} {row col : Nat} {p : Proposal}

/-- A cell that is proposed proposes an edge back. -/
theorem butterflyCell_answered (hrow : row < g.rows) (hcol : col < g.cols)
    (hp : p ∈ butterflyCell g row col) :
    ∃ q ∈ butterflyCell g (p.target / g.cols) (p.target % g.cols), q.target = g.cell row col := by
  rcases (mem_butterflyCell hrow hcol).mp hp with ⟨col', hcol', hne, rfl⟩ | ⟨row', hrow', hne, rfl⟩
  · rw [Grid.cell_div hcol', Grid.cell_mod hcol']
    exact ⟨⟨g.cell row col', g.cell row col, .row⟩,
      (mem_butterflyCell hrow hcol').mpr (.inl ⟨col, hcol, hne.symm, rfl⟩), rfl⟩
  · rw [Grid.cell_div hcol, Grid.cell_mod hcol]
    exact ⟨⟨g.cell row' col, g.cell row col, .column⟩,
      (mem_butterflyCell hrow' hcol).mpr (.inr ⟨row, hrow, hne.symm, rfl⟩), rfl⟩

theorem nodup_butterflyCell_targets (hrow : row < g.rows) (hcol : col < g.cols) :
    ((butterflyCell g row col).map (·.target)).Nodup := by
  rw [butterflyCell_eq, List.map_append, List.map_map, List.map_map]
  refine List.Nodup.append ?_ ?_ ?_
  · apply List.Nodup.map_on _ (nodup_placesAround hcol)
    intro x hx y hy hsame
    have hxlt := ((mem_placesAround hcol).mp hx).1
    have hylt := ((mem_placesAround hcol).mp hy).1
    exact ((Grid.cell_inj hxlt hylt).mp hsame).2
  · apply List.Nodup.map_on _ (nodup_placesAround hrow)
    intro x _ y _ hsame
    exact ((Grid.cell_inj hcol hcol).mp hsame).1
  · -- the cells in the row of a cell are not in its column
    intro r hr hr'
    obtain ⟨x, hx, rfl⟩ := List.mem_map.mp hr
    obtain ⟨y, hy, hsame⟩ := List.mem_map.mp hr'
    obtain ⟨hlt, hne⟩ := (mem_placesAround hcol).mp hx
    exact hne ((Grid.cell_inj hcol hlt).mp hsame).2.symm

theorem butterflyCells_rankOrdered (g : Grid) :
    RankOrdered (g.rows * g.cols) fun a => butterflyCell g (a / g.cols) (a % g.cols) := by
  refine .of_cells ?_ ?_ ?_ ?_
  · intro row hrow col hcol p hp
    rcases (mem_butterflyCell hrow hcol).mp hp with ⟨_, -, -, rfl⟩ | ⟨_, -, -, rfl⟩
    · rfl
    · rfl
  · intro row hrow col hcol p hp
    have hne := butterflyCell_distinct hrow hcol p hp
    rcases (mem_butterflyCell hrow hcol).mp hp with ⟨_, -, -, rfl⟩ | ⟨_, -, -, rfl⟩
    · exact hne.symm
    · exact hne.symm
  · intro row hrow col hcol
    exact nodup_butterflyCell_targets hrow hcol
  · intro row hrow col hcol p hp _
    exact butterflyCell_answered hrow hcol hp

/-- Of the edges that a cell proposes, those to later cells lead along the row and along
    the column in ascending order. -/
theorem filter_butterflyCell (hrow : row < g.rows) (hcol : col < g.cols) :
    ((butterflyCell g row col).filter fun p => g.cell row col < p.target) =
      (placesAfter g.cols col).map (fun col' => ⟨g.cell row col, g.cell row col', .row⟩) ++
        (placesAfter g.rows row).map
          fun row' => ⟨g.cell row col, g.cell row' col, .column⟩ := by
  have hcols : 0 < g.cols := by omega
  rw [butterflyCell_eq, List.filter_append, List.filter_map, List.filter_map]
  simp only [Function.comp_def, Grid.cell_lt_cell_along, Grid.cell_lt_cell_upward hcols,
    filter_placesAround hcol, filter_placesAround hrow]

end Wiring

/-! ## Hops -/

namespace Hop

theorem length_butterflyCell (g : Grid) (row col : Nat) :
    (butterflyCell g row col).length =
      (placesAfter g.cols col).length + (placesAfter g.rows row).length := by
  rw [butterflyCell, List.length_append, List.length_map, List.length_map]

theorem length_butterfly (g : Grid) :
    (butterfly g).length = g.rows * g.cols.choose 2 + g.cols * g.rows.choose 2 := by
  rw [butterfly, Grid.length_flatMap_cells (length_butterflyCell g),
    Wiring.sum_length_placesAfter, Wiring.sum_length_placesAfter]

theorem mem_butterflyCell {g : Grid} {row col : Nat} {hop : Hop} :
    hop ∈ butterflyCell g row col ↔
      (∃ col', col < col' ∧ col' < g.cols ∧ hop = along g row col col') ∨
        ∃ row', row < row' ∧ row' < g.rows ∧ hop = upward g row row' col := by
  simp only [butterflyCell, List.mem_append, List.mem_map, Wiring.mem_placesAfter, and_assoc,
    eq_comm (b := hop)]

theorem mem_butterfly {g : Grid} {hop : Hop} :
    hop ∈ butterfly g ↔ ∃ row < g.rows, ∃ col < g.cols,
      (∃ col', col < col' ∧ col' < g.cols ∧ hop = along g row col col') ∨
        ∃ row', row < row' ∧ row' < g.rows ∧ hop = upward g row row' col := by
  simp only [butterfly, List.mem_flatMap, Prod.exists, Grid.mem_cells, mem_butterflyCell,
    and_assoc, exists_and_left]

end Hop

namespace Stages

variable {c : Configuration} {endpoints : List Endpoint} {t : Topology}
  {placements : List Placement} {wiring : Wiring}

theorem butterfly_hops (s : Stages c endpoints t placements wiring)
    (hfamily : c.family = .flattenedButterfly) :
    (fresh [] wiring.proposals).map t.hop = Hop.butterfly t.grid := by
  have hplan : t.plan = none := s.plan_eq_none (by simp [hfamily]) (by simp [hfamily])
  have hunfolded : t.family ≠ .ring := by simp [s.family, hfamily]
  rw [s.flattenedButterfly_proposals hfamily,
    (Wiring.butterflyCells_rankOrdered t.grid).fresh_cells, List.map_flatMap]
  apply List.flatMap_congr
  rintro ⟨row, col⟩ hcell
  obtain ⟨hrow, hcol⟩ := Grid.mem_cells.mp hcell
  show ((Wiring.butterflyCell t.grid row col).filter
    fun p => t.grid.cell row col < p.target).map t.hop = Hop.butterflyCell t.grid row col
  rw [Wiring.filter_butterflyCell hrow hcol, List.map_append, List.map_map, List.map_map,
    Hop.butterflyCell]
  congr 1
  · apply List.map_congr_left
    intro col' hcol'
    obtain ⟨hlt, hcol'⟩ := Wiring.mem_placesAfter.mp hcol'
    exact Topology.hop_along hplan hunfolded hlt hcol'
  · apply List.map_congr_left
    intro row' hrow'
    exact Topology.hop_upward hplan hunfolded (Wiring.mem_placesAfter.mp hrow').1 hcol

/-- A router is joined to all others of its row and of its column. -/
theorem butterfly_degree (s : Stages c endpoints t placements wiring)
    (hfamily : c.family = .flattenedButterfly) (hroom : t.routers.length ≤ Graph.room) {r : Nat}
    (hr : r < t.grid.rows * t.grid.cols) :
    t.Degree r ((t.grid.rows - 1) + (t.grid.cols - 1)) := by
  have hrouter : r < t.routers.length := by rwa [s.length_routers]
  obtain ⟨row, col, hrow, hcol, rfl⟩ := Grid.exists_cell hr
  have hlength : ((Wiring.butterflyCell t.grid row col).map (·.target)).length =
      (t.grid.rows - 1) + (t.grid.cols - 1) := by
    simp [Wiring.butterflyCell_eq, Nat.add_comm]
  rw [← hlength]
  apply s.degree hroom hrouter (Wiring.nodup_butterflyCell_targets hrow hcol)
  intro b
  rw [s.flattenedButterfly_proposals hfamily]
  refine (Wiring.butterflyCells_rankOrdered t.grid).mem_cell_targets_iff ?_ hrow hcol
  intro row hrow col hcol p hp
  exact Wiring.butterflyCell_answered hrow hcol hp

end Stages

/-! ## Links -/

namespace Topology

variable {t : Topology} {first latency row col row' col' : Nat}

/-- Links of weight 1 join the routers of a row. -/
theorem linked_along_iff
    (h : t.edges = Hop.links first latency (Hop.butterfly t.grid))
    (hrow : row < t.grid.rows) (hcol : col < t.grid.cols) (hcol' : col' < t.grid.cols) :
    t.Linked 1 (t.grid.cell row col) (t.grid.cell row' col') ↔ row = row' ∧ col ≠ col' := by
  simp only [linked_iff h, Hop.mem_butterfly]
  constructor
  · intro hlinked
    obtain ⟨hop, ⟨r, hr, x, hx, ⟨y, hlt, hy, rfl⟩ | ⟨_, -, -, rfl⟩⟩, hweight, hends⟩ := hlinked
    · rcases hends with ⟨hsource, htarget⟩ | ⟨hsource, htarget⟩
      · obtain ⟨rfl, rfl⟩ := (Grid.cell_inj hx hcol).mp hsource
        obtain ⟨rfl, rfl⟩ := (Grid.cell_inj hy hcol').mp htarget
        exact ⟨rfl, Nat.ne_of_lt hlt⟩
      · obtain ⟨rfl, rfl⟩ := (Grid.cell_inj hx hcol').mp hsource
        obtain ⟨rfl, rfl⟩ := (Grid.cell_inj hy hcol).mp htarget
        exact ⟨rfl, Nat.ne_of_gt hlt⟩
    · -- hops up a column have another weight
      exact absurd hweight (show ¬ 2 = 1 by decide)
  · intro hcells
    obtain ⟨rfl, hne⟩ := hcells
    rcases Nat.lt_or_gt_of_ne hne with hlt | hlt
    · exact ⟨.along t.grid row col col', ⟨row, hrow, col, hcol, .inl ⟨col', hlt, hcol', rfl⟩⟩,
        rfl, .inl ⟨rfl, rfl⟩⟩
    · exact ⟨.along t.grid row col' col, ⟨row, hrow, col', hcol', .inl ⟨col, hlt, hcol, rfl⟩⟩,
        rfl, .inr ⟨rfl, rfl⟩⟩

/-- Links of weight 2 join the routers of a column. -/
theorem linked_upward_iff
    (h : t.edges = Hop.links first latency (Hop.butterfly t.grid))
    (hrow : row < t.grid.rows) (hrow' : row' < t.grid.rows) (hcol : col < t.grid.cols)
    (hcol' : col' < t.grid.cols) :
    t.Linked 2 (t.grid.cell row col) (t.grid.cell row' col') ↔ row ≠ row' ∧ col = col' := by
  simp only [linked_iff h, Hop.mem_butterfly]
  constructor
  · intro hlinked
    obtain ⟨hop, ⟨x, hx, z, hz, ⟨_, -, -, rfl⟩ | ⟨y, hlt, hy, rfl⟩⟩, hweight, hends⟩ := hlinked
    · exact absurd hweight (show ¬ 1 = 2 by decide)
    · rcases hends with ⟨hsource, htarget⟩ | ⟨hsource, htarget⟩
      · obtain ⟨rfl, rfl⟩ := (Grid.cell_inj hz hcol).mp hsource
        obtain ⟨rfl, rfl⟩ := (Grid.cell_inj hz hcol').mp htarget
        exact ⟨Nat.ne_of_lt hlt, rfl⟩
      · obtain ⟨rfl, rfl⟩ := (Grid.cell_inj hz hcol').mp hsource
        obtain ⟨rfl, rfl⟩ := (Grid.cell_inj hz hcol).mp htarget
        exact ⟨Nat.ne_of_gt hlt, rfl⟩
  · intro hcells
    obtain ⟨hne, rfl⟩ := hcells
    rcases Nat.lt_or_gt_of_ne hne with hlt | hlt
    · exact ⟨.upward t.grid row row' col, ⟨row, hrow, col, hcol, .inr ⟨row', hlt, hrow', rfl⟩⟩,
        rfl, .inl ⟨rfl, rfl⟩⟩
    · exact ⟨.upward t.grid row' row col, ⟨row', hrow', col, hcol, .inr ⟨row, hlt, hrow, rfl⟩⟩,
        rfl, .inr ⟨rfl, rfl⟩⟩

end Topology

/-- Two routers of one row or column are joined by a link, and two others by way of the
    router in the row of the first and in the column of the second. -/
theorem Stages.butterfly_reach {c : Configuration} {endpoints : List Endpoint} {t : Topology}
    {placements : List Placement} {wiring : Wiring} {first latency : Nat}
    (s : Stages c endpoints t placements wiring)
    (h : t.edges = Hop.links first latency (Hop.butterfly t.grid))
    {a b : Router} (ha : a ∈ t.routers) (hb : b ∈ t.routers) (hne : a ≠ b) :
    (∃ l ∈ t.links, l.source = a.rank ∧ l.target = b.rank) ∨
      ∃! m, m ∈ t.routers ∧ t.Linked 1 a.rank m.rank ∧ t.Linked 2 m.rank b.rank := by
  obtain ⟨row, col, hrow, hcol, hrank⟩ := Grid.exists_cell (s.rank_lt ha)
  obtain ⟨row', col', hrow', hcol', hrank'⟩ := Grid.exists_cell (s.rank_lt hb)
  rw [hrank, hrank']
  by_cases hsame : row = row'
  · have hcols : col ≠ col' := by
      rintro rfl
      exact hne (s.router_eq_of_rank ha hb (by rw [hrank, hrank', hsame]))
    obtain ⟨l, hl, hsource, htarget, -⟩ := (Topology.linked_along_iff h hrow hcol hcol').mpr
      ⟨hsame, hcols⟩
    exact .inl ⟨l, hl, hsource, htarget⟩
  · by_cases hcols : col = col'
    · obtain ⟨l, hl, hsource, htarget, -⟩ :=
        (Topology.linked_upward_iff h hrow hrow' hcol hcol').mpr ⟨hsame, hcols⟩
      exact .inl ⟨l, hl, hsource, htarget⟩
    · obtain ⟨m, hm, hturn⟩ := s.exists_router_of_lt (Grid.cell_lt hrow hcol')
      have hfirst := (Topology.linked_along_iff h hrow hcol hcol').mpr ⟨rfl, hcols⟩
      have hsecond := (Topology.linked_upward_iff h hrow hrow' hcol' hcol').mpr ⟨hsame, rfl⟩
      refine .inr ⟨m, ⟨hm, hturn ▸ hfirst, hturn ▸ hsecond⟩, ?_⟩
      -- the first link stays in the row, and the second one in the column
      rintro x ⟨hx, hfirst, hsecond⟩
      obtain ⟨r, z, hr, hz, hrankx⟩ := Grid.exists_cell (s.rank_lt hx)
      rw [hrankx] at hfirst hsecond
      obtain ⟨rfl, -⟩ := (Topology.linked_along_iff h hrow hcol hz).mp hfirst
      obtain ⟨-, rfl⟩ := (Topology.linked_upward_iff h hr hrow' hz hcol').mp hsecond
      exact s.router_eq_of_rank hx hm (hrankx.trans hturn.symm)

/-! ## Main statement -/

/-- **The edges of a flattened butterfly** run from every cell to the later ones of its
    row and of its column, so that two links lead anywhere. -/
theorem flattenedButterfly_edges {c : Configuration} {endpoints : List Endpoint} {t : Topology}
    (h : synthesize c endpoints = .ok t) (hfamily : c.family = .flattenedButterfly) :
    t.ButterflyEdges endpoints.length c.linkLatency.toNat := by
  obtain ⟨placements, wiring, s⟩ := synthesize_stages h
  have hedges := s.edges_eq_links
  rw [s.butterfly_hops hfamily] at hedges
  exact {
    edges := hedges
    count := by rw [hedges, Hop.length_links, Hop.length_butterfly]
    degree := fun r hr => s.butterfly_degree hfamily (synthesize_room h).1 (s.rank_lt hr)
    reach := fun a ha b hb hne => s.butterfly_reach hedges ha hb hne }

theorem flattenedButterfly_edges_sixteen :
    ∃ t, synthesize { family := .flattenedButterfly } (Endpoint.population 16 0 0) = .ok t ∧
      t.grid = ⟨4, 4⟩ ∧ t.ButterflyEdges 16 1 := by
  obtain ⟨t, h⟩ := exists_synthesize_sixteen .flattenedButterfly
  exact ⟨t, h, synthesize_grid h rfl, flattenedButterfly_edges h rfl⟩

end Interconnect
