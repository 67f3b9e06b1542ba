import Interconnect.Proofs.EscapeChannel
import Interconnect.Proofs.Walk

/-! # Every network is connected

    Whatever the family, a walk of internal links leads from every router to every
    other one. `synthesize_connected` is the main statement. What joins the routers
    differs from family to family:

    * in a mesh and in a flattened butterfly, every cell is joined to its right-hand
      and to its upper neighbour;
    * in a fully connected network, every router has a link to every other one;
    * a ring is one cycle over all routers;
    * in a hierarchical ring, every router lies on a half-ring, and every half-ring
      shares a router with the central ring.
-/

namespace Interconnect

open Escape (Cycle Side)

namespace Stages

variable {c : Configuration} {endpoints : List Endpoint} {t : Topology}
  {placements : List Placement} {wiring : Wiring}

/-! ## What a wiring joins -/

theorem joined_of_key (s : Stages c endpoints t placements wiring) {a b : Nat}
    (h : ∃ p ∈ wiring.proposals, p.key = edgeKey a b) : t.Joined a b := by
  obtain ⟨l, hl, hedge⟩ := s.exists_edge_iff.mpr h
  exact Topology.joined_of_edge hl hedge

theorem joined_of_proposal (s : Stages c endpoints t placements wiring) {p : Proposal}
    (hp : p ∈ wiring.proposals) : t.Joined p.source p.target :=
  s.joined_of_key ⟨p, hp, rfl⟩

/-- A cycle whose edges are all proposed joins its routers. -/
theorem joined_of_cycle (s : Stages c endpoints t placements wiring) {x : Cycle}
    (h : ∀ key ∈ x.keys, ∃ p ∈ wiring.proposals, p.key = key) {a b : Nat}
    (ha : a ∈ x.routers) (hb : b ∈ x.routers) : t.Joined a b := by
  obtain ⟨first, hfirst⟩ : ∃ first, x.routers[0]? = some first :=
    ⟨_, List.getElem?_eq_getElem x.size_pos⟩
  -- by induction on its position, every router is joined to the first one
  have hall : ∀ (i r : Nat), x.routers[i]? = some r → t.Joined first r := by
    intro i
    induction i with
    | zero =>
      intro r hr
      have hsame : first = r := Option.some.inj (hfirst.symm.trans hr)
      exact hsame ▸ .refl t first
    | succ i ih =>
      intro r hr
      have hlt : i + 1 < x.size := (List.getElem?_eq_some_iff.mp hr).1
      obtain ⟨q, hq⟩ : ∃ q, x.routers[i]? = some q :=
        ⟨_, List.getElem?_eq_getElem (show i < x.routers.length from Nat.lt_of_succ_lt hlt)⟩
      have hkey : x.keys[i]? = some (edgeKey q r) :=
        Cycle.keys_getElem?_eq_some_iff.mpr ⟨q, r, hq, by rwa [Nat.mod_eq_of_lt hlt], rfl⟩
      exact (ih q hq).trans (s.joined_of_key (h _ (List.mem_of_getElem? hkey)))
  obtain ⟨i, hi⟩ := List.mem_iff_getElem?.mp ha
  obtain ⟨j, hj⟩ := List.mem_iff_getElem?.mp hb
  exact (hall i a hi).symm.trans (hall j b hj)

end Stages

/-! ## Cells -/

/-- Where every cell is joined to its right-hand and to its upper neighbour, every
    cell is joined to the first one. -/
theorem Topology.joined_first_cell {t : Topology} {g : Grid}
    (hright : ∀ row col, row < g.rows → col + 1 < g.cols →
      t.Joined (g.cell row col) (g.cell row (col + 1)))
    (hup : ∀ row col, row + 1 < g.rows → col < g.cols →
      t.Joined (g.cell row col) (g.cell (row + 1) col))
    {row col : Nat} (hrow : row < g.rows) (hcol : col < g.cols) :
    t.Joined (g.cell 0 0) (g.cell row col) := by
  -- up the first column to the row, and then along the row
  have hcolumn : ∀ i < g.rows, t.Joined (g.cell 0 0) (g.cell i 0) := by
    intro i
    induction i with
    | zero =>
      intro _
      exact .refl t _
    | succ i ih =>
      intro hi
      exact (ih (by omega)).trans (hup i 0 hi (by omega))
  have hline : ∀ j < g.cols, t.Joined (g.cell row 0) (g.cell row j) := by
    intro j
    induction j with
    | zero =>
      intro _
      exact .refl t _
    | succ j ih =>
      intro hj
      exact (ih (by omega)).trans (hright row j hrow hj)
  exact (hcolumn row hrow).trans (hline col hcol)

/-! ## The families -/

namespace Stages

variable {c : Configuration} {endpoints : List Endpoint} {t : Topology}
  {placements : List Placement} {wiring : Wiring}

/-- The proposals of the cells join them if each cell proposes its right-hand and its
    upper neighbour. -/
theorem joined_of_cells (s : Stages c endpoints t placements wiring)
    {proposed : Nat → Nat → List Proposal}
    (hwired : wiring.proposals = t.grid.cells.flatMap fun (row, col) => proposed row col)
    (hright : ∀ row col, row < t.grid.rows → col + 1 < t.grid.cols →
      ⟨t.grid.cell row col, t.grid.cell row (col + 1), .row⟩ ∈ proposed row col)
    (hup : ∀ row col, row + 1 < t.grid.rows → col < t.grid.cols →
      ⟨t.grid.cell row col, t.grid.cell (row + 1) col, .column⟩ ∈ proposed row col)
    {r : Nat} (hr : r < t.grid.rows * t.grid.cols) : t.Joined (t.grid.cell 0 0) r := by
  have hjoined : ∀ row col, row < t.grid.rows → col < t.grid.cols → ∀ p ∈ proposed row col,
      t.Joined p.source p.target := by
    intro row col hrow hcol p hp
    apply s.joined_of_proposal
    rw [hwired]
    exact List.mem_flatMap.mpr ⟨(row, col), Grid.mem_cells.mpr ⟨hrow, hcol⟩, hp⟩
  obtain ⟨row, col, hrow, hcol, rfl⟩ := Grid.exists_cell hr
  refine Topology.joined_first_cell ?_ ?_ hrow hcol
  · intro row col hrow hcol
    exact hjoined row col hrow (by omega) _ (hright row col hrow hcol)
  · intro row col hrow hcol
    exact hjoined row col (by omega) hcol _ (hup row col hrow hcol)

theorem joined_of_mesh (s : Stages c endpoints t placements wiring) (hfamily : c.family = .mesh)
    {r : Nat} (hr : r < t.grid.rows * t.grid.cols) : t.Joined (t.grid.cell 0 0) r := by
  refine s.joined_of_cells (s.mesh_proposals hfamily) ?_ ?_ hr
  · intro row col _ hcol
    exact Wiring.mem_meshCell.mpr (.inl ⟨hcol, rfl⟩)
  · intro row col hrow _
    exact Wiring.mem_meshCell.mpr (.inr ⟨hrow, rfl⟩)

theorem joined_of_flattenedButterfly (s : Stages c endpoints t placements wiring)
    (hfamily : c.family = .flattenedButterfly) {r : Nat} (hr : r < t.grid.rows * t.grid.cols) :
    t.Joined (t.grid.cell 0 0) r := by
  refine s.joined_of_cells (s.flattenedButterfly_proposals hfamily) ?_ ?_ hr
  · intro row col hrow hcol
    rw [Wiring.mem_butterflyCell hrow (by omega)]
    exact .inl ⟨col + 1, hcol, by omega, rfl⟩
  · intro row col hrow hcol
    rw [Wiring.mem_butterflyCell (by omega) hcol]
    exact .inr ⟨row + 1, hrow, by omega, rfl⟩

theorem joined_of_fullyConnected (s : Stages c endpoints t placements wiring)
    (hfamily : c.family = .fullyConnected) {a b : Nat} (ha : a < t.grid.rows * t.grid.cols)
    (hb : b < t.grid.rows * t.grid.cols) : t.Joined a b := by
  by_cases hsame : a = b
  · exact hsame ▸ .refl t a
  · have hproposal : (⟨a, b, .direct⟩ : Proposal) ∈ wiring.proposals := by
      rw [s.fullyConnected_proposals hfamily]
      have htarget : b ∈ (List.range (t.grid.rows * t.grid.cols)).filter (· ≠ a) := by
        simp [hb, Ne.symm hsame]
      exact List.mem_flatMap.mpr ⟨a, List.mem_range.mpr ha, List.mem_map_of_mem htarget⟩
    exact s.joined_of_proposal hproposal

theorem joined_of_ring (s : Stages c endpoints t placements wiring) (hfamily : c.family = .ring)
    {a b : Nat} (ha : a < t.grid.rows * t.grid.cols) (hb : b < t.grid.rows * t.grid.cols) :
    t.Joined a b := by
  obtain ⟨channel, rfl, -, hrouters⟩ := s.ringCycle hfamily
  apply s.joined_of_cycle fun key => Wiring.exists_ringProposals_iff.mpr
  · rw [hrouters]
    exact List.mem_range.mpr ha
  · rw [hrouters]
    exact List.mem_range.mpr hb

/-- Around its half-ring, every router is joined to a router of the central ring. -/
theorem joined_of_hierarchicalRing (s : Stages c endpoints t placements wiring)
    (hfamily : c.family = .hierarchicalRing) {a b : Nat} (ha : a < t.grid.rows * t.grid.cols)
    (hb : b < t.grid.rows * t.grid.cols) : t.Joined a b := by
  obtain ⟨halves, central, r, rfl⟩ := s.hierarchicalRings hfamily
  have hcentral : ∀ key ∈ central.keys,
      ∃ p ∈ (Wiring.ofRings halves central).proposals, p.key = key := by
    intro key hkey
    exact Wiring.exists_hierarchicalProposals_iff.mpr (.inr hkey)
  have hhalf : ∀ half ∈ halves, ∀ key ∈ half.keys,
      ∃ p ∈ (Wiring.ofRings halves central).proposals, p.key = key := by
    intro half hmem key hkey
    exact Wiring.exists_hierarchicalProposals_iff.mpr (.inl ⟨half, hmem, hkey⟩)
  have hspine : ∀ x < t.grid.rows * t.grid.cols, ∃ y ∈ central.routers, t.Joined x y := by
    intro x hx
    obtain ⟨half, hmem, hxhalf⟩ := r.exists_half_of_lt hx
    obtain ⟨y, hyhalf, hycentral⟩ := r.exists_shared_router hmem
    exact ⟨y, hycentral, s.joined_of_cycle (hhalf half hmem) hxhalf hyhalf⟩
  obtain ⟨x, hx, hax⟩ := hspine a ha
  obtain ⟨y, hy, hby⟩ := hspine b hb
  exact (hax.trans (s.joined_of_cycle hcentral hx hy)).trans hby.symm

/-- Whatever the family, all routers are joined. -/
theorem joined (s : Stages c endpoints t placements wiring) {a b : Nat}
    (ha : a < t.grid.rows * t.grid.cols) (hb : b < t.grid.rows * t.grid.cols) :
    t.Joined a b := by
  cases hfamily : c.family with
  | mesh => exact (s.joined_of_mesh hfamily ha).symm.trans (s.joined_of_mesh hfamily hb)
  | ring => exact s.joined_of_ring hfamily ha hb
  | fullyConnected => exact s.joined_of_fullyConnected hfamily ha hb
  | flattenedButterfly =>
    exact (s.joined_of_flattenedButterfly hfamily ha).symm.trans
      (s.joined_of_flattenedButterfly hfamily hb)
  | hierarchicalRing => exact s.joined_of_hierarchicalRing hfamily ha hb

end Stages

/-! ## Main statement -/

/-- **Connectivity**: every two routers of a synthesized network are joined by a walk. -/
theorem synthesize_connected {c : Configuration} {endpoints : List Endpoint} {t : Topology}
    (h : synthesize c endpoints = .ok t) :
    ∀ a ∈ t.routers, ∀ b ∈ t.routers, ∃ walk, t.Walk a.rank b.rank walk := by
  obtain ⟨placements, wiring, s⟩ := synthesize_stages h
  intro a ha b hb
  exact s.joined (s.rank_lt ha) (s.rank_lt hb)

theorem synthesize_connected_sixByFour :
    ∃ t, synthesize .sixByFour (Endpoint.population 24 0 1) = .ok t ∧
      ∀ a ∈ t.routers, ∀ b ∈ t.routers, ∃ walk, t.Walk a.rank b.rank walk := by
  obtain ⟨t, h⟩ := exists_synthesize_sixByFour
  exact ⟨t, h, synthesize_connected h⟩

end Interconnect
