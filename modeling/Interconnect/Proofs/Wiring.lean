import Interconnect.Wiring
import Interconnect.Proofs.Wiring.Lattice
import Interconnect.Proofs.Wiring.Rings

/-! # Wirings stay within their grid

    Every router that a family proposes to join, and every router on a cycle of
    its plan, is one of the routers of the grid.
-/

namespace Interconnect

open Escape (Cycle)

/-- Both ends of a proposal are below a number. -/
def Proposal.Within (n : Nat) (p : Proposal) : Prop :=
  p.source < n ∧ p.target < n

namespace Wiring

variable {g : Grid}

/-! ## Lattices -/

theorem MeshProposal.within {p : Proposal} (hp : MeshProposal g p) :
    p.Within (g.rows * g.cols) := by
  cases hp with
  | along hrow hcol => exact ⟨Grid.cell_lt hrow (by omega), Grid.cell_lt hrow hcol⟩
  | upward hrow hcol => exact ⟨Grid.cell_lt (by omega) hcol, Grid.cell_lt hrow hcol⟩

theorem butterflyCell_within {row col : Nat} (hrow : row < g.rows) (hcol : col < g.cols) :
    ∀ p ∈ butterflyCell g row col, p.Within (g.rows * g.cols) := by
  intro p hp
  rcases (mem_butterflyCell hrow hcol).mp hp with ⟨x, hx, -, rfl⟩ | ⟨y, hy, -, rfl⟩
  · exact ⟨Grid.cell_lt hrow hcol, Grid.cell_lt hrow hx⟩
  · exact ⟨Grid.cell_lt hrow hcol, Grid.cell_lt hy hcol⟩

/-- What holds of the proposals of every cell holds of all proposals. -/
theorem forall_flatMap_cells {proposed : Nat → Nat → List Proposal} {P : Proposal → Prop}
    (h : ∀ row col, row < g.rows → col < g.cols → ∀ p ∈ proposed row col, P p) :
    ∀ p ∈ g.cells.flatMap fun (row, col) => proposed row col, P p := by
  intro p hp
  obtain ⟨⟨row, col⟩, hcell, hp⟩ := List.mem_flatMap.mp hp
  obtain ⟨hrow, hcol⟩ := Grid.mem_cells.mp hcell
  exact h row col hrow hcol p hp

theorem complete_within (n : Nat) : ∀ p ∈ complete n, p.Within n := by
  intro p hp
  obtain ⟨source, hsource, target, htarget, -, rfl⟩ := mem_complete.mp hp
  exact ⟨hsource, htarget⟩

/-! ## Rings -/

theorem ringCycle_within {n : Nat} {c : Cycle} (h : ringCycle n = .ok c) :
    ∀ r ∈ c.routers, r < n := by
  intro r hr
  rw [(ringCycle_cases h).2] at hr
  exact List.mem_range.mp hr

theorem halfRings_within {halves : List Cycle} (h : halfRings g = .ok halves) :
    ∀ c ∈ halves, ∀ r ∈ c.routers, r < g.rows * g.cols := by
  intro c hc r hr
  obtain ⟨rowPair, side, hrow, hring⟩ := exists_of_mem_halfRings h hc
  rw [(halfRing_cases hring).2, Cycle.mem_loop] at hr
  obtain ⟨i, hi, rfl | rfl⟩ := hr
  · exact Grid.cell_lt (by omega) (firstColumn_add_lt hi)
  · exact Grid.cell_lt (by omega) (firstColumn_add_lt hi)

theorem centralRing_within {c : Cycle} (hcols : 0 < g.cols) (h : centralRing g = .ok c) :
    ∀ r ∈ c.routers, r < g.rows * g.cols := by
  intro r hr
  rw [(centralRing_cases h).2, Cycle.mem_loop] at hr
  obtain ⟨i, hi, rfl | rfl⟩ := hr
  · exact Grid.cell_lt (by omega) (by omega)
  · exact Grid.cell_lt (by omega) (by omega)

/-- Edges of cycles that stay within the grid are proposed within it. -/
theorem hierarchicalProposals_within {halves : List Cycle} {central : Cycle} {n : Nat}
    (hhalves : ∀ c ∈ halves, ∀ r ∈ c.routers, r < n) (hcentral : ∀ r ∈ central.routers, r < n) :
    ∀ p ∈ hierarchicalProposals halves central, p.Within n := by
  intro p hp
  obtain ⟨c, hc, a, b, hedge, hends⟩ := exists_of_mem_hierarchicalProposals hp
  have hrouters : ∀ r ∈ c.routers, r < n := by
    rcases List.mem_append.mp hc with hhalf | hlast
    · exact hhalves c hhalf
    · rw [List.mem_singleton.mp hlast]
      exact hcentral
  obtain ⟨ha, hb⟩ := Cycle.mem_of_mem_edges hedge
  -- the proposal has the ends of the edge, in one order or the other
  rcases edgeKey_cases a b with hkey | hkey
  · rw [hkey, Prod.mk.injEq] at hends
    rw [Proposal.Within, ← hends.1, ← hends.2]
    exact ⟨hrouters a ha, hrouters b hb⟩
  · rw [hkey, Prod.mk.injEq] at hends
    rw [Proposal.Within, ← hends.1, ← hends.2]
    exact ⟨hrouters b hb, hrouters a ha⟩

end Wiring

/-! ## All families -/

/-- A family proposes no router that is not on its grid. -/
theorem Family.wiring_within {family : Family} {g : Grid} {w : Wiring} (hcols : 0 < g.cols)
    (h : family.wiring g = .ok w) : ∀ p ∈ w.proposals, p.Within (g.rows * g.cols) := by
  cases family with
  | mesh =>
    simp only [wiring, bind_eq_ok, liftM_eq_ok, pure_eq_ok] at h
    obtain ⟨ps, hps, rfl⟩ := h
    rw [Wiring.mesh_cases hps]
    exact fun p hp => (Wiring.mem_meshCells_iff.mp hp).within
  | ring =>
    simp only [wiring, bind_eq_ok, liftM_eq_ok, pure_eq_ok, Grid.size_ok_iff] at h
    obtain ⟨_, ⟨-, rfl⟩, c, hc, rfl⟩ := h
    intro p hp
    obtain ⟨⟨a, b⟩, hedge, rfl⟩ := List.mem_map.mp hp
    obtain ⟨ha, hb⟩ := Cycle.mem_of_mem_edges hedge
    exact ⟨Wiring.ringCycle_within hc a ha, Wiring.ringCycle_within hc b hb⟩
  | fullyConnected =>
    simp only [wiring, bind_eq_ok, liftM_eq_ok, pure_eq_ok, Grid.size_ok_iff] at h
    obtain ⟨_, ⟨-, rfl⟩, rfl⟩ := h
    exact Wiring.complete_within _
  | flattenedButterfly =>
    simp only [wiring, bind_eq_ok, liftM_eq_ok, pure_eq_ok] at h
    obtain ⟨ps, hps, rfl⟩ := h
    rw [Wiring.flattenedButterfly_cases hps]
    exact Wiring.forall_flatMap_cells fun _ _ => Wiring.butterflyCell_within
  | hierarchicalRing =>
    simp only [wiring, bind_eq_ok, pure_eq_ok] at h
    obtain ⟨halves, hhalves, central, hcentral, rfl⟩ := h
    exact Wiring.hierarchicalProposals_within (Wiring.halfRings_within hhalves)
      (Wiring.centralRing_within hcols hcentral)

end Interconnect
