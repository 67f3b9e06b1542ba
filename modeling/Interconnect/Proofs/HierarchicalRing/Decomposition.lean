import Interconnect.Proofs.HierarchicalRing.Escape
import Interconnect.Proofs.WellFormed

/-! # What a hierarchical ring is made of

    The plan of a hierarchical ring holds a half-ring for each side of each row pair,
    and the central ring.

    * The half-rings share no router, and leave none out.
    * The edges of the network are the pairs of routers that follow each other on one
      of the rings.
    * The central ring runs through every half-ring: twice, but once only in the first
      and in the last row pair, of which it leaves out the outermost row.

    `hierarchicalRing_decomposition` is the main statement.
-/

namespace Interconnect

open Escape (Cycle Plan Role Side)

/-- The half-rings and the central ring that a hierarchical ring is made of. -/
structure Topology.RingDecomposition (t : Topology) (halves : List Cycle) (central : Cycle) :
    Prop where
  half_count : halves.length = t.grid.rows
  half_roles_nodup : (halves.map (·.role)).Nodup
  /-- There is a half-ring for each side of each row pair, and no other one. -/
  half_role_iff : ∀ role, (∃ c ∈ halves, c.role = role) ↔
    ∃ rowPair side, rowPair < t.grid.rows / 2 ∧ role = .halfRing rowPair side
  central_role : central.role = .central
  /-- Every router lies on exactly one half-ring. -/
  partition : ∀ r ∈ t.routers, ∃! c, c ∈ halves ∧ r.rank ∈ c.routers
  /-- All half-rings together visit every router once, and nothing else. -/
  half_routers : (halves.flatMap (·.routers)).Perm (t.routers.map (·.rank))
  /-- Edges join the routers that follow each other on a ring, where the first router of
      a ring follows the last. -/
  edge_iff : ∀ a b,
    (∃ l ∈ t.edges, (l.source = a ∧ l.target = b) ∨ (l.source = b ∧ l.target = a)) ↔
      ∃ c ∈ halves ++ [central], c.Consecutive a b
  /-- How many routers the central ring shares with a half-ring. -/
  shared : ∀ c ∈ halves, ∀ rowPair side, c.role = .halfRing rowPair side →
    (central.routers.countP fun x => x ∈ c.routers) =
      if rowPair = 0 ∨ rowPair + 1 = t.grid.rows / 2 then 1 else 2

namespace HierarchicalRings

variable {g : Grid} {halves : List Cycle} {central : Cycle} {c : Cycle}

/-! ## Half-rings -/

theorem half_role_iff (r : HierarchicalRings g halves central) {role : Role} :
    (∃ c ∈ halves, c.role = role) ↔
      ∃ rowPair side, rowPair < g.rows / 2 ∧ role = .halfRing rowPair side := by
  constructor
  · intro h
    obtain ⟨c, hc, rfl⟩ := h
    obtain ⟨rowPair, side, hrow, hrole, -⟩ := r.half_cases hc
    exact ⟨rowPair, side, hrow, hrole⟩
  · intro h
    obtain ⟨rowPair, side, hrow, rfl⟩ := h
    exact r.exists_half hrow side

/-- A half-ring stays on the grid. -/
theorem half_router_lt (r : HierarchicalRings g halves central) (hc : c ∈ halves) {x : Nat}
    (hx : x ∈ c.routers) : x < g.rows * g.cols := by
  have heven := r.rows_even
  obtain ⟨rowPair, side, hpair, hrole, -⟩ := r.half_cases hc
  obtain ⟨row, col, hrow, hcol, -, rfl⟩ := (r.mem_half_routers hc hrole).mp hx
  exact Grid.cell_lt (by omega) hcol

/-- The half-rings visit every rank of the grid once. -/
theorem half_routers_perm (r : HierarchicalRings g halves central) :
    (halves.flatMap (·.routers)).Perm (List.range (g.rows * g.cols)) := by
  have hnodup : (halves.flatMap (·.routers)).Nodup :=
    r.nodup_flatMap_halves (fun c => c.nodup) fun c hc c' hc' x => r.half_unique hc hc'
  apply (List.perm_ext_iff_of_nodup hnodup List.nodup_range).mpr
  intro x
  rw [List.mem_flatMap, List.mem_range]
  constructor
  · intro h
    obtain ⟨c, hc, hx⟩ := h
    exact r.half_router_lt hc hx
  · intro h
    exact r.exists_half_of_lt h

/-! ## Shared routers -/

/-- The central ring passes the inner rows of the row pair, once each. -/
theorem shared_perm (r : HierarchicalRings g halves central) (hc : c ∈ halves) {rowPair : Nat}
    {side : Side} (hrole : c.role = .halfRing rowPair side) :
    (central.routers.filter fun x => x ∈ c.routers).Perm
      (([2 * rowPair, 2 * rowPair + 1].filter fun row => 1 ≤ row ∧ row + 1 < g.rows).map
        fun row => g.cell row (Wiring.middleColumn g side)) := by
  have hcolumn : Wiring.middleColumn g side < g.cols := by
    have hfour := r.four_le_cols
    cases side with
    | left => show g.cols / 2 - 1 < g.cols; omega
    | right => show g.cols / 2 < g.cols; omega
  have hrows : ([2 * rowPair, 2 * rowPair + 1].filter fun row =>
      1 ≤ row ∧ row + 1 < g.rows).Nodup := List.Nodup.filter _ (by simp)
  have hcells : (([2 * rowPair, 2 * rowPair + 1].filter fun row =>
      1 ≤ row ∧ row + 1 < g.rows).map fun row => g.cell row (Wiring.middleColumn g side)).Nodup :=
    hrows.map fun _ _ hsame => ((Grid.cell_inj hcolumn hcolumn).mp hsame).1
  apply (List.perm_ext_iff_of_nodup (central.nodup.filter _) hcells).mpr
  intro x
  simp only [List.mem_filter, List.mem_map, List.mem_cons, List.not_mem_nil, or_false,
    decide_eq_true_eq]
  rw [and_comm, r.mem_shared_iff hc hrole]
  constructor
  · intro h
    obtain ⟨row, hrow, hlow, hhigh, rfl⟩ := h
    exact ⟨row, ⟨by omega, hlow, hhigh⟩, rfl⟩
  · intro h
    obtain ⟨row, ⟨hrow, hlow, hhigh⟩, rfl⟩ := h
    exact ⟨row, by omega, hlow, hhigh, rfl⟩

/-- Of the first and of the last row pair only one row is an inner row. -/
theorem countP_shared_routers (r : HierarchicalRings g halves central) (hc : c ∈ halves)
    {rowPair : Nat} {side : Side} (hrole : c.role = .halfRing rowPair side) :
    (central.routers.countP fun x => x ∈ c.routers) =
      if rowPair = 0 ∨ rowPair + 1 = g.rows / 2 then 1 else 2 := by
  have hrows := r.four_le_rows
  have heven := r.rows_even
  have hpair : rowPair < g.rows / 2 := by
    obtain ⟨rowPair', side', hpair, hrole', -⟩ := r.half_cases hc
    rw [hrole, Role.halfRing.injEq] at hrole'
    rwa [hrole'.1]
  rw [List.countP_eq_length_filter, (r.shared_perm hc hrole).length_eq, List.length_map]
  by_cases hfirst : rowPair = 0
  · have hupper : 2 < g.rows := by omega
    simp [hfirst, hupper]
  · have hlower : 1 ≤ 2 * rowPair ∧ 2 * rowPair + 1 < g.rows := by omega
    by_cases hlast : rowPair + 1 = g.rows / 2
    · have hupper : ¬ 2 * rowPair + 1 + 1 < g.rows := by omega
      simp [hlast, hlower, hupper]
    · have hupper : 2 * rowPair + 1 + 1 < g.rows := by omega
      simp [hfirst, hlast, hlower, hupper]

end HierarchicalRings

/-! ## Main statement -/

/-- **Decomposition**: the plan of a synthesized hierarchical ring holds its half-rings and
    its central ring, and these make up the network. -/
theorem hierarchicalRing_decomposition {c : Configuration} {endpoints : List Endpoint}
    {t : Topology} (h : synthesize c endpoints = .ok t) (hfamily : c.family = .hierarchicalRing) :
    ∃ plan halves central, t.plan = some plan ∧ plan.cycles = halves ++ [central] ∧
      t.RingDecomposition halves central := by
  obtain ⟨placements, wiring, s⟩ := synthesize_stages h
  obtain ⟨halves, central, r, rfl⟩ := s.hierarchicalRings hfamily
  refine ⟨_, halves, central, s.plan, Plan.ofCycles_cycles, {
    half_count := r.length_halves
    half_roles_nodup := r.nodup_half_roles
    half_role_iff := fun role => r.half_role_iff
    central_role := r.central_role
    partition := ?_
    half_routers := by rw [s.ranks_eq]; exact r.half_routers_perm
    edge_iff := ?_
    shared := fun c hc rowPair side hrole => r.countP_shared_routers hc hrole }⟩
  · intro x hx
    obtain ⟨c, hc, hmem⟩ := r.exists_half_of_lt (s.rank_lt hx)
    refine ⟨c, ⟨hc, hmem⟩, ?_⟩
    intro c' h'
    exact r.half_unique h'.1 hc h'.2 hmem
  · intro a b
    have hedge : (∃ l ∈ t.edges, l.edge = edgeKey a b) ↔
        (∃ c ∈ halves, edgeKey a b ∈ c.keys) ∨ edgeKey a b ∈ central.keys :=
      HierarchicalRings.exists_edge_iff s
    simp only [InternalLink.edge, edgeKey_eq_iff, Cycle.mem_keys_iff] at hedge
    rw [hedge]
    simp only [List.mem_append, List.mem_singleton, or_and_right, exists_or, exists_eq_left]

theorem hierarchicalRing_decomposition_sixByFour :
    ∃ t plan halves central, synthesize .sixByFour (Endpoint.population 24 0 1) = .ok t ∧
      t.plan = some plan ∧ plan.cycles = halves ++ [central] ∧
      t.RingDecomposition halves central := by
  obtain ⟨t, h⟩ := exists_synthesize_sixByFour
  obtain ⟨plan, halves, central, hplan, hcycles, hrings⟩ := hierarchicalRing_decomposition h rfl
  exact ⟨t, plan, halves, central, h, hplan, hcycles, hrings⟩

end Interconnect
