import Interconnect.Wiring.Rings
import Interconnect.Proofs.Draft
import Interconnect.Proofs.Escape.Cycle
import Interconnect.Proofs.Grid

/-! # Rings in closed form

    The cycles of the ring families without the arithmetic of words. A half-ring
    is a loop out along its lower row and back along its upper row, and the
    central ring one up the column left of the middle and down the column right
    of it.
-/

namespace Interconnect.Wiring

open Escape (Cycle Role Side)

variable {g : Grid}

theorem ringCycle_cases {n : Nat} {c : Cycle} (h : ringCycle n = .ok c) :
    c.role = .ring ∧ c.routers = List.range n :=
  Cycle.ofRouters_cases h

/-- The edges proposed for a ring are those of its cycle. -/
theorem exists_ringProposals_iff {c : Cycle} {key : Nat × Nat} :
    (∃ p ∈ ringProposals c, p.key = key) ↔ key ∈ c.keys := by
  rw [← List.mem_map, ringProposals, List.map_map]
  rfl

/-! ## Half-rings -/

/-- The first column of a half. -/
def firstColumn (g : Grid) : Side → Nat
  | .left => 0
  | .right => g.cols / 2

/-- The number of columns of a half. -/
def halfWidth (g : Grid) : Side → Nat
  | .left => g.cols / 2
  | .right => g.cols - g.cols / 2

theorem halfColumns_eq (g : Grid) (side : Side) :
    halfColumns g side = (List.range (halfWidth g side)).map fun i => firstColumn g side + i := by
  cases side with
  | left =>
    simp only [halfColumns, halfWidth, firstColumn, Nat.zero_add, List.map_id']
    rw [List.take_range, Nat.min_eq_left (Nat.div_le_self _ _)]
  | right =>
    simp only [halfColumns, halfWidth, firstColumn]
    rw [List.range_eq_range', List.drop_range', List.range'_eq_map_range]
    simp

/-- The column of a half that lies next to the middle. -/
def middleColumn (g : Grid) : Side → Nat
  | .left => g.cols / 2 - 1
  | .right => g.cols / 2

/-- The columns of a half are columns of the grid. -/
theorem firstColumn_add_lt {side : Side} {i : Nat} (hi : i < halfWidth g side) :
    firstColumn g side + i < g.cols := by
  cases side with
  | left =>
    simp only [firstColumn, halfWidth] at hi ⊢
    omega
  | right =>
    simp only [firstColumn, halfWidth] at hi ⊢
    omega

/-- The columns of a half, where both halves have the same width. -/
theorem exists_firstColumn_add_iff (heven : g.cols % 2 = 0) {side : Side} {col : Nat} :
    (∃ i < g.cols / 2, col = firstColumn g side + i) ↔
      col < g.cols ∧ (side = .left ↔ col < g.cols / 2) := by
  constructor
  · intro h
    obtain ⟨i, hi, rfl⟩ := h
    cases side with
    | left => simp only [firstColumn, true_iff]; omega
    | right => simp only [firstColumn, reduceCtorEq, false_iff]; omega
  · intro h
    obtain ⟨hcol, hside⟩ := h
    refine ⟨col - firstColumn g side, ?_⟩
    cases side with
    | left =>
      have hlt : col < g.cols / 2 := hside.mp rfl
      simp only [firstColumn]
      omega
    | right =>
      have hle : ¬ col < g.cols / 2 := by simp [← hside]
      simp only [firstColumn]
      omega

/-- The router of a half-ring that lies `i` columns from its left end, on the
    lower or the upper row of its pair. -/
def halfCell (g : Grid) (side : Side) (row i : Nat) : Nat :=
  g.cell row (firstColumn g side + i)

/-- The ranks along the two rows of a half-ring, out and back. -/
theorem halfRing_routers {side : Side} {lower upper : Nat} {out back : List Nat}
    (hout : (halfColumns g side).mapM (fun col => liftM (g.rank lower col)) =
      (.ok out : Except SynthesisError (List Nat)))
    (hback : (halfColumns g side).reverse.mapM (fun col => liftM (g.rank upper col)) =
      (.ok back : Except SynthesisError (List Nat))) :
    out ++ back =
      Cycle.loop (halfCell g side lower) (halfCell g side upper) (halfWidth g side) := by
  have hcell : ∀ row col k, (liftM (g.rank row col) : Except SynthesisError Nat) = .ok k →
      k = g.cell row col := by
    intro row col k hk
    exact Grid.eq_cell_of_rank (liftM_eq_ok.mp hk)
  rw [eq_map_of_mapM (hcell _) hout, eq_map_of_mapM (hcell _) hback, halfColumns_eq,
    ← List.map_reverse, List.map_map, List.map_map]
  rfl

theorem halfRing_cases {rowPair : Nat} {side : Side} {c : Cycle}
    (h : halfRing g rowPair side = .ok c) :
    c.role = .halfRing rowPair side ∧
      c.routers = Cycle.loop (halfCell g side (2 * rowPair)) (halfCell g side (2 * rowPair + 1))
        (halfWidth g side) := by
  simp only [halfRing, bind_eq_ok, liftM_eq_ok, Word.mul_ok_iff, Word.add_ok_iff] at h
  obtain ⟨_, ⟨-, rfl⟩, _, ⟨-, rfl⟩, out, hout, back, hback, hcycle⟩ := h
  obtain ⟨hrole, hrouters⟩ := Cycle.ofRouters_cases hcycle
  exact ⟨hrole, hrouters.trans (halfRing_routers hout hback)⟩

/-- The half-rings are those of the left half, from the lowest pair of rows, and
    then those of the right half. -/
theorem halfRings_roles {halves : List Cycle} (h : halfRings g = .ok halves) :
    halves.map (·.role) = (List.range (g.rows / 2)).map (Role.halfRing · .left) ++
      (List.range (g.rows / 2)).map (Role.halfRing · .right) := by
  simp only [halfRings, bind_eq_ok, pure_eq_ok] at h
  obtain ⟨lefts, hlefts, rights, hrights, rfl⟩ := h
  -- whatever its routers, a half-ring has the role that it was asked for
  have hrole : ∀ side rowPair c, halfRing g rowPair side = .ok c →
      c.role = .halfRing rowPair side := by
    intro side rowPair c hc
    exact (halfRing_cases hc).1
  rw [List.map_append, map_eq_map_of_mapM (hrole .left) hlefts,
    map_eq_map_of_mapM (hrole .right) hrights]

/-- Every half-ring lies on a pair of rows of the grid. -/
theorem exists_of_mem_halfRings {halves : List Cycle} {c : Cycle} (h : halfRings g = .ok halves)
    (hc : c ∈ halves) : ∃ rowPair side, rowPair < g.rows / 2 ∧ halfRing g rowPair side = .ok c := by
  simp only [halfRings, bind_eq_ok, pure_eq_ok] at h
  obtain ⟨lefts, hlefts, rights, hrights, rfl⟩ := h
  rcases List.mem_append.mp hc with hc | hc
  · obtain ⟨rowPair, hrow, hring⟩ := exists_of_mem_mapM hlefts hc
    exact ⟨rowPair, .left, List.mem_range.mp hrow, hring⟩
  · obtain ⟨rowPair, hrow, hring⟩ := exists_of_mem_mapM hrights hc
    exact ⟨rowPair, .right, List.mem_range.mp hrow, hring⟩

/-! ## The central ring -/

theorem interiorRows_cases {rows : List Nat} (h : interiorRows g = .ok rows) :
    rows = (List.range (g.rows - 2)).map (· + 1) := by
  simp only [interiorRows, bind_eq_ok, Word.sub_ok_iff, pure_eq_ok] at h
  obtain ⟨_, ⟨-, rfl⟩, rfl⟩ := h
  rw [List.range_eq_range', List.drop_range', List.range'_eq_map_range]
  simp [Nat.sub_sub, Nat.add_comm]

/-- The router of the central ring in the `i`-th interior row and a column. -/
def spineCell (g : Grid) (col i : Nat) : Nat :=
  g.cell (i + 1) col

/-- The ranks along the two middle columns of the central ring, up and down. -/
theorem centralRing_routers {rows up down : List Nat} (hrows : interiorRows g = .ok rows)
    (hup : rows.mapM (fun row => do g.rank row (← Word.sub (g.cols / 2) 1)) =
      (.ok up : Except SynthesisError (List Nat)))
    (hdown : rows.reverse.mapM (fun row => liftM (g.rank row (g.cols / 2))) =
      (.ok down : Except SynthesisError (List Nat))) :
    up ++ down = Cycle.loop (spineCell g (g.cols / 2 - 1)) (spineCell g (g.cols / 2))
      (g.rows - 2) := by
  have hupCell : up = rows.map fun row => g.cell row (g.cols / 2 - 1) := by
    refine eq_map_of_mapM ?_ hup
    intro row k hk
    simp only [bind_eq_ok, liftM_eq_ok, Word.sub_ok_iff, Grid.rank_ok_iff] at hk
    obtain ⟨_, ⟨-, rfl⟩, -, -, rfl⟩ := hk
    rfl
  have hdownCell : down = rows.reverse.map fun row => g.cell row (g.cols / 2) := by
    refine eq_map_of_mapM ?_ hdown
    intro row k hk
    exact Grid.eq_cell_of_rank (liftM_eq_ok.mp hk)
  rw [hupCell, hdownCell, interiorRows_cases hrows, ← List.map_reverse, List.map_map,
    List.map_map]
  rfl

theorem centralRing_cases {c : Cycle} (h : centralRing g = .ok c) :
    c.role = .central ∧
      c.routers = Cycle.loop (spineCell g (g.cols / 2 - 1)) (spineCell g (g.cols / 2))
        (g.rows - 2) := by
  simp only [centralRing, bind_eq_ok, liftM_eq_ok] at h
  obtain ⟨rows, hrows, up, hup, down, hdown, hcycle⟩ := h
  obtain ⟨hrole, hrouters⟩ := Cycle.ofRouters_cases hcycle
  refine ⟨hrole, hrouters.trans (centralRing_routers hrows ?_ hdown)⟩
  simpa only [bind_eq_ok, liftM_eq_ok] using hup

/-! ## Proposals of a hierarchical ring -/

/-- A proposal runs over an edge of a ring, from its smaller to its larger router. -/
theorem exists_of_mem_hierarchicalProposals {halves : List Cycle} {central : Cycle} {p : Proposal}
    (hp : p ∈ hierarchicalProposals halves central) :
    ∃ c ∈ halves ++ [central], ∃ a b, (a, b) ∈ c.edges ∧
      edgeKey a b = (p.source, p.target) := by
  obtain ⟨⟨a, b⟩, hedge, rfl⟩ := List.mem_map.mp hp
  rcases List.mem_append.mp hedge with hhalf | hcentral
  · obtain ⟨c, hc, hedge⟩ := List.mem_flatMap.mp hhalf
    exact ⟨c, List.mem_append_left _ hc, a, b, hedge, rfl⟩
  · exact ⟨central, by simp, a, b, hcentral, rfl⟩

end Interconnect.Wiring
