import Interconnect.Proofs.Grid
import Interconnect.Proofs.Wiring.Places

/-! # Lattices in closed form

    The proposals of the lattice families without the arithmetic of words: what
    each cell or router proposes, and that they do so in rank order.
-/

namespace Interconnect.Wiring

variable {g : Grid} {row col : Nat} {p : Proposal} {ps : List Proposal}

/-! ## Meshes -/

/-- What a cell of a mesh proposes. -/
def meshCell (g : Grid) (row col : Nat) : List Proposal :=
  (if col + 1 < g.cols then [⟨g.cell row col, g.cell row (col + 1), .row⟩] else []) ++
    (if row + 1 < g.rows then [⟨g.cell row col, g.cell (row + 1) col, .column⟩] else [])

/-- The proposals of a mesh: from a cell to its right-hand or to its upper neighbour. -/
inductive MeshProposal (g : Grid) : Proposal → Prop where
  | along {row col : Nat} (hrow : row < g.rows) (hcol : col + 1 < g.cols) :
      MeshProposal g ⟨g.cell row col, g.cell row (col + 1), .row⟩
  | upward {row col : Nat} (hrow : row + 1 < g.rows) (hcol : col < g.cols) :
      MeshProposal g ⟨g.cell row col, g.cell (row + 1) col, .column⟩

theorem mem_meshCell :
    p ∈ meshCell g row col ↔
      (col + 1 < g.cols ∧ p = ⟨g.cell row col, g.cell row (col + 1), .row⟩) ∨
        (row + 1 < g.rows ∧ p = ⟨g.cell row col, g.cell (row + 1) col, .column⟩) := by
  by_cases hcol : col + 1 < g.cols
  · by_cases hrow : row + 1 < g.rows
    · simp [meshCell, hcol, hrow]
    · simp [meshCell, hcol, hrow]
  · by_cases hrow : row + 1 < g.rows
    · simp [meshCell, hcol, hrow]
    · simp [meshCell, hcol, hrow]

theorem mem_meshCells_iff :
    (p ∈ g.cells.flatMap fun (row, col) => meshCell g row col) ↔ MeshProposal g p := by
  simp only [List.mem_flatMap, Prod.exists, Grid.mem_cells, mem_meshCell]
  constructor
  · intro hp
    obtain ⟨row, col, ⟨hrow, hcol⟩, ⟨hnext, rfl⟩ | ⟨hnext, rfl⟩⟩ := hp
    · exact .along hrow hnext
    · exact .upward hnext hcol
  · intro hp
    cases hp with
    | @along row col hrow hcol => exact ⟨row, col, ⟨hrow, by omega⟩, .inl ⟨hcol, rfl⟩⟩
    | @upward row col hrow hcol => exact ⟨row, col, ⟨by omega, hcol⟩, .inr ⟨hrow, rfl⟩⟩

/-! ## Flattened butterflies -/

/-- What a cell of a flattened butterfly proposes. -/
def butterflyCell (g : Grid) (row col : Nat) : List Proposal :=
  (steps g.cols).map (fun x => ⟨g.cell row col, g.cell row ((col + x) % g.cols), .row⟩) ++
    (steps g.rows).map fun y => ⟨g.cell row col, g.cell ((row + y) % g.rows) col, .column⟩

/-- A cell proposes the cells around it, in its row and in its column. -/
theorem butterflyCell_eq (g : Grid) (row col : Nat) :
    butterflyCell g row col =
      (placesAround g.cols col).map (fun col' => ⟨g.cell row col, g.cell row col', .row⟩) ++
        (placesAround g.rows row).map
          fun row' => ⟨g.cell row col, g.cell row' col, .column⟩ := by
  rw [placesAround, placesAround, List.map_map, List.map_map]
  rfl

theorem mem_butterflyCell (hrow : row < g.rows) (hcol : col < g.cols) :
    p ∈ butterflyCell g row col ↔
      (∃ col' < g.cols, col' ≠ col ∧ p = ⟨g.cell row col, g.cell row col', .row⟩) ∨
        ∃ row' < g.rows, row' ≠ row ∧ p = ⟨g.cell row col, g.cell row' col, .column⟩ := by
  simp only [butterflyCell_eq, List.mem_append, List.mem_map, mem_placesAround hcol,
    mem_placesAround hrow, and_assoc, eq_comm (b := p)]

/-! ## Fully connected networks -/

/-- What a router of a fully connected network proposes. -/
def completeFrom (n a : Nat) : List Proposal :=
  ((List.range n).filter (· ≠ a)).map fun b => ⟨a, b, .direct⟩

theorem complete_eq (n : Nat) : complete n = (List.range n).flatMap (completeFrom n) :=
  rfl

theorem mem_completeFrom {n a : Nat} :
    p ∈ completeFrom n a ↔ ∃ b < n, b ≠ a ∧ p = ⟨a, b, .direct⟩ := by
  simp only [completeFrom, List.mem_map, List.mem_filter, List.mem_range, decide_eq_true_eq,
    and_assoc, eq_comm (b := p)]

theorem mem_complete {n : Nat} :
    p ∈ complete n ↔ ∃ a < n, ∃ b < n, b ≠ a ∧ p = ⟨a, b, .direct⟩ := by
  simp only [complete_eq, List.mem_flatMap, List.mem_range, mem_completeFrom]

/-! ## Runs over the cells -/

/-- Cells that can only propose one list each propose those lists in rank order. -/
theorem overCells_cases {proposals : Nat → Nat → Checked (List Proposal)}
    {proposed : Nat → Nat → List Proposal}
    (only : ∀ row col here, proposals row col = .ok here → here = proposed row col)
    (h : overCells g proposals = .ok ps) :
    ps = g.cells.flatMap fun (row, col) => proposed row col := by
  simp only [overCells, bind_eq_ok, pure_eq_ok] at h
  obtain ⟨lists, hlists, rfl⟩ := h
  rw [List.flatMap, eq_map_of_mapM ?_ hlists]
  intro cell here hhere
  exact only cell.1 cell.2 here hhere

theorem mesh_cases (h : mesh g = .ok ps) :
    ps = g.cells.flatMap fun (row, col) => meshCell g row col := by
  refine overCells_cases ?_ h
  intro row col here hhere
  simp only [bind_eq_ok, Grid.rank_ok_iff, Word.add_ok_iff, ite_eq_ok, pure_eq_ok] at hhere
  obtain ⟨_, ⟨-, -, rfl⟩, _, ⟨-, rfl⟩, hhere⟩ := hhere
  unfold meshCell
  -- on the right and the upper border a cell has one neighbour less
  rcases hhere with ⟨hcol, _, ⟨-, -, rfl⟩, _, rfl, _, ⟨-, rfl⟩, hhere⟩ |
    ⟨hcol, _, rfl, _, ⟨-, rfl⟩, hhere⟩
  · rcases hhere with ⟨hrow, _, ⟨-, -, rfl⟩, _, rfl, rfl⟩ | ⟨hrow, _, rfl, rfl⟩
    · rw [if_pos hcol, if_pos hrow]
    · rw [if_pos hcol, if_neg hrow]
  · rcases hhere with ⟨hrow, _, ⟨-, -, rfl⟩, _, rfl, rfl⟩ | ⟨hrow, _, rfl, rfl⟩
    · rw [if_neg hcol, if_pos hrow]
    · rw [if_neg hcol, if_neg hrow]

theorem flattenedButterfly_cases (h : flattenedButterfly g = .ok ps) :
    ps = g.cells.flatMap fun (row, col) => butterflyCell g row col := by
  refine overCells_cases ?_ h
  intro row col here hhere
  simp only [bind_eq_ok, Grid.rank_ok_iff, pure_eq_ok] at hhere
  obtain ⟨_, ⟨-, -, rfl⟩, alongRow, hrow, alongColumn, hcolumn, rfl⟩ := hhere
  unfold butterflyCell
  rw [eq_map_of_mapM ?_ hrow, eq_map_of_mapM ?_ hcolumn]
  · intro y p hp
    simp only [around, bind_eq_ok, Word.add_ok_iff, Word.rem_ok_iff, Grid.rank_ok_iff,
      pure_eq_ok] at hp
    obtain ⟨_, ⟨_, ⟨-, rfl⟩, -, rfl⟩, _, ⟨-, -, rfl⟩, rfl⟩ := hp
    rfl
  · intro x p hp
    simp only [around, bind_eq_ok, Word.add_ok_iff, Word.rem_ok_iff, Grid.rank_ok_iff,
      pure_eq_ok] at hp
    obtain ⟨_, ⟨_, ⟨-, rfl⟩, -, rfl⟩, _, ⟨-, -, rfl⟩, rfl⟩ := hp
    rfl

end Interconnect.Wiring
