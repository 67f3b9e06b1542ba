import Interconnect.Escape.Plan
import Interconnect.Grid
import Interconnect.Proofs.Checked
import Mathlib.Algebra.BigOperators.Ring.List
import Mathlib.Algebra.Ring.Nat

/-! # Cells and their ranks

    `Grid.cell` is the rank of a cell as a plain number. On the cells of a grid
    it is one to one, and its values are the ranks below `rows * cols`. In the order
    of their ranks, cells run along one row after the other (`cells_eq`).
-/

namespace Interconnect.Grid

variable {g : Grid}

/-- The rank of the cell at `(row, col)`, as a number. -/
def cell (g : Grid) (row col : Nat) : Nat :=
  col + row * g.cols

theorem rank_ok_iff {row col k : Nat} :
    g.rank row col = .ok k ↔
      row * g.cols < Word.bound ∧ g.cell row col < Word.bound ∧ k = g.cell row col := by
  simp only [rank, bind_eq_ok, Word.mul_ok_iff, Word.add_ok_iff, cell]
  constructor
  · intro h
    obtain ⟨_, ⟨hmul, rfl⟩, hadd, rfl⟩ := h
    exact ⟨hmul, hadd, rfl⟩
  · intro h
    obtain ⟨hmul, hadd, rfl⟩ := h
    exact ⟨_, ⟨hmul, rfl⟩, hadd, rfl⟩

theorem eq_cell_of_rank {row col k : Nat} (h : g.rank row col = .ok k) : k = g.cell row col :=
  (rank_ok_iff.mp h).2.2

theorem size_ok_iff {n : Nat} :
    g.size = .ok n ↔ g.rows * g.cols < Word.bound ∧ n = g.rows * g.cols :=
  Word.mul_ok_iff

/-- A cell of the grid has one of the ranks of the grid. -/
theorem cell_lt {row col : Nat} (hrow : row < g.rows) (hcol : col < g.cols) :
    g.cell row col < g.rows * g.cols := by
  -- the next row starts where the grid ends at the latest
  have hstep : (row + 1) * g.cols ≤ g.rows * g.cols := Nat.mul_le_mul_right _ hrow
  rw [Nat.add_mul, Nat.one_mul] at hstep
  unfold cell
  omega

@[simp] theorem cell_div {row col : Nat} (hcol : col < g.cols) : g.cell row col / g.cols = row := by
  have hpos : 0 < g.cols := by omega
  rw [cell, Nat.add_mul_div_right _ _ hpos, Nat.div_eq_of_lt hcol, Nat.zero_add]

@[simp] theorem cell_mod {row col : Nat} (hcol : col < g.cols) : g.cell row col % g.cols = col := by
  rw [cell, Nat.add_mul_mod_self_right, Nat.mod_eq_of_lt hcol]

/-- Different cells have different ranks. -/
theorem cell_inj {row col row' col' : Nat} (hcol : col < g.cols) (hcol' : col' < g.cols) :
    g.cell row col = g.cell row' col' ↔ row = row' ∧ col = col' := by
  constructor
  · intro h
    have hdiv := congrArg (· / g.cols) h
    have hmod := congrArg (· % g.cols) h
    simp only [cell_div hcol, cell_div hcol', cell_mod hcol, cell_mod hcol'] at hdiv hmod
    exact ⟨hdiv, hmod⟩
  · intro h
    obtain ⟨rfl, rfl⟩ := h
    rfl

/-- Along a row, ranks rise with the columns. -/
theorem cell_lt_cell_along {row col col' : Nat} :
    g.cell row col < g.cell row col' ↔ col < col' := by
  unfold cell
  omega

/-- Up a column, ranks rise with the rows. -/
theorem cell_lt_cell_upward (hcols : 0 < g.cols) {row row' col : Nat} :
    g.cell row col < g.cell row' col ↔ row < row' := by
  unfold cell
  rw [Nat.add_lt_add_iff_left, Nat.mul_lt_mul_right hcols]

theorem mem_cells {row col : Nat} : (row, col) ∈ g.cells ↔ row < g.rows ∧ col < g.cols := by
  simp only [cells, List.mem_map, List.mem_range, Prod.mk.injEq]
  constructor
  · intro h
    obtain ⟨k, hk, rfl, rfl⟩ := h
    -- a grid without columns has no rank `k`
    have hpos : 0 < g.cols := Nat.pos_of_ne_zero fun h => by simp [h] at hk
    exact ⟨Nat.div_lt_of_lt_mul (by rwa [Nat.mul_comm]), Nat.mod_lt _ hpos⟩
  · intro h
    obtain ⟨hrow, hcol⟩ := h
    exact ⟨g.cell row col, cell_lt hrow hcol, cell_div hcol, cell_mod hcol⟩

/-- A rank is that of the cell in its row and its column. -/
theorem cell_div_mod (g : Grid) (r : Nat) : g.cell (r / g.cols) (r % g.cols) = r := by
  rw [cell, Nat.mul_comm]
  exact Nat.mod_add_div r g.cols

/-- Every rank of the grid is that of a cell. -/
theorem exists_cell {r : Nat} (h : r < g.rows * g.cols) :
    ∃ row col, row < g.rows ∧ col < g.cols ∧ r = g.cell row col := by
  have hcols : 0 < g.cols := Nat.pos_of_ne_zero fun h0 => by simp [h0] at h
  exact ⟨r / g.cols, r % g.cols, Nat.div_lt_of_lt_mul (by rwa [Nat.mul_comm]),
    Nat.mod_lt _ hcols, (g.cell_div_mod r).symm⟩

/-- What holds of all cells with their ranks holds of all ranks with their rows and
    columns. -/
theorem forall_rank {P : Nat → Nat → Nat → Prop}
    (h : ∀ row < g.rows, ∀ col < g.cols, P row col (g.cell row col)) :
    ∀ r < g.rows * g.cols, P (r / g.cols) (r % g.cols) r := by
  intro r hr
  obtain ⟨row, col, hrow, hcol, rfl⟩ := exists_cell hr
  rw [cell_div hcol, cell_mod hcol]
  exact h row hrow col hcol

/-! ## Cells in the order of their ranks -/

/-- The cells run along one row after the other. -/
theorem cells_eq (g : Grid) :
    g.cells = (List.range g.rows).flatMap fun row =>
      (List.range g.cols).map fun col => (row, col) := by
  -- by induction on the number of rows, of which each adds a stretch of ranks at the end
  have hrows : ∀ rows, ((List.range (rows * g.cols)).map fun rank =>
      (rank / g.cols, rank % g.cols)) =
        (List.range rows).flatMap fun row => (List.range g.cols).map fun col => (row, col) := by
    intro rows
    induction rows with
    | zero => simp
    | succ rows ih =>
      rw [Nat.succ_mul, List.range_add, List.map_append, ih, List.range_succ, List.flatMap_append,
        List.flatMap_singleton, List.map_map]
      congr 1
      apply List.map_congr_left
      intro col hcol
      have hlt : col < g.cols := List.mem_range.mp hcol
      show ((rows * g.cols + col) / g.cols, (rows * g.cols + col) % g.cols) = (rows, col)
      rw [Nat.add_comm, ← cell, cell_div hlt, cell_mod hlt]
  exact hrows g.rows

/-- How much the cells have in all, where each has one share for its column and another
    one for its row. -/
theorem length_flatMap_cells {α : Type} {f : Nat → Nat → List α} {along upward : Nat → Nat}
    (h : ∀ row col, (f row col).length = along col + upward row) :
    (g.cells.flatMap fun (row, col) => f row col).length =
      g.rows * ((List.range g.cols).map along).sum +
        g.cols * ((List.range g.rows).map upward).sum := by
  -- a row has the shares of all columns, and its own share at each of them
  have hrow : ∀ row, ((List.range g.cols).map fun col => (f row col).length).sum =
      ((List.range g.cols).map along).sum + g.cols * upward row := by
    intro row
    simp only [h, List.sum_map_add, List.map_const', List.sum_replicate_nat, List.length_range]
  rw [cells_eq, List.flatMap_assoc, List.length_flatMap]
  simp only [List.flatMap_map, List.length_flatMap, hrow, List.sum_map_add, List.map_const',
    List.sum_replicate_nat, List.length_range, List.sum_map_mul_left]

/-! ## Edges between neighbouring cells -/

/-- The edge from a cell to its right-hand neighbour. -/
def across (g : Grid) (row col : Nat) : Nat × Nat :=
  (g.cell row col, g.cell row (col + 1))

/-- The edge from a cell to its upper neighbour. -/
def upward (g : Grid) (row col : Nat) : Nat × Nat :=
  (g.cell row col, g.cell (row + 1) col)

theorem edgeKey_across (g : Grid) (row col : Nat) :
    edgeKey (g.cell row col) (g.cell row (col + 1)) = g.across row col :=
  edgeKey_of_lt (cell_lt_cell_along.mpr col.lt_succ_self)

theorem edgeKey_upward (hcols : 0 < g.cols) (row col : Nat) :
    edgeKey (g.cell row col) (g.cell (row + 1) col) = g.upward row col :=
  edgeKey_of_lt ((cell_lt_cell_upward hcols).mpr row.lt_succ_self)

theorem across_inj {row col row' col' : Nat} (hcol : col < g.cols) (hcol' : col' < g.cols) :
    g.across row col = g.across row' col' ↔ row = row' ∧ col = col' := by
  constructor
  · intro h
    exact (cell_inj hcol hcol').mp (congrArg Prod.fst h)
  · intro h
    obtain ⟨rfl, rfl⟩ := h
    rfl

theorem upward_inj {row col row' col' : Nat} (hcol : col < g.cols) (hcol' : col' < g.cols) :
    g.upward row col = g.upward row' col' ↔ row = row' ∧ col = col' := by
  constructor
  · intro h
    exact (cell_inj hcol hcol').mp (congrArg Prod.fst h)
  · intro h
    obtain ⟨rfl, rfl⟩ := h
    rfl

/-- No edge runs along a row and along a column. -/
theorem across_ne_upward {row col row' col' : Nat} (hcol : col + 1 < g.cols)
    (hcol' : col' < g.cols) : g.across row col ≠ g.upward row' col' := by
  intro h
  -- from the same cell, one edge leads to another column and the other does not
  obtain ⟨rfl, rfl⟩ := (cell_inj (show col < g.cols by omega) hcol').mp (congrArg Prod.fst h)
  have hnext := (cell_inj hcol hcol').mp (congrArg Prod.snd h)
  omega

end Interconnect.Grid
