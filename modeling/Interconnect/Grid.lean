import Interconnect.SynthesisError

/-! # Grids of routers

    A grid has rows and columns of cells; the cell at `(row, col)` has rank
    `col + row * cols`, so ranks run along the rows. `Grid.ofRouters` is how
    a sizing becomes a grid; any other pair of numbers is a grid as well, and
    the operations report a fault where it has no answer.
-/

namespace Interconnect

/-- The extent of a grid. -/
structure Grid where
  rows : Nat
  cols : Nat
  deriving DecidableEq, Repr, Inhabited

namespace Grid

/-- Lay out a number of routers over a number of rows of equal length. -/
def ofRouters (rows routers : Nat) : Except SynthesisError Grid := do
  if routers = 0 then throw .noRouters
  if rows = 0 ∨ routers < rows then throw (.invalidRowCount rows routers)
  if (← Word.rem routers rows) ≠ 0 then throw (.unevenGrid rows routers)
  return ⟨rows, ← Word.div routers rows⟩

/-- How many cells there are. -/
def size (g : Grid) : Checked Nat :=
  Word.mul g.rows g.cols

/-- The rank of a cell. -/
def rank (g : Grid) (row col : Nat) : Checked Nat := do
  let start ← Word.mul row g.cols
  Word.add col start

/-- The row of a rank. -/
def row (g : Grid) (rank : Nat) : Checked Nat :=
  Word.div rank g.cols

/-- The column of a rank. -/
def col (g : Grid) (rank : Nat) : Checked Nat :=
  Word.rem rank g.cols

/-- All cells `(row, col)` in the order of their ranks. -/
def cells (g : Grid) : List (Nat × Nat) :=
  (List.range (g.rows * g.cols)).map fun rank => (rank / g.cols, rank % g.cols)

/-- What a cell takes in a list: two words. -/
def cellBytes : Nat := 16

/-- All cells, if they are not too many to be listed. -/
def listCells (g : Grid) : Checked (List (Nat × Nat)) := do
  let _ ← Word.length cellBytes (g.rows * g.cols)
  return g.cells

end Grid

end Interconnect
