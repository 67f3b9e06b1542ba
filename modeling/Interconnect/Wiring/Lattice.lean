import Interconnect.Draft

/-! # Lattices

    Edges along the rows and columns of a grid. Cells propose their edges in
    the order of their ranks, and each cell those along its row before those
    along its column.
-/

namespace Interconnect.Wiring

/-- Let every cell, in rank order, propose edges. -/
def overCells (g : Grid) (proposals : Nat → Nat → Checked (List Proposal)) :
    Checked (List Proposal) := do
  return (← g.cells.mapM fun (row, col) => proposals row col).flatten

/-- A mesh: every cell proposes its right-hand and its upper neighbour. -/
def mesh (g : Grid) : Checked (List Proposal) :=
  overCells g fun row col => do
    let here ← g.rank row col
    let nextCol ← Word.add col 1
    let alongRow : List Proposal ←
      if nextCol < g.cols then do pure [⟨here, ← g.rank row nextCol, .row⟩] else pure []
    let nextRow ← Word.add row 1
    let alongColumn : List Proposal ←
      if nextRow < g.rows then do pure [⟨here, ← g.rank nextRow col, .column⟩] else pure []
    return alongRow ++ alongColumn

/-- The distances `1, ..., n - 1` from a place of `n` to the other places. -/
def steps (n : Nat) : List Nat :=
  (List.range n).drop 1

/-- The place that lies a number of steps on, around `n` places. -/
def around (n start step : Nat) : Checked Nat := do
  Word.rem (← Word.add start step) n

/-- A flattened butterfly: every cell proposes all other cells of its row and
    then all other cells of its column, starting at its right-hand and its
    upper neighbour and wrapping around. Each edge is proposed from both ends. -/
def flattenedButterfly (g : Grid) : Checked (List Proposal) :=
  overCells g fun row col => do
    let here ← g.rank row col
    let alongRow ← (steps g.cols).mapM fun x => do
      return (⟨here, ← g.rank row (← around g.cols col x), .row⟩ : Proposal)
    let alongColumn ← (steps g.rows).mapM fun y => do
      return (⟨here, ← g.rank (← around g.rows row y) col, .column⟩ : Proposal)
    return alongRow ++ alongColumn

/-- A fully connected network: every router proposes every other router. -/
def complete (routers : Nat) : List Proposal :=
  (List.range routers).flatMap fun source =>
    ((List.range routers).filter (· ≠ source)).map fun target => ⟨source, target, .direct⟩

end Interconnect.Wiring
