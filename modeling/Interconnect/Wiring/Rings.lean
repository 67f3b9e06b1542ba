import Interconnect.Draft

/-! # Rings

    A ring network is one cycle over all routers. A hierarchical ring has a
    half-ring in each half of each pair of rows, and a central ring that runs
    up one middle column and down the other, between the outermost rows:

        o---o   o---o
        |   |   |   |
        o---o---o---o
            |   |
        o---o---o---o
        |   |   |   |
        o---o   o---o
-/

namespace Interconnect.Wiring

open Escape (Cycle Role Side)

/-- The cycle of a ring network visits the routers in rank order. -/
def ringCycle (routers : Nat) : Except SynthesisError Cycle :=
  Cycle.ofRouters .ring (List.range routers)

/-- The edges of a ring network. -/
def ringProposals (c : Cycle) : List Proposal :=
  c.edges.map fun (a, b) => ⟨a, b, .ring⟩

/-- The columns of one half of a grid, from the left. -/
def halfColumns (g : Grid) : Side → List Nat
  | .left => (List.range g.cols).take (g.cols / 2)
  | .right => (List.range g.cols).drop (g.cols / 2)

/-- A half-ring runs along the lower row of its pair away from the left, and
    back along the upper row. -/
def halfRing (g : Grid) (rowPair : Nat) (side : Side) : Except SynthesisError Cycle := do
  let lower ← Word.mul 2 rowPair
  let upper ← Word.add lower 1
  let columns := halfColumns g side
  let out ← columns.mapM fun col => g.rank lower col
  let back ← columns.reverse.mapM fun col => g.rank upper col
  Cycle.ofRouters (.halfRing rowPair side) (out ++ back)

/-- All half-rings: those of the left half from the lowest pair of rows, then
    those of the right half. -/
def halfRings (g : Grid) : Except SynthesisError (List Cycle) := do
  let lefts ← (List.range (g.rows / 2)).mapM fun rowPair => halfRing g rowPair .left
  let rights ← (List.range (g.rows / 2)).mapM fun rowPair => halfRing g rowPair .right
  return lefts ++ rights

/-- The rows that the central ring runs through: all but the outermost. -/
def interiorRows (g : Grid) : Checked (List Nat) := do
  let last ← Word.sub g.rows 1
  return (List.range last).drop 1

/-- The central ring runs up the column left of the middle and down the column
    right of it. -/
def centralRing (g : Grid) : Except SynthesisError Cycle := do
  let middle := g.cols / 2
  let rows ← interiorRows g
  let up ← rows.mapM fun row => do g.rank row (← Word.sub middle 1)
  let down ← rows.reverse.mapM fun row => g.rank row middle
  Cycle.ofRouters .central (up ++ down)

/-- An edge of a hierarchical ring leaves its smaller router, and belongs to
    the spine if the central ring runs over it. -/
def hierarchicalProposal (spine : List (Nat × Nat)) (edge : Nat × Nat) : Proposal :=
  let (a, b) := edgeKey edge.1 edge.2
  ⟨a, b, if (a, b) ∈ spine then .spine else .halfRing⟩

/-- The edges of all half-rings, then those of the central ring. -/
def hierarchicalProposals (halves : List Cycle) (central : Cycle) : List Proposal :=
  let spine := central.edges.map fun (a, b) => edgeKey a b
  (halves.flatMap Cycle.edges ++ central.edges).map (hierarchicalProposal spine)

end Interconnect.Wiring
