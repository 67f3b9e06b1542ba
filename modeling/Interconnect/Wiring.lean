import Interconnect.Wiring.Lattice
import Interconnect.Wiring.Rings

/-! # Wirings

    What a family builds on a grid: the edges that it proposes, in order, and
    the cycles of its escape plan if it has one. A wiring depends on nothing
    but the family and the grid.
-/

namespace Interconnect

/-- The edges and the escape cycles of a network. -/
structure Wiring where
  proposals : List Proposal
  /-- Families without cycles among their channels need no plan. -/
  cycles : Option (List Escape.Cycle)
  deriving Repr

/-- How a family joins the routers of a grid. -/
def Family.wiring (family : Family) (g : Grid) : Except SynthesisError Wiring :=
  match family with
  | .mesh => do return ⟨← Wiring.mesh g, none⟩
  | .ring => do
    let cycle ← Wiring.ringCycle (← g.size)
    return ⟨Wiring.ringProposals cycle, some [cycle]⟩
  | .fullyConnected => do return ⟨Wiring.complete (← g.size), none⟩
  | .flattenedButterfly => do return ⟨← Wiring.flattenedButterfly g, none⟩
  | .hierarchicalRing => do
    let halves ← Wiring.halfRings g
    let central ← Wiring.centralRing g
    return ⟨Wiring.hierarchicalProposals halves central, some (halves ++ [central])⟩

end Interconnect
