import Interconnect.Grid
import Interconnect.Position

/-! # Topology families

    The five families of networks, and where each of them places the router
    of a given rank. All but the single ring draw a rank at its own cell; a
    ring folds every odd row back, so that it closes on the left-hand side.
-/

namespace Interconnect

/-- The kind of network that is synthesized. -/
inductive Family where
  | mesh
  | ring
  | fullyConnected
  | flattenedButterfly
  | hierarchicalRing
  deriving DecidableEq, Repr, Inhabited

namespace Family

def name : Family → String
  | mesh => "Mesh"
  | ring => "Ring"
  | fullyConnected => "FullyConnected"
  | flattenedButterfly => "FlattenedButterfly"
  | hierarchicalRing => "HierarchicalRing"

/-- The name shown to the user for a network of the family. -/
def title (family : Family) (g : Grid) : String :=
  s!"{family.name} ({g.rows} x {g.cols})"

/-- All families, in the order in which they are listed to the user. -/
def all : List Family :=
  [mesh, ring, fullyConnected, flattenedButterfly, hierarchicalRing]

/-- Where the router of a rank is drawn. -/
def position (family : Family) (g : Grid) (rank : Nat) : Checked Position := do
  let row ← g.row rank
  let col ← g.col rank
  if family = ring ∧ row % 2 = 1 then
    let last ← Word.sub g.cols 1
    let x ← Word.sub last col
    return ⟨x, row⟩
  else
    return ⟨col, row⟩

end Family

end Interconnect
