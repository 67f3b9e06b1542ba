/-! # Positions

    Routers are drawn on a plane in grid units. Two routers in one row or one
    column face each other with opposite ports.
-/

namespace Interconnect

/-- A point of the drawing plane, in grid units. -/
structure Position where
  x : Nat
  y : Nat
  deriving DecidableEq, Repr, Inhabited

/-- The side of a router that a link leaves from or arrives at. -/
inductive Port where
  | north
  | south
  | east
  | west
  deriving DecidableEq, Repr, Inhabited

namespace Port

def name : Port → String
  | north => "North"
  | south => "South"
  | east => "East"
  | west => "West"

def opposite : Port → Port
  | north => south
  | south => north
  | east => west
  | west => east

/-- The ports by which a link leaves one position and enters another: none
    unless the two are distinct and share a row or a column. -/
def facing? (source target : Position) : Option (Port × Port) :=
  if source.y = target.y ∧ source.x < target.x then some (east, west)
  else if source.y = target.y ∧ target.x < source.x then some (west, east)
  else if source.x = target.x ∧ source.y < target.y then some (north, south)
  else if source.x = target.x ∧ target.y < source.y then some (south, north)
  else none

end Port

namespace Position

/-- The binary64 number nearest to a word. -/
def toFloat (n : Nat) : Float :=
  n.toUInt64.toFloat

/-- Straight-line distance in grid units, each step rounded to binary64. -/
def distance (a b : Position) : Float :=
  let dx := toFloat a.x - toFloat b.x
  let dy := toFloat a.y - toFloat b.y
  (dx * dx + dy * dy).sqrt

end Position

end Interconnect
