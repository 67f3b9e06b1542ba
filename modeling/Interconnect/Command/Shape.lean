import Interconnect.Command.Parameter
import Interconnect.Configuration

/-! # Shapes

    A family and its sizing as they are given on the command line. Each family
    is a subcommand with the parameters that matter for it.
-/

namespace Interconnect

/-- A family and its sizing. -/
inductive Shape where
  | mesh (cpus rows : UInt64)
  | ring (cpus concentration : UInt64)
  | full (cpus rows concentration : UInt64)
  | flattenedButterfly (cpus rows concentration : UInt64)
  | hierarchicalRing (cpus rows : UInt64)
  deriving DecidableEq, Repr, Inhabited

namespace Shape

def family : Shape → Family
  | mesh .. => .mesh
  | ring .. => .ring
  | full .. => .fullyConnected
  | flattenedButterfly .. => .flattenedButterfly
  | hierarchicalRing .. => .hierarchicalRing

def cpus : Shape → UInt64
  | mesh cpus _ | ring cpus _ | full cpus _ _ | flattenedButterfly cpus _ _
  | hierarchicalRing cpus _ => cpus

/-- The rows of the grid; a ring has two. -/
def rows : Shape → UInt64
  | mesh _ rows | full _ rows _ | flattenedButterfly _ rows _ | hierarchicalRing _ rows => rows
  | ring .. => 2

/-- How many cpus share a router. -/
def concentration : Shape → UInt64
  | ring _ k | full _ _ k | flattenedButterfly _ _ k => k
  | mesh .. | hierarchicalRing .. => 1

/-- Ask for the shape, with a directory for every router. -/
def apply (s : Shape) (c : Configuration) : Configuration :=
  { c with
    family := s.family
    numCpus := s.cpus
    meshRows := s.rows
    concentrationFactor := s.concentration
    numDirs := if s.concentration = 0 then s.cpus else s.cpus / s.concentration }

end Shape

namespace Command

/-- A subcommand, and how it makes a shape of its parameters. -/
structure Subcommand where
  name : String
  about : String
  parameters : List Parameter
  shape : Uses → Except Stop Shape

namespace Subcommand

def cpus : Parameter := { long := "cpus", short := some 'c', default := some "16" }

def rows : Parameter := { long := "rows", short := some 'r', default := some "4" }

def concentration : Parameter :=
  { long := "concentration", short := some 'k', default := some "1" }

/-- The subcommands, one for each family. -/
def all : List Subcommand :=
  [{ name := "mesh"
     about := "A 2D mesh, one router per cpu"
     parameters := [cpus, rows]
     shape := fun us => do
      return .mesh (← us.someNumber "cpus") (← us.someNumber "rows") },
   { name := "ring"
     about := "A ring, drawn over two rows"
     parameters := [cpus, concentration]
     shape := fun us => do
      return .ring (← us.someNumber "cpus") (← us.someNumber "concentration") },
   { name := "full"
     about := "Every router linked to every other"
     parameters := [cpus, rows, concentration]
     shape := fun us => do
      return .full (← us.someNumber "cpus") (← us.someNumber "rows")
        (← us.someNumber "concentration") },
   { name := "flattened-butterfly"
     about := "Rows and columns fully connected"
     parameters := [cpus, rows, concentration]
     shape := fun us => do
      return .flattenedButterfly (← us.someNumber "cpus") (← us.someNumber "rows")
        (← us.someNumber "concentration") },
   { name := "hierarchical-ring"
     about := "Half-rings per row pair, joined by a central ring"
     parameters := [cpus, rows]
     shape := fun us => do
      return .hierarchicalRing (← us.someNumber "cpus") (← us.someNumber "rows") }]

end Subcommand

end Command

end Interconnect
