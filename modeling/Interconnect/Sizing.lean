import Interconnect.Configuration
import Interconnect.Link
import Interconnect.Placement

/-! # Sizings

    The grid that a configuration asks for, and the placement of endpoints on
    it. Each family makes its checks in a fixed order, and the first one that
    fails is the reason to refuse:

    * a mesh needs a grid of one router per cpu;
    * a ring needs an even number of at least four concentrated routers, and
      always lies on two rows;
    * a fully connected network and a flattened butterfly need a grid of
      concentrated routers;
    * a hierarchical ring needs a mesh's grid with an even number of at least
      four rows and columns.
-/

namespace Interconnect

/-- The number of rows that a ring is folded over. -/
def ringRows : Nat := 2

/-- The least number of rows and columns of a hierarchical ring. -/
def leastExtent : Nat := 4

namespace Configuration

/-- The number of routers when several cpus share one. -/
def concentratedRouters (c : Configuration) : Except SynthesisError Nat := do
  let cpus := c.numCpus.toNat
  let concentration := c.concentrationFactor.toNat
  if concentration = 0 then throw (.concentrationMismatch cpus concentration)
  if (← Word.rem cpus concentration) ≠ 0 then throw (.concentrationMismatch cpus concentration)
  let routers ← Word.div cpus concentration
  if routers = 0 then throw .noRouters
  return routers

/-- The number of routers of a ring, which must be even and at least four. -/
def ringRouters (c : Configuration) : Except SynthesisError Nat := do
  let routers ← c.concentratedRouters
  if routers % 2 ≠ 0 then throw (.oddRouterCount routers)
  if routers < 4 then throw (.ringTooSmall routers)
  return routers

/-- A grid that half-rings can be laid on. -/
def hierarchicalGrid (c : Configuration) : Except SynthesisError Grid := do
  let grid ← Grid.ofRouters c.meshRows.toNat c.numCpus.toNat
  if grid.rows % 2 ≠ 0 ∨ grid.cols % 2 ≠ 0 then throw (.oddGrid grid.rows grid.cols)
  if grid.rows < leastExtent ∨ grid.cols < leastExtent then
    throw (.gridTooSmall grid.rows grid.cols)
  return grid

/-- The grid of the configured family. -/
def grid (c : Configuration) : Except SynthesisError Grid :=
  match c.family with
  | .mesh => Grid.ofRouters c.meshRows.toNat c.numCpus.toNat
  | .ring => do Grid.ofRouters ringRows (← c.ringRouters)
  | .fullyConnected | .flattenedButterfly => do
    Grid.ofRouters c.meshRows.toNat (← c.concentratedRouters)
  | .hierarchicalRing => c.hierarchicalGrid

/-- How the configured family attaches endpoints: families with one cpu per
    router deal them out, the others concentrate them. -/
def placementRule (c : Configuration) : Placement.Rule :=
  match c.family with
  | .mesh | .hierarchicalRing => .stripe
  | .ring | .fullyConnected | .flattenedButterfly => .concentrate c.numDirs.toNat

end Configuration

/-- A grid, and where each endpoint is attached to it. -/
structure Sizing where
  grid : Grid
  placements : List Placement
  deriving DecidableEq, Repr, Inhabited

/-- The number of routers, if they can all be listed, and their endpoints' links as well. -/
def Sizing.routers (s : Sizing) : Checked Nat := do
  let routers ← Word.length Router.bytes (← s.grid.size)
  let _ ← Word.length ExternalLink.bytes s.placements.length
  return routers

/-- The sizing of a configuration, if its family can be built so and the placements
    can be listed. -/
def Sizing.ofConfiguration (c : Configuration) (endpoints : List Endpoint) :
    Except SynthesisError Sizing := do
  let grid ← c.grid
  let routers ← grid.size
  let placements ← c.placementRule.place endpoints routers
  let _ ← Word.length Placement.bytes endpoints.length
  return ⟨grid, placements⟩

end Interconnect
