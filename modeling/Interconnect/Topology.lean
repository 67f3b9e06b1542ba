import Interconnect.Draft

/-! # Topologies

    A finished network: its routers, the endpoints attached to them, the
    edges between them, and the escape plan if the family has one. Each edge
    is kept as its forward link; the internal links are the forward links,
    each followed by its reverse, numbered on from the external links.
-/

namespace Interconnect

/-- A synthesized network. -/
structure Topology where
  family : Family
  grid : Grid
  routers : List Router
  external : List ExternalLink
  /-- The forward links of the edges. -/
  edges : List InternalLink
  plan : Option Escape.Plan

namespace Topology

/-- The name shown to the user. -/
def name (t : Topology) : String :=
  t.family.title t.grid

/-- All internal links, each edge's forward link before its reverse. -/
def links (t : Topology) : List InternalLink :=
  t.edges.flatMap fun l => [l, l.reversed]

/-- The id of the first internal link. -/
def firstInternalId (t : Topology) : Nat :=
  t.external.length

/-- The router of a rank. -/
def router? (t : Topology) (rank : Nat) : Option Router :=
  t.routers[rank]?

/-- The internal link of an id. -/
def link? (t : Topology) (id : Nat) : Option InternalLink :=
  if id < t.firstInternalId then none else t.links[id - t.firstInternalId]?

/-- The opposite direction of the internal link of an id. -/
def reverse? (t : Topology) (id : Nat) : Option InternalLink :=
  if id < t.firstInternalId then none else t.links[(id - t.firstInternalId) ^^^ 1]?

/-- The router that an endpoint is attached to first. -/
def routerOf? (t : Topology) (endpoint : Nat) : Option Nat :=
  (t.external.find? fun l => l.endpoint = endpoint).map (·.router)

/-- Where the router of a rank is drawn. -/
def position (t : Topology) (rank : Nat) : Checked Position :=
  t.family.position t.grid rank

/-- The extent of the drawing plane along a row. -/
def width (t : Topology) : Nat :=
  t.grid.cols

/-- The extent of the drawing plane along a column. -/
def height (t : Topology) : Nat :=
  t.grid.rows

/-- Straight-line distance between two routers. -/
def distance (t : Topology) (a b : Nat) : Checked Float := do
  let a ← t.position a
  let b ← t.position b
  return a.distance b

/-- The order of labels: by weight, escape links after the others. -/
def labelLe (a b : Nat × Bool) : Bool :=
  a.1 < b.1 || (a.1 == b.1 && (!a.2 || b.2))

/-- Weight and escape channel of every edge, sorted. -/
def labels (t : Topology) : List (Nat × Bool) :=
  (t.edges.map fun l => (l.weight, l.isEscape)).mergeSort labelLe

end Topology

end Interconnect
