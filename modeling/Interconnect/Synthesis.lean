import Interconnect.Sizing
import Interconnect.Topology.Graph
import Interconnect.Wiring

/-! # Synthesis

    From a configuration and endpoints to a topology: size the grid and place
    the endpoints, wire the routers, and overlay the escape plan on routers
    and links. No router is created before all of them are known to fit in a
    list; a network that is put together must fit in a graph, too.
-/

namespace Interconnect

namespace Topology

/-- The external links: one per placement, numbered in order. -/
def attach (linkLatency : Nat) (placements : List Placement) : List ExternalLink :=
  placements.zipIdx.map fun (p, id) => ⟨id, p.endpoint.id, p.router, linkLatency⟩

/-- The routers, each with its number on the escape channel if the plan gives
    it one. -/
def routersOf (plan : Option Escape.Plan) (count latency : Nat) : List Router :=
  (List.range count).map fun rank =>
    ⟨rank, latency, plan.bind fun plan => plan.routerRank? rank⟩

/-- A forward link with the rank that the plan gives it. -/
def overlay (plan : Option Escape.Plan) (link : InternalLink) : InternalLink :=
  { link with escape := plan.bind fun plan => plan.edgeRank? link.source link.target }

/-- Put a sized and wired network together. -/
def compose (c : Configuration) (sizing : Sizing) (wiring : Wiring) : Checked Topology := do
  let external := attach c.linkLatency.toNat sizing.placements
  let draft ← (Draft.start c.family sizing.grid c.linkLatency.toNat external.length).proposeAll
    wiring.proposals
  let plan := wiring.cycles.map (Escape.Plan.ofCycles c.escapeRankPolicy)
  return {
    family := c.family
    grid := sizing.grid
    routers := routersOf plan (← sizing.grid.size) c.routerLatency.toNat
    external
    edges := draft.forward.toList.map (overlay plan)
    plan }

/-- Put a network together, and see that it has a graph. The list of its links needs no
    bound besides: one that no block of memory holds is too long for a graph by far. -/
def assemble (c : Configuration) (sizing : Sizing) (wiring : Wiring) : Checked Topology := do
  (← compose c sizing wiring).indexed

end Topology

/-- Synthesize the network that a configuration asks for. -/
def synthesize (c : Configuration) (endpoints : List Endpoint) :
    Except SynthesisError Topology := do
  let sizing ← Sizing.ofConfiguration c endpoints
  let _ ← sizing.routers
  let wiring ← c.family.wiring sizing.grid
  Topology.assemble c sizing wiring

end Interconnect
