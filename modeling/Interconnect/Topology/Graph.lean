import Interconnect.Topology

/-! # The graph of a topology

    The undirected view: one node per router, one edge per logical edge, in
    order of insertion. Nodes are addressed by 32-bit indices, so the index of
    a rank is the rank modulo `2 ^ 32`. The greatest index is kept as a mark for
    none, which bounds the networks that have a graph.
-/

namespace Interconnect

/-- An edge of the graph, with the id of its forward link. -/
structure Graph.Edge where
  source : Nat
  target : Nat
  link : Nat
  deriving DecidableEq, Repr, Inhabited

/-- An undirected graph over routers. -/
structure Graph where
  /-- The rank of the router at each node. -/
  nodes : List Nat
  edges : List Graph.Edge
  deriving DecidableEq, Repr, Inhabited

namespace Graph

/-- How many nodes, and how many edges, can have an index. -/
def room : Nat := 4294967295

/-- The node index of a rank. -/
def index (rank : Nat) : Nat :=
  rank % 4294967296

/-- The routers adjacent to the node of a rank: along the edges that leave it,
    newest first, then along those that enter it, newest first. -/
def neighbors (g : Graph) (rank : Nat) : List Nat :=
  let node := index rank
  let newest := g.edges.reverse
  let leaving := (newest.filter fun e => e.source = node).map (·.target)
  let entering := (newest.filter fun e => e.target = node ∧ e.source ≠ node).map (·.source)
  (leaving ++ entering).filterMap fun n => g.nodes[n]?

/-- How many routers are adjacent to the node of a rank. -/
def degree (g : Graph) (rank : Nat) : Nat :=
  (g.neighbors rank).length

end Graph

namespace Topology

/-- The graph of a topology. -/
def graph (t : Topology) : Graph where
  nodes := t.routers.map (·.rank)
  edges := t.edges.map fun l => ⟨Graph.index l.source, Graph.index l.target, l.id⟩

/-- A topology, if its graph has an index for every router and then for every edge. -/
def indexed (t : Topology) : Checked Topology :=
  if Graph.room < t.routers.length then .error .nodeOverflow
  else if Graph.room < t.edges.length then .error .edgeOverflow
  else .ok t

end Topology

end Interconnect
