import Interconnect.Topology

/-! # Dot texts

    A topology as an undirected dot graph: a header, one line for each edge,
    labelled with the id of its forward link, and a closing brace.
-/

namespace Interconnect.Topology

/-- The line of an edge; edges of the escape channel are drawn bold. -/
def dotLine (l : InternalLink) : String :=
  let style := if l.isEscape then ", style=bold" else ""
  s!"   {l.source} -- {l.target} [label=\"{l.id}\", weight={l.weight}{style}]\n"

/-- The topology as a dot graph. -/
def dot (t : Topology) : String :=
  s!"graph \"{t.name}\" \x7b\n" ++ String.join (t.edges.map dotLine) ++ "\x7d\n"

end Interconnect.Topology
