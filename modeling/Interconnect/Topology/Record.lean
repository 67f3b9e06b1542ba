import Interconnect.Topology
import Interconnect.Yaml.Value

/-! # Topologies as records

    A topology as it is written for other programs: all of its parts by name,
    each internal link on its own.
-/

namespace Interconnect

open Yaml (Value)

namespace Escape

def Role.value : Role → Value
  | .ring => .text "Ring"
  | .central => .text "Central"
  | .halfRing rowPair side =>
    .record [("HalfRing", .record [("row_pair", .nat rowPair), ("side", .text side.name)])]

def Rank.value (r : Rank) : Value :=
  .record [("segment", r.role.value), ("ordinal", .nat r.ordinal)]

def Cycle.value (c : Cycle) : Value :=
  .record [("kind", c.role.value), ("routers", .list (c.routers.map .nat))]

def Plan.value (p : Plan) : Value :=
  .record [("policy", .text p.policy.name), ("segments", .list (p.cycles.map Cycle.value))]

end Escape

def Grid.value (g : Grid) : Value :=
  .record [("rows", .nat g.rows), ("cols", .nat g.cols)]

def Port.value (p : Port) : Value :=
  .text p.name

def Router.value (r : Router) : Value :=
  .record [("rank", .nat r.rank), ("latency", .nat r.latency),
    ("escape_rank", .optional .nat r.escapeRank)]

def ExternalLink.value (l : ExternalLink) : Value :=
  .record [("id", .nat l.id), ("endpoint", .nat l.endpoint), ("router", .nat l.router),
    ("latency", .nat l.latency)]

def InternalLink.value (l : InternalLink) : Value :=
  .record [("id", .nat l.id), ("src", .nat l.source), ("dst", .nat l.target),
    ("src_port", .optional Port.value l.sourcePort),
    ("dst_port", .optional Port.value l.targetPort),
    ("latency", .nat l.latency), ("weight", .nat l.weight),
    ("escape", .optional Escape.Rank.value l.escape)]

namespace Topology

def value (t : Topology) : Value :=
  .record [("family", .text t.family.name), ("grid", t.grid.value),
    ("routers", .list (t.routers.map Router.value)),
    ("external_links", .list (t.external.map ExternalLink.value)),
    ("internal_links", .list (t.links.map InternalLink.value)),
    ("escape_plan", .optional Escape.Plan.value t.plan)]

/-- The topology as a document. -/
def document (t : Topology) : String :=
  t.value.document

end Topology

end Interconnect
