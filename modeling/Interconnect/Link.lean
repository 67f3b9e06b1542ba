import Interconnect.Escape.Plan
import Interconnect.Position

/-! # Routers and links

    External links attach endpoints to routers; internal links join routers
    in one direction. An edge between two routers is made of two internal
    links with the same latency, weight and escape rank, each the reverse of
    the other.
-/

namespace Interconnect

/-- The direction or ring along which an edge runs. -/
inductive Dimension where
  | /-- Along a grid row. -/
    row
  | /-- Along a grid column. -/
    column
  | /-- A single hop between any two routers. -/
    direct
  | /-- Around a single ring. -/
    ring
  | /-- Around a half-ring of a hierarchical ring. -/
    halfRing
  | /-- Along the central ring of a hierarchical ring. -/
    spine
  deriving DecidableEq, Repr, Inhabited

namespace Dimension

def name : Dimension → String
  | row => "Row"
  | column => "Column"
  | direct => "Direct"
  | ring => "Ring"
  | halfRing => "HalfRing"
  | spine => "Spine"

/-- Weights order the links of a route: those of weight 1 come first. -/
def weight : Dimension → Nat
  | row | direct | ring | spine => 1
  | column | halfRing => 2

end Dimension

/-- A router, with its place on the escape channel if it has one. -/
structure Router where
  rank : Nat
  latency : Nat
  escapeRank : Option Nat
  deriving DecidableEq, Repr, Inhabited

/-- What a router takes in a list: two words for the place that it may have, and two
    for the rest. -/
def Router.bytes : Nat := 32

/-- The attachment of an endpoint to a router. -/
structure ExternalLink where
  id : Nat
  endpoint : Nat
  router : Nat
  latency : Nat
  deriving DecidableEq, Repr, Inhabited

/-- What an external link takes in a list: a word for each field. -/
def ExternalLink.bytes : Nat := 32

/-- A link from one router to another. -/
structure InternalLink where
  id : Nat
  source : Nat
  target : Nat
  sourcePort : Option Port
  targetPort : Option Port
  latency : Nat
  weight : Nat
  escape : Option Escape.Rank
  deriving DecidableEq, Repr, Inhabited

namespace InternalLink

/-- The other direction of the same edge, numbered next. -/
def reversed (l : InternalLink) : InternalLink :=
  { l with
    id := l.id + 1
    source := l.target
    target := l.source
    sourcePort := l.targetPort
    targetPort := l.sourcePort }

/-- Whether the link is on the deadlock-free escape channel. -/
def isEscape (l : InternalLink) : Bool :=
  l.escape.any fun rank => rank.role.isEscapeChannel

/-- The edge that the link runs over. -/
def edge (l : InternalLink) : Nat × Nat :=
  edgeKey l.source l.target

end InternalLink

end Interconnect
