import Interconnect.Family
import Interconnect.Link
import Std.Data.HashSet

/-! # Drafts

    A draft collects the edges of a network one proposal at a time. A proposal
    is accepted unless its two routers are joined already, whichever way round
    and in whichever dimension; an accepted one becomes two internal links
    with consecutive ids.

    Main statements: what a proposal does to the draft depends only on whether
    its edge is known (`propose_of_mem`, `propose_of_not_mem`), and to the links of
    the draft it adds a pair or nothing (`propose_links`).
-/

namespace Interconnect

/-- A request for an edge from one router to another. -/
structure Proposal where
  source : Nat
  target : Nat
  dimension : Dimension
  deriving DecidableEq, Repr, Inhabited

/-- A network under construction: the edges joined so far, and for each of
    them its forward link, in the order of acceptance. -/
structure Draft where
  family : Family
  grid : Grid
  linkLatency : Nat
  nextId : Nat
  joined : Std.HashSet (Nat × Nat)
  forward : Array InternalLink

namespace Draft

/-- The internal links of the edges joined so far, each forward link before its reverse. -/
def links (d : Draft) : List InternalLink :=
  d.forward.toList.flatMap fun l => [l, l.reversed]

/-- A draft without edges; its link ids start after the external links. -/
def start (family : Family) (grid : Grid) (linkLatency externalLinks : Nat) : Draft :=
  ⟨family, grid, linkLatency, externalLinks, ∅, #[]⟩

/-- The ports of an edge: none for direct hops, else as the routers' positions
    face each other. -/
def ports (d : Draft) (p : Proposal) : Checked (Option (Port × Port)) :=
  match p.dimension with
  | .direct => .ok none
  | _ => do
    let source ← d.family.position d.grid p.source
    let target ← d.family.position d.grid p.target
    return Port.facing? source target

/-- The forward link that an accepted proposal becomes. -/
def linkOf (d : Draft) (p : Proposal) (ports : Option (Port × Port)) : InternalLink where
  id := d.nextId
  source := p.source
  target := p.target
  sourcePort := ports.map (·.1)
  targetPort := ports.map (·.2)
  latency := d.linkLatency
  weight := p.dimension.weight
  escape := none

/-- Whether the routers of a proposal are joined already. -/
def knows (d : Draft) (p : Proposal) : Bool :=
  d.joined.contains (edgeKey p.source p.target)

/-- Propose an edge: the draft after it, and its forward link if it was
    accepted. -/
def propose (d : Draft) (p : Proposal) : Checked (Option InternalLink × Draft) :=
  if p.source = p.target then .error (.selfLink p.source)
  else if d.knows p then .ok (none, d)
  else do
    let ports ← d.ports p
    let link := d.linkOf p ports
    return (some link,
      { d with
        nextId := d.nextId + 2
        joined := d.joined.insert (edgeKey p.source p.target)
        forward := d.forward.push link })

/-- Propose edges one after the other. -/
def proposeAll (d : Draft) : List Proposal → Checked Draft
  | [] => .ok d
  | p :: rest => do
    let (_, d) ← d.propose p
    d.proposeAll rest

/-- A known edge changes nothing. -/
theorem propose_of_mem {d : Draft} {p : Proposal} (distinct : p.source ≠ p.target)
    (known : d.knows p = true) : d.propose p = .ok (none, d) := by
  simp [propose, distinct, known]

/-- A new edge is joined, gets its forward link and two ids. -/
theorem propose_of_not_mem {d : Draft} {p : Proposal} {ports : Option (Port × Port)}
    (distinct : p.source ≠ p.target) (new : d.knows p = false) (facing : d.ports p = .ok ports) :
    d.propose p = .ok (some (d.linkOf p ports),
      { d with
        nextId := d.nextId + 2
        joined := d.joined.insert (edgeKey p.source p.target)
        forward := d.forward.push (d.linkOf p ports) }) := by
  simp [propose, distinct, new, facing, bind, Except.bind, pure, Except.pure]

/-- An accepted proposal appends its forward link and then the reverse of that, and one that
    is turned down appends nothing. -/
theorem propose_links {d d' : Draft} {p : Proposal} {accepted : Option InternalLink}
    (h : d.propose p = .ok (accepted, d')) :
    d'.links = d.links ++ accepted.toList.flatMap fun l => [l, l.reversed] := by
  by_cases distinct : p.source = p.target
  · simp [propose, distinct] at h
  · cases known : d.knows p with
    | true =>
      rw [propose_of_mem distinct known] at h
      cases h
      exact (List.append_nil _).symm
    | false =>
      cases facing : d.ports p with
      | error f => simp [propose, distinct, known, facing, bind, Except.bind] at h
      | ok ports =>
        rw [propose_of_not_mem distinct known facing] at h
        cases h
        simp only [links, Array.toList_push, List.flatMap_append, Option.toList_some]

end Draft

end Interconnect
