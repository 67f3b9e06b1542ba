import Interconnect.Journal
import Interconnect.Synthesis
import Interconnect.Text.Binary64
import Interconnect.Text.Quoted

/-! # The journal of a synthesis

    What is reported while a network is synthesized, in order: the request,
    the placements, the edges, the plan and its edges, a summary, and for a
    fully connected network the length of every edge. A synthesis that is
    refused reports no more than the request, and the placements if they were
    made before.
-/

namespace Interconnect

open Journal (Record)

namespace DiagramConfiguration

/-- All fields, by name. -/
def describe (d : DiagramConfiguration) : String :=
  let directory := Text.quoted d.outputDirectory
  s!"DiagramConfiguration \x7b enabled: {d.enabled}, output_dir: {directory}, " ++
    s!"render: {d.render} \x7d"

end DiagramConfiguration

namespace PowerModelConfiguration

/-- All fields, by name. -/
def describe (p : PowerModelConfiguration) : String :=
  let directory := Text.quoted p.outputDirectory
  s!"PowerModelConfiguration \x7b enabled: {p.enabled}, output_dir: {directory}, " ++
    s!"link_width_bits: {p.linkWidthBits}, vcs_per_vnet: {p.vcsPerVnet}, " ++
    s!"buffers_per_ctrl_vc: {p.buffersPerCtrlVc}, " ++
    s!"buffers_per_data_vc: {p.buffersPerDataVc} \x7d"

end PowerModelConfiguration

namespace Configuration

/-- All fields, by name. -/
def describe (c : Configuration) : String :=
  s!"SynthesisConfiguration \x7b topology: {c.family.name}, num_cpus: {c.numCpus}, " ++
    s!"mesh_rows: {c.meshRows}, concentration_factor: {c.concentrationFactor}, " ++
    s!"num_dirs: {c.numDirs}, link_latency: {c.linkLatency}, " ++
    s!"router_latency: {c.routerLatency}, escape_rank_policy: {c.escapeRankPolicy.name}, " ++
    s!"diagram: {c.diagram.describe}, power_model: {c.powerModel.describe} \x7d"

/-- A ring that is asked for other rows than its own reports so. -/
def ringNote (c : Configuration) : List Record :=
  if c.family = .ring ∧ c.ringRouters.isOk ∧ c.meshRows.toNat ≠ ringRows then
    [⟨.debug, s!"ring ignores mesh_rows = {c.meshRows}, using {ringRows}"⟩]
  else []

/-- What is asked for. -/
def request (c : Configuration) (endpoints : List Endpoint) : List Record :=
  let text := s!"synthesizing {c.family.name} for {endpoints.length} endpoints: {c.describe}"
  ⟨.debug, text⟩ :: c.ringNote

end Configuration

/-- Where an endpoint went. -/
def Placement.report (p : Placement) : Record :=
  ⟨.debug, s!"endpoint {p.endpoint.id} ({p.endpoint.kind.name}) -> router {p.router}"⟩

namespace Draft

/-- What became of a proposal. -/
def report (p : Proposal) : Option InternalLink → Record
  | some l => ⟨.debug,
      s!"link {l.id}: {l.source} -> {l.target} {p.dimension.name} weight {l.weight}"⟩
  | none => ⟨.trace, s!"edge {p.source} -- {p.target} already present"⟩

/-- What became of each proposal, up to the first faulty one. -/
def reports (d : Draft) : List Proposal → List Record
  | [] => []
  | p :: rest =>
    match d.propose p with
    | .error _ => []
    | .ok (accepted, d) => report p accepted :: d.reports rest

end Draft

namespace Escape

/-- Ranks that need not increase along a cycle are worth a warning. -/
def RankPolicy.warnings : RankPolicy → List Record
  | .segmentOrdinal => []
  | .routerRank => [⟨.warn, "escape ranks follow router ranks; the increasing-rank walk is not " ++
      "guaranteed to be acyclic within a segment"⟩]

/-- The edges of a cycle, as they are numbered. -/
def Cycle.reports (c : Cycle) : List Record :=
  c.edges.zipIdx.map fun ((a, b), i) => ⟨.debug, s!"{c.role.describe}: {a} -- {b} rank {i}"⟩

/-- The reports of a plan that is made of cycles. -/
def Plan.reports (policy : RankPolicy) (cycles : List Cycle) : List Record :=
  policy.warnings ++ cycles.flatMap Cycle.reports

end Escape

namespace Topology

/-- How much was built. -/
def summary (t : Topology) : Record :=
  ⟨.info, s!"{t.family.name} {t.grid.rows}x{t.grid.cols}: {t.routers.length} routers, " ++
    s!"{t.external.length} external links, {t.links.length} internal links"⟩

/-- The length of an edge. -/
def span (t : Topology) (l : InternalLink) : List Record :=
  match t.distance l.source l.target with
  | .ok d =>
    let length := Text.twoPlaces d
    [⟨.debug, s!"{l.source} -- {l.target} spans {length}"⟩]
  | .error _ => []

/-- The lengths of all edges, which only fully connected networks report. -/
def spans (t : Topology) : List Record :=
  if t.family = .fullyConnected then t.edges.flatMap t.span else []

end Topology

/-- The reports of a network that was put together, after its placements. Edges are only
    measured if it has a graph. -/
def Synthesis.reports (c : Configuration) (sizing : Sizing) (wiring : Wiring) (t : Topology) :
    List Record :=
  let draft := Draft.start c.family sizing.grid c.linkLatency.toNat sizing.placements.length
  let plan := match wiring.cycles with
    | some cycles => Escape.Plan.reports c.escapeRankPolicy cycles
    | none => []
  let spans := if t.indexed.isOk then t.spans else []
  draft.reports wiring.proposals ++ plan ++ [t.summary] ++ spans

/-- The reports after the request. -/
def Synthesis.course (c : Configuration) (sizing : Sizing) : List Record :=
  let finished : Except SynthesisError (List Record) := do
    let _ ← sizing.routers
    let wiring ← c.family.wiring sizing.grid
    return Synthesis.reports c sizing wiring (← Topology.compose c sizing wiring)
  sizing.placements.map Placement.report ++ finished.toOption.getD []

/-- All reports of a synthesis. -/
def Synthesis.journal (c : Configuration) (endpoints : List Endpoint) : List Record :=
  c.request endpoints ++ match Sizing.ofConfiguration c endpoints with
    | .error _ => []
    | .ok sizing => Synthesis.course c sizing

end Interconnect
