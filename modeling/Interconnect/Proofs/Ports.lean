import Interconnect.Proofs.EscapeChannel
import Interconnect.Proofs.HierarchicalRing.Edges
import Interconnect.Proofs.Position

/-! # The ports of links

    Links leave and enter their routers by the ports at which the positions of the
    routers face each other, in either direction (`Stages.links_between`). Meshes and
    rings only join routers that are drawn next to each other, so that every port of
    a router has one neighbour and at most one link in each direction. In a flattened
    butterfly links run along whole rows and columns, and in a fully connected network
    they have no ports at all. `synthesize_ports` is the main statement.
-/

namespace Interconnect

open Position (Adjacent Aligned)

/-! ## What is expected -/

/-- A link runs between two positions that face each other, by the ports at which
    they do. -/
def Topology.Facing (t : Topology) (l : InternalLink) : Prop :=
  ∃ p q out into, t.position l.source = .ok p ∧ t.position l.target = .ok q ∧
    Port.facing? p q = some (out, into) ∧ l.sourcePort = some out ∧ l.targetPort = some into

/-- Links run between neighbouring positions, and no two of them share a port in one
    direction. -/
structure Topology.UnitPorts (t : Topology) : Prop where
  adjacent : ∀ l ∈ t.links, ∃ p q, t.position l.source = .ok p ∧ t.position l.target = .ok q ∧
    p.Adjacent q
  facing : ∀ l ∈ t.links, t.Facing l
  opposite : ∀ l ∈ t.links, l.targetPort = l.sourcePort.map Port.opposite
  /-- No two links leave a router by one port. -/
  leaving : t.links.Pairwise fun l m => l.source = m.source → l.sourcePort ≠ m.sourcePort
  /-- No two links enter a router by one port. -/
  entering : t.links.Pairwise fun l m => l.target = m.target → l.targetPort ≠ m.targetPort

/-! ## Ports of links -/

/-- The ports of a link are those of a pair, or none if there is no pair. -/
def InternalLink.Uses (l : InternalLink) (ports : Option (Port × Port)) : Prop :=
  l.sourcePort = ports.map (·.1) ∧ l.targetPort = ports.map (·.2)

theorem InternalLink.Uses.reversed {l : InternalLink} {ports : Option (Port × Port)}
    (h : l.Uses ports) : l.reversed.Uses (ports.map Prod.swap) := by
  obtain ⟨hsource, htarget⟩ := h
  cases ports with
  | none => exact ⟨htarget, hsource⟩
  | some pair => exact ⟨htarget, hsource⟩

/-- A proposal for an edge with ports, between routers whose positions are in a
    relation. -/
def Proposal.Between (R : Position → Position → Prop) (family : Family) (g : Grid)
    (p : Proposal) : Prop :=
  p.dimension ≠ .direct ∧ R (family.spot g p.source) (family.spot g p.target)

/-- The edges of a hierarchical ring join neighbours. -/
theorem Grid.RingEdge.adjacent {family : Family} {g : Grid} {a b w : Nat}
    (h : g.RingEdge a b w) (hfamily : family ≠ .ring) (hcols : 0 < g.cols) :
    (family.spot g a).Adjacent (family.spot g b) := by
  cases h with
  | along hrow hcol hside => exact Family.adjacent_across hfamily hcol
  | crossing hrow hcol => exact Family.adjacent_across hfamily (by omega)
  | middle hrow hcol => exact Family.adjacent_upward hfamily (by omega)
  | outer hrow heven hcol => exact Family.adjacent_upward hfamily (by omega)

namespace Stages

variable {c : Configuration} {endpoints : List Endpoint} {t : Topology}
  {placements : List Placement} {wiring : Wiring}

/-- The proposal behind an edge decides on its ports. -/
theorem edges_uses (s : Stages c endpoints t placements wiring) {e : InternalLink}
    (he : e ∈ t.edges) :
    ∃ p ∈ wiring.proposals, e.source = p.source ∧ e.target = p.target ∧
      e.Uses (if p.dimension = .direct then none
        else Port.facing? (t.family.spot t.grid p.source) (t.family.spot t.grid p.target)) := by
  obtain ⟨k, hk⟩ := List.mem_iff_getElem?.mp he
  rw [s.edges, List.getElem?_mapIdx, Option.map_eq_some_iff] at hk
  obtain ⟨p, hp, rfl⟩ := hk
  have hmem := Proposal.mem_of_mem_fresh (List.mem_of_getElem? hp)
  have hports : (Draft.start c.family t.grid c.linkLatency.toNat placements.length).portsOrNone p =
      if p.dimension = .direct then none
      else Port.facing? (c.family.spot t.grid p.source) (c.family.spot t.grid p.target) :=
    Draft.HasPorts.portsOrNone_eq (.inr (Nat.ne_of_gt s.cols_pos))
  refine ⟨p, hmem, rfl, rfl, ?_⟩
  rw [s.family, ← hports]
  exact ⟨rfl, rfl⟩

/-- Where proposals are between positions in a relation, links in either direction are,
    and have the ports at which the positions face each other. -/
theorem links_between (s : Stages c endpoints t placements wiring)
    {R : Position → Position → Prop} (hsymm : ∀ {p q}, R p q → R q p)
    (hbetween : ∀ p ∈ wiring.proposals, p.Between R t.family t.grid) {l : InternalLink}
    (hl : l ∈ t.links) :
    R (t.family.spot t.grid l.source) (t.family.spot t.grid l.target) ∧
      l.Uses (Port.facing? (t.family.spot t.grid l.source) (t.family.spot t.grid l.target)) := by
  obtain ⟨e, he, hlink⟩ := Topology.mem_links.mp hl
  obtain ⟨p, hp, hsource, htarget, huses⟩ := s.edges_uses he
  obtain ⟨hports, hspots⟩ := hbetween p hp
  rw [if_neg hports, ← hsource, ← htarget] at huses
  rw [← hsource, ← htarget] at hspots
  rcases hlink with rfl | rfl
  · exact ⟨hspots, huses⟩
  · -- a reverse has the ports of its edge in exchange, and so has the way back
    have hback := huses.reversed
    rw [← Port.facing?_swap] at hback
    exact ⟨hsymm hspots, hback⟩

/-- Direct links have no ports. -/
theorem links_direct (s : Stages c endpoints t placements wiring)
    (hdirect : ∀ p ∈ wiring.proposals, p.dimension = .direct) {l : InternalLink}
    (hl : l ∈ t.links) : l.sourcePort = none ∧ l.targetPort = none := by
  obtain ⟨e, he, hlink⟩ := Topology.mem_links.mp hl
  obtain ⟨p, hp, -, -, huses⟩ := s.edges_uses he
  rw [if_pos (hdirect p hp)] at huses
  rcases hlink with rfl | rfl
  · exact huses
  · exact huses.reversed

theorem facing (s : Stages c endpoints t placements wiring) {l : InternalLink}
    {ports : Port × Port}
    (hfacing : Port.facing? (t.family.spot t.grid l.source) (t.family.spot t.grid l.target) =
      some ports) (huses : l.Uses (some ports)) : t.Facing l :=
  ⟨_, _, ports.1, ports.2, s.position_eq l.source, s.position_eq l.target, hfacing, huses.1,
    huses.2⟩

/-- Where proposals run along rows and columns, every link has ports. -/
theorem links_facing (s : Stages c endpoints t placements wiring)
    (haligned : ∀ p ∈ wiring.proposals, p.Between Aligned t.family t.grid) :
    ∀ l ∈ t.links, t.Facing l := by
  intro l hl
  obtain ⟨hline, huses⟩ := s.links_between Aligned.symm haligned hl
  have hne : t.family.spot t.grid l.source ≠ t.family.spot t.grid l.target := by
    rw [ne_eq, Family.spot_inj s.cols_pos]
    exact (s.links_routers hl).1
  obtain ⟨ports, hports⟩ := Port.exists_facing? hne hline
  rw [hports] at huses
  exact s.facing hports huses

/-! ## Links between neighbours -/

/-- Links between neighbours leave by the port that leads to their target, and enter
    by the one that leads back. -/
theorem exists_leads (s : Stages c endpoints t placements wiring)
    (hadjacent : ∀ p ∈ wiring.proposals, p.Between Adjacent t.family t.grid) {l : InternalLink}
    (hl : l ∈ t.links) :
    ∃ port : Port, port.Leads (t.family.spot t.grid l.source) (t.family.spot t.grid l.target) ∧
      l.Uses (some (port, port.opposite)) := by
  obtain ⟨hnext, huses⟩ := s.links_between Adjacent.symm hadjacent hl
  obtain ⟨port, hleads⟩ := hnext.exists_leads
  rw [hleads.facing?_eq] at huses
  exact ⟨port, hleads, huses⟩

/-- Where all proposals are between neighbours, every port has one link at most in
    each direction. -/
theorem unitPorts (s : Stages c endpoints t placements wiring)
    (hadjacent : ∀ p ∈ wiring.proposals, p.Between Adjacent t.family t.grid) : t.UnitPorts where
  adjacent := by
    intro l hl
    have hnext := (s.links_between Adjacent.symm hadjacent hl).1
    exact ⟨_, _, s.position_eq l.source, s.position_eq l.target, hnext⟩
  facing := by
    intro l hl
    obtain ⟨port, hleads, huses⟩ := s.exists_leads hadjacent hl
    exact s.facing hleads.facing?_eq huses
  opposite := by
    intro l hl
    obtain ⟨port, -, hsource, htarget⟩ := s.exists_leads hadjacent hl
    rw [hsource, htarget]
    rfl
  leaving := by
    apply s.nodup_links.pairwise_of_forall_ne
    intro l hl m hm hne hsource hports
    obtain ⟨out, hleads, hout, -⟩ := s.exists_leads hadjacent hl
    obtain ⟨out', hleads', hout', -⟩ := s.exists_leads hadjacent hm
    -- one port leads from one position to one position, and so to one router
    obtain rfl : out = out' := Option.some.inj (hout.symm.trans (hports.trans hout'))
    rw [← hsource] at hleads'
    have htarget := (Family.spot_inj s.cols_pos).mp (hleads.target_unique hleads')
    exact hne (s.links_unique hl hm hsource htarget)
  entering := by
    apply s.nodup_links.pairwise_of_forall_ne
    intro l hl m hm hne htarget hports
    obtain ⟨out, hleads, -, hinto⟩ := s.exists_leads hadjacent hl
    obtain ⟨out', hleads', -, hinto'⟩ := s.exists_leads hadjacent hm
    -- a link enters by the opposite of the port that it leaves by, which tells that port
    have hopposite : out.opposite = out'.opposite :=
      Option.some.inj (hinto.symm.trans (hports.trans hinto'))
    obtain rfl : out = out' := by
      rw [← Port.opposite_opposite out, hopposite, Port.opposite_opposite]
    rw [← htarget] at hleads'
    have hsource := (Family.spot_inj s.cols_pos).mp (hleads.source_unique hleads')
    exact hne (s.links_unique hl hm hsource htarget)

/-! ## The families -/

theorem adjacent_of_mesh (s : Stages c endpoints t placements wiring) (hfamily : c.family = .mesh) :
    ∀ p ∈ wiring.proposals, p.Between Adjacent t.family t.grid := by
  have hunfolded : t.family ≠ .ring := by simp [s.family, hfamily]
  intro p hp
  cases (s.mem_mesh_iff hfamily).mp hp with
  | along hrow hcol => exact ⟨by simp, Family.adjacent_across hunfolded hcol⟩
  | upward hrow hcol => exact ⟨by simp, Family.adjacent_upward hunfolded hcol⟩

theorem adjacent_of_ring (s : Stages c endpoints t placements wiring) (hfamily : c.family = .ring) :
    ∀ p ∈ wiring.proposals, p.Between Adjacent t.family t.grid := by
  obtain ⟨channel, rfl, -, hrouters⟩ := s.ringCycle hfamily
  rw [(Configuration.grid_of_ring hfamily s.grid).1] at hrouters
  intro p hp
  obtain ⟨⟨a, b⟩, hedge, rfl⟩ := List.mem_map.mp hp
  obtain ⟨hlt, rfl⟩ := Escape.Cycle.eq_succ_of_mem_edges hrouters hedge
  rw [s.family, hfamily]
  exact ⟨by simp, (Family.leads_around s.cols_pos hlt).adjacent⟩

/-- The half-rings and the central ring run from neighbour to neighbour. -/
theorem adjacent_of_hierarchicalRing (s : Stages c endpoints t placements wiring)
    (hfamily : c.family = .hierarchicalRing) :
    ∀ p ∈ wiring.proposals, p.Between Adjacent t.family t.grid := by
  have hunfolded : t.family ≠ .ring := by simp [s.family, hfamily]
  obtain ⟨halves, central, r, rfl⟩ := s.hierarchicalRings hfamily
  intro p hp
  have hdimension : p.dimension ≠ .direct := by
    obtain ⟨edge, -, rfl⟩ := List.mem_map.mp hp
    simp only [Wiring.hierarchicalProposal]
    split <;> simp
  -- what is proposed lies on a ring, and what lies on a ring is an edge of the grid
  have hon := Wiring.exists_hierarchicalProposals_iff.mp ⟨p, hp, rfl⟩
  rw [(Wiring.mem_hierarchicalProposals hp).1] at hon
  exact ⟨hdimension, (r.ringEdge_iff.mpr ⟨hon, rfl⟩).adjacent hunfolded s.cols_pos⟩

/-- A flattened butterfly runs along rows and columns. -/
theorem aligned_of_flattenedButterfly (s : Stages c endpoints t placements wiring)
    (hfamily : c.family = .flattenedButterfly) :
    ∀ p ∈ wiring.proposals, p.Between Aligned t.family t.grid := by
  have hunfolded : t.family ≠ .ring := by simp [s.family, hfamily]
  rw [s.flattenedButterfly_proposals hfamily]
  apply Wiring.forall_flatMap_cells
  intro row col hrow hcol p hp
  rcases (Wiring.mem_butterflyCell hrow hcol).mp hp with ⟨x, hx, -, rfl⟩ | ⟨y, -, -, rfl⟩
  · refine ⟨by simp, .inl ?_⟩
    rw [Family.spot_cell hunfolded hcol, Family.spot_cell hunfolded hx]
  · refine ⟨by simp, .inr ?_⟩
    rw [Family.spot_cell hunfolded hcol, Family.spot_cell hunfolded hcol]

theorem direct_of_fullyConnected (s : Stages c endpoints t placements wiring)
    (hfamily : c.family = .fullyConnected) :
    ∀ p ∈ wiring.proposals, p.dimension = .direct := by
  rw [s.fullyConnected_proposals hfamily]
  intro p hp
  obtain ⟨source, -, target, -, -, rfl⟩ := Wiring.mem_complete.mp hp
  rfl

end Stages

/-! ## Main statement -/

/-- **Ports**: links of meshes and rings run between neighbours, each by ports of its own;
    links of a flattened butterfly have the ports at which their routers face each
    other, and links of a fully connected network have none. -/
theorem synthesize_ports {c : Configuration} {endpoints : List Endpoint} {t : Topology}
    (h : synthesize c endpoints = .ok t) :
    (c.family = .mesh ∨ c.family = .ring ∨ c.family = .hierarchicalRing → t.UnitPorts) ∧
      (c.family = .flattenedButterfly → ∀ l ∈ t.links, t.Facing l) ∧
      (c.family = .fullyConnected →
        ∀ l ∈ t.links, l.sourcePort = none ∧ l.targetPort = none) := by
  obtain ⟨placements, wiring, s⟩ := synthesize_stages h
  refine ⟨?_, ?_, ?_⟩
  · intro hfamily
    apply s.unitPorts
    rcases hfamily with hmesh | hring | hrings
    · exact s.adjacent_of_mesh hmesh
    · exact s.adjacent_of_ring hring
    · exact s.adjacent_of_hierarchicalRing hrings
  · intro hfamily
    exact s.links_facing (s.aligned_of_flattenedButterfly hfamily)
  · intro hfamily l hl
    exact s.links_direct (s.direct_of_fullyConnected hfamily) hl

theorem synthesize_ports_sixteen :
    (∃ t, synthesize { family := .ring } (Endpoint.population 16 0 0) = .ok t ∧ t.UnitPorts) ∧
      (∃ t, synthesize { family := .flattenedButterfly } (Endpoint.population 16 0 0) = .ok t ∧
        ∀ l ∈ t.links, t.Facing l) ∧
      ∃ t, synthesize { family := .fullyConnected } (Endpoint.population 16 0 0) = .ok t ∧
        ∀ l ∈ t.links, l.sourcePort = none ∧ l.targetPort = none := by
  refine ⟨?_, ?_, ?_⟩
  · obtain ⟨t, h⟩ := exists_synthesize_sixteen .ring
    exact ⟨t, h, (synthesize_ports h).1 (.inr (.inl rfl))⟩
  · obtain ⟨t, h⟩ := exists_synthesize_sixteen .flattenedButterfly
    exact ⟨t, h, (synthesize_ports h).2.1 rfl⟩
  · obtain ⟨t, h⟩ := exists_synthesize_sixteen .fullyConnected
    exact ⟨t, h, (synthesize_ports h).2.2 rfl⟩

end Interconnect
