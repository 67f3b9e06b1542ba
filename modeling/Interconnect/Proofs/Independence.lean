import Interconnect.Proofs.WellFormed

/-! # Networks do not depend on what is attached to them

    Endpoints are dealt out before any router is joined to another, and their links take
    up the first ids. Nothing else of them reaches the network: configurations that ask
    for the same network get the same one, whatever is attached to it.

    * Grids, plans and escape ranks are equal.
    * The links join the same routers in the same order, by the same ports, with the
      same weights and ranks. Only their ids move, by the difference in endpoints.

    `synthesize_independent` is the main statement.
-/

namespace Interconnect

/-! ## What stays the same -/

/-- Two configurations ask for the same network. They may differ in the number of
    directories, in latencies and in what is written beside the topology. -/
structure Configuration.SameNetwork (c c' : Configuration) : Prop where
  family : c.family = c'.family
  numCpus : c.numCpus = c'.numCpus
  meshRows : c.meshRows = c'.meshRows
  concentrationFactor : c.concentrationFactor = c'.concentrationFactor
  escapeRankPolicy : c.escapeRankPolicy = c'.escapeRankPolicy

/-- Two links are one and the same but for their ids and their latencies. -/
structure InternalLink.SameHop (l l' : InternalLink) : Prop where
  source : l.source = l'.source
  target : l.target = l'.target
  sourcePort : l.sourcePort = l'.sourcePort
  targetPort : l.targetPort = l'.targetPort
  weight : l.weight = l'.weight
  escape : l.escape = l'.escape

theorem InternalLink.SameHop.reversed {l l' : InternalLink} (h : l.SameHop l') :
    l.reversed.SameHop l'.reversed :=
  ⟨h.target, h.source, h.targetPort, h.sourcePort, h.weight, h.escape⟩

/-- Two topologies are the same network, with the ids of the links of the second one moved
    on by a number. -/
structure Topology.SameNetwork (t t' : Topology) (moved : Int) : Prop where
  family : t.family = t'.family
  grid : t.grid = t'.grid
  ranks : t.routers.map (·.rank) = t'.routers.map (·.rank)
  escapeRanks : t.routers.map (·.escapeRank) = t'.routers.map (·.escapeRank)
  plan : t.plan = t'.plan
  length_links : t.links.length = t'.links.length
  links : ∀ (k : Nat) (l l' : InternalLink), t.links[k]? = some l → t'.links[k]? = some l' →
    l.SameHop l' ∧ (l'.id : Int) - l.id = moved

/-! ## Sizing -/

/-- The grid depends on the family and the sizing alone. -/
theorem Configuration.SameNetwork.grid_eq {c c' : Configuration} (h : c.SameNetwork c') :
    c.grid = c'.grid := by
  unfold Configuration.grid Configuration.hierarchicalGrid Configuration.ringRouters
    Configuration.concentratedRouters
  simp only [h.family, h.numCpus, h.meshRows, h.concentrationFactor]

/-! ## Links -/

/-- The ports of an edge do not depend on latencies and on ids. -/
theorem Draft.portsOrNone_start (family : Family) (g : Grid) (latency latency' : Nat)
    (first first' : Nat) (p : Proposal) :
    (start family g latency first).portsOrNone p =
      (start family g latency' first').portsOrNone p :=
  rfl

namespace Stages

variable {c c' : Configuration} {endpoints endpoints' : List Endpoint} {t t' : Topology}
  {placements placements' : List Placement} {wiring wiring' : Wiring}

/-- On one grid a family has one wiring. -/
theorem wiring_unique (s : Stages c endpoints t placements wiring)
    (s' : Stages c' endpoints' t' placements' wiring') (hfamily : c.family = c'.family)
    (hgrid : t.grid = t'.grid) : wiring = wiring' := by
  have hwired := s.wired
  rw [hfamily, hgrid, s'.wired] at hwired
  exact (Except.ok.inj hwired).symm

/-- Edges made of one proposal on one grid are the same hop. -/
theorem edges_sameHop (s : Stages c endpoints t placements wiring)
    (s' : Stages c' endpoints' t' placements' wiring) (hfamily : c.family = c'.family)
    (hgrid : t.grid = t'.grid) (hplan : t.plan = t'.plan) {k : Nat} {l l' : InternalLink}
    (hl : t.edges[k]? = some l) (hl' : t'.edges[k]? = some l') : l.SameHop l' := by
  rw [s.edges, List.getElem?_mapIdx, Option.map_eq_some_iff] at hl
  rw [s'.edges, List.getElem?_mapIdx, Option.map_eq_some_iff] at hl'
  obtain ⟨p, hp, rfl⟩ := hl
  obtain ⟨p', hp', rfl⟩ := hl'
  obtain rfl : p = p' := Option.some.inj (hp.symm.trans hp')
  have hports := Draft.portsOrNone_start c.family t.grid c.linkLatency.toNat
    c'.linkLatency.toNat placements.length placements'.length p
  rw [hfamily, hgrid] at hports
  refine ⟨rfl, rfl, ?_, ?_, rfl, ?_⟩
  · show Option.map _ _ = Option.map _ _
    rw [hfamily, hgrid, hports]
  · show Option.map _ _ = Option.map _ _
    rw [hfamily, hgrid, hports]
  · show t.plan.bind _ = t'.plan.bind _
    rw [hplan]
    rfl

/-- The links of one wiring on one grid are the same hops, in the same order. -/
theorem links_sameHop (s : Stages c endpoints t placements wiring)
    (s' : Stages c' endpoints' t' placements' wiring) (hfamily : c.family = c'.family)
    (hgrid : t.grid = t'.grid) (hplan : t.plan = t'.plan) {n : Nat} {l l' : InternalLink}
    (hl : t.links[n]? = some l) (hl' : t'.links[n]? = some l') : l.SameHop l' := by
  -- the forward link of a pair decides on both of its links
  obtain ⟨k, rfl | rfl⟩ : ∃ k, n = 2 * k ∨ n = 2 * k + 1 := ⟨n / 2, by omega⟩
  · rw [(t.getElem?_links k).1] at hl
    rw [(t'.getElem?_links k).1] at hl'
    exact s.edges_sameHop s' hfamily hgrid hplan hl hl'
  · rw [(t.getElem?_links k).2, Option.map_eq_some_iff] at hl
    rw [(t'.getElem?_links k).2, Option.map_eq_some_iff] at hl'
    obtain ⟨e, he, rfl⟩ := hl
    obtain ⟨e', he', rfl⟩ := hl'
    exact (s.edges_sameHop s' hfamily hgrid hplan he he').reversed

end Stages

/-! ## Main statement -/

/-- **Independence**: what is attached to a network does not change it. -/
theorem synthesize_independent {c c' : Configuration} {endpoints endpoints' : List Endpoint}
    {t t' : Topology} (hc : c.SameNetwork c') (h : synthesize c endpoints = .ok t)
    (h' : synthesize c' endpoints' = .ok t') :
    t.SameNetwork t' ((endpoints'.length : Int) - endpoints.length) := by
  obtain ⟨placements, wiring, s⟩ := synthesize_stages h
  obtain ⟨placements', wiring', s'⟩ := synthesize_stages h'
  have hgrid : t.grid = t'.grid := by
    have hgrids := hc.grid_eq
    rw [s.grid, s'.grid] at hgrids
    exact Except.ok.inj hgrids
  obtain rfl := s.wiring_unique s' hc.family hgrid
  have hplan : t.plan = t'.plan := by
    rw [s.plan, s'.plan, hc.escapeRankPolicy]
  refine {
    family := by rw [s.family, s'.family, hc.family]
    grid := hgrid
    ranks := by rw [s.ranks_eq, s'.ranks_eq, hgrid]
    escapeRanks := ?_
    plan := hplan
    length_links := by
      rw [t.length_links, t'.length_links, s.length_edges, s'.length_edges]
    links := ?_ }
  · simp [s.routers, s'.routers, Topology.routersOf, hgrid, hplan]
  · intro k l l' hl hl'
    refine ⟨s.links_sameHop s' hc.family hgrid hplan hl hl', ?_⟩
    rw [s.links_getElem?_id hl, s'.links_getElem?_id hl']
    omega

/-- A flattened butterfly with fewer directories, which lie further apart, and with slower
    links than one with all settings left as they are. -/
def Configuration.slowButterfly : Configuration :=
  { family := .flattenedButterfly, numDirs := 4, linkLatency := 3 }

/-- With twice as many caches, and with directories and DMA engines, it is the same
    network. -/
theorem synthesize_independent_slowButterfly :
    ∃ t t', synthesize { family := .flattenedButterfly } (Endpoint.population 16 0 0) = .ok t ∧
      synthesize .slowButterfly (Endpoint.population 32 4 2) = .ok t' ∧
      t.SameNetwork t' 22 := by
  obtain ⟨t, h⟩ := exists_synthesize_sixteen .flattenedButterfly
  obtain ⟨t', h'⟩ : ∃ t', synthesize .slowButterfly (Endpoint.population 32 4 2) = .ok t' :=
    exists_synthesize (g := ⟨4, 4⟩) rfl (by decide) (by decide) rfl
  have hc : Configuration.SameNetwork { family := .flattenedButterfly } .slowButterfly :=
    ⟨rfl, rfl, rfl, rfl, rfl⟩
  exact ⟨t, t', h, h', synthesize_independent hc h h'⟩

end Interconnect
