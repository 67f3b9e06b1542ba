import Interconnect.Proofs.EscapeChannel

/-! # The plan laid over a network

    What the links and the routers of a ring family have of its plan. Routers have
    the numbers that the plan gives them, and forward links their ranks. The reverse
    of a link has the rank of the forward link, while the plan, if it numbers links
    by their sources, gives each direction another number. `synthesize_overlaid` is
    the main statement.
-/

namespace Interconnect

open Escape (Cycle Plan Rank)

/-! ## Rings -/

/-- A ring network proposes no edge twice. -/
theorem Wiring.fresh_ringProposals (c : Cycle) :
    Proposal.fresh [] (Wiring.ringProposals c) = Wiring.ringProposals c := by
  have hnodup : ((Wiring.ringProposals c).map Proposal.key).Nodup := by
    rw [Wiring.ringProposals, List.map_map]
    exact c.nodup_keys
  exact Proposal.fresh_eq_self hnodup (by simp)

/-- What the wirings of both ring families have in common: one cycle makes up the
    escape channel, no two cycles have one role, and every edge is on a cycle. -/
structure Wiring.Rings (w : Wiring) (others : List Cycle) (channel : Cycle) : Prop
    extends w.Channel others channel where
  four_le : 4 ≤ channel.size
  nodup_roles : ((others ++ [channel]).map (·.role)).Nodup
  on_rings : ∀ p ∈ w.proposals, ∃ ring ∈ others ++ [channel], p.key ∈ ring.keys

namespace Stages

variable {c : Configuration} {endpoints : List Endpoint} {t : Topology}
  {placements : List Placement} {wiring : Wiring} {others : List Cycle} {channel : Cycle}

/-- A ring network has one cycle, over all of its routers. -/
theorem rings_of_ring (s : Stages c endpoints t placements wiring) (hfamily : c.family = .ring) :
    ∃ channel, wiring = ⟨Wiring.ringProposals channel, some [channel]⟩ ∧
      wiring.Rings [] channel ∧ channel.role = .ring ∧
      channel.routers = List.range (t.grid.rows * t.grid.cols) := by
  obtain ⟨hrows, hcols⟩ := Configuration.grid_of_ring hfamily s.grid
  obtain ⟨channel, w, hsize⟩ := s.channel_of_ring hfamily
  obtain ⟨ring, rfl, hrole, hrouters⟩ := s.ringCycle hfamily
  have hring : ring = channel := by simpa using w.cycles
  subst hring
  refine ⟨ring, rfl, { w with four_le := ?_, nodup_roles := ?_, on_rings := ?_ }, hrole, hrouters⟩
  · rw [hsize, s.length_routers, hrows]
    omega
  · exact List.nodup_singleton _
  · intro p hp
    exact ⟨ring, by simp, Wiring.exists_ringProposals_iff.mp ⟨p, hp, rfl⟩⟩

/-- A hierarchical ring has the half-rings, and the central ring as its channel. -/
theorem rings_of_hierarchicalRing (s : Stages c endpoints t placements wiring)
    (hfamily : c.family = .hierarchicalRing) : ∃ others channel, wiring.Rings others channel := by
  obtain ⟨others, channel, w, hsize⟩ := s.channel_of_hierarchicalRing hfamily
  obtain ⟨halves, central, r, rfl⟩ := s.hierarchicalRings hfamily
  have hcycles : halves ++ [central] = others ++ [channel] := Option.some.inj w.cycles
  have hrows := r.four_le_rows
  refine ⟨others, channel, { w with four_le := ?_, nodup_roles := ?_, on_rings := ?_ }⟩
  · rw [hsize]
    omega
  · rw [← hcycles]
    exact r.nodup_roles
  · intro p hp
    rw [← hcycles]
    rcases Wiring.exists_hierarchicalProposals_iff.mp ⟨p, hp, rfl⟩ with ⟨x, hx, hkey⟩ | hkey
    · exact ⟨x, List.mem_append_left _ hx, hkey⟩
    · exact ⟨central, by simp, hkey⟩

theorem exists_rings (s : Stages c endpoints t placements wiring)
    (hfamily : c.family = .ring ∨ c.family = .hierarchicalRing) :
    ∃ others channel, wiring.Rings others channel := by
  rcases hfamily with hring | hhierarchical
  · obtain ⟨channel, -, w, -⟩ := s.rings_of_ring hring
    exact ⟨[], channel, w⟩
  · exact s.rings_of_hierarchicalRing hhierarchical

end Stages

/-! ## Overlays -/

/-- What the routers and the links of a topology have of a plan. -/
structure Topology.Overlaid (t : Topology) (plan : Plan) : Prop where
  routers : ∀ r ∈ t.routers, r.escapeRank = plan.routerRank? r.rank
  forward : ∀ e ∈ t.edges, e.escape = plan.edgeRank? e.source e.target
  /-- A plan by positions gives both directions of an edge the rank that they have. -/
  ordinal : plan.policy = .segmentOrdinal →
    ∀ l ∈ t.links, l.escape = plan.edgeRank? l.source l.target
  /-- By sources, the reverse of a link keeps the number of the forward link, and not
      the one that the plan gives it. -/
  source : plan.policy = .routerRank → ∀ e ∈ t.edges, ∃ role,
    e.reversed.escape = some ⟨role, e.reversed.target⟩ ∧
    plan.edgeRank? e.reversed.source e.reversed.target = some ⟨role, e.reversed.source⟩

namespace Stages

variable {c : Configuration} {endpoints : List Endpoint} {t : Topology}
  {placements : List Placement} {wiring : Wiring} {others : List Cycle} {channel : Cycle}
  {plan : Plan}

theorem routers_escapeRank (s : Stages c endpoints t placements wiring) (hplan : t.plan = some plan)
    {r : Router} (hr : r ∈ t.routers) : r.escapeRank = plan.routerRank? r.rank := by
  obtain ⟨i, hi⟩ := List.mem_iff_getElem?.mp hr
  obtain ⟨rfl, -, hescape⟩ := s.routers_getElem? hi
  rw [hescape, hplan, Option.bind_some]

theorem edges_escape (s : Stages c endpoints t placements wiring) (hplan : t.plan = some plan)
    {e : InternalLink} (he : e ∈ t.edges) : e.escape = plan.edgeRank? e.source e.target := by
  obtain ⟨p, -, hsource, htarget, -, hescape⟩ := s.mem_edges he
  rw [hescape, hplan, hsource, htarget, Option.bind_some]

/-- By position, both directions of an edge have the rank that the plan gives them. -/
theorem links_escape (s : Stages c endpoints t placements wiring) (hplan : t.plan = some plan)
    (hpolicy : plan.policy = .segmentOrdinal) {l : InternalLink} (hl : l ∈ t.links) :
    l.escape = plan.edgeRank? l.source l.target := by
  obtain ⟨e, he, rfl | rfl⟩ := Topology.mem_links.mp hl
  · exact s.edges_escape hplan he
  · have hswap := plan.edgeRank?_swap e.source e.target
    rw [hpolicy] at hswap
    show e.escape = plan.edgeRank? e.target e.source
    rw [hswap, ← s.edges_escape hplan he]
    exact Option.map_id'.symm

/-- Every edge of a ring family has a rank. -/
theorem exists_edges_rank (s : Stages c endpoints t placements wiring)
    (w : wiring.Rings others channel) {e : InternalLink} (he : e ∈ t.edges) :
    ∃ rank, (Plan.ofCycles c.escapeRankPolicy (others ++ [channel])).edgeRank? e.source e.target =
      some rank := by
  obtain ⟨p, hp, hkey⟩ := s.exists_edge_iff.mp ⟨e, he, rfl⟩
  obtain ⟨ring, hring, hmem⟩ := w.on_rings p hp
  rw [hkey] at hmem
  exact Plan.exists_edgeRank? ⟨ring, hring, hmem⟩

theorem overlaid (s : Stages c endpoints t placements wiring) (w : wiring.Rings others channel) :
    t.Overlaid (Plan.ofCycles c.escapeRankPolicy (others ++ [channel])) where
  routers := fun r hr => s.routers_escapeRank (s.plan_eq w.toChannel) hr
  forward := fun e he => s.edges_escape (s.plan_eq w.toChannel) he
  ordinal := fun hpolicy l hl => s.links_escape (s.plan_eq w.toChannel) hpolicy hl
  source := by
    intro hpolicy e he
    obtain ⟨rank, hrank⟩ := s.exists_edges_rank w he
    have hforward : e.escape = some rank := (s.edges_escape (s.plan_eq w.toChannel) he).trans hrank
    have hsource := Plan.ordinal_of_routerRank hpolicy hrank
    have hswap := Plan.edgeRank?_swap (.ofCycles c.escapeRankPolicy (others ++ [channel]))
      e.source e.target
    rw [hpolicy, hrank, Option.map_some] at hswap
    refine ⟨rank.role, ?_, hswap⟩
    show e.escape = some ⟨rank.role, e.source⟩
    rw [hforward, ← hsource]

/-- A ring network has the edges of its cycle, in order and in its direction. -/
theorem ends_of_ring
    (s : Stages c endpoints t placements ⟨Wiring.ringProposals channel, some [channel]⟩) :
    (t.edges.map fun e => (e.source, e.target)) = channel.edges := by
  rw [s.edges, Wiring.fresh_ringProposals]
  apply List.ext_getElem?
  intro k
  rw [List.getElem?_map, List.getElem?_mapIdx, Wiring.ringProposals, List.getElem?_map,
    Option.map_map, Option.map_map]
  exact Option.map_id'

end Stages

/-! ## Main statement -/

/-- **The plan laid over a network** of a ring family: routers and forward links have
    what the plan gives them, and so has every link if ranks are positions. -/
theorem synthesize_overlaid {c : Configuration} {endpoints : List Endpoint} {t : Topology}
    (h : synthesize c endpoints = .ok t)
    (hfamily : c.family = .ring ∨ c.family = .hierarchicalRing) :
    ∃ plan, t.plan = some plan ∧ plan.policy = c.escapeRankPolicy ∧ t.Overlaid plan := by
  obtain ⟨placements, wiring, s⟩ := synthesize_stages h
  obtain ⟨others, channel, w⟩ := s.exists_rings hfamily
  exact ⟨_, s.plan_eq w.toChannel, Plan.ofCycles_policy, s.overlaid w⟩

theorem synthesize_overlaid_fourRing :
    ∃ t plan, synthesize (.fourRing .routerRank) (Endpoint.population 4 0 0) = .ok t ∧
      t.plan = some plan ∧ plan.policy = .routerRank ∧ t.Overlaid plan := by
  obtain ⟨t, h⟩ := exists_synthesize_fourRing .routerRank
  obtain ⟨plan, hplan, hpolicy, hoverlaid⟩ := synthesize_overlaid h (.inl rfl)
  exact ⟨t, plan, h, hplan, hpolicy, hoverlaid⟩

/-! ## The ring of four -/

namespace Stages

variable {policy : Escape.RankPolicy} {endpoints : List Endpoint} {t : Topology}
  {placements : List Placement} {wiring : Wiring}

theorem grid_of_fourRing (s : Stages (.fourRing policy) endpoints t placements wiring) :
    t.grid = ⟨2, 2⟩ := by
  have hgrid := s.grid
  rw [Configuration.grid_fourRing] at hgrid
  exact (Except.ok.inj hgrid).symm

theorem length_routers_fourRing
    (s : Stages (.fourRing policy) endpoints t placements wiring) : t.routers.length = 4 := by
  rw [s.length_routers, s.grid_of_fourRing]
  rfl

end Stages

/-- The stages of the ring of four, and its one cycle. -/
theorem exists_fourRing_stages (policy : Escape.RankPolicy) :
    ∃ t placements channel, synthesize (.fourRing policy) (Endpoint.population 4 0 0) = .ok t ∧
      Stages (.fourRing policy) (Endpoint.population 4 0 0) t placements
        ⟨Wiring.ringProposals channel, some [channel]⟩ ∧
      (⟨Wiring.ringProposals channel, some [channel]⟩ : Wiring).Rings [] channel ∧
      channel.role = .ring ∧ channel.routers = List.range 4 := by
  obtain ⟨t, h⟩ := exists_synthesize_fourRing policy
  obtain ⟨placements, wiring, s⟩ := synthesize_stages h
  obtain ⟨channel, rfl, w, hrole, hrouters⟩ := s.rings_of_ring rfl
  rw [s.grid_of_fourRing] at hrouters
  exact ⟨t, placements, channel, h, s, w, hrole, hrouters⟩

/-- With ranks by sources, the link from router 1 of the ring of four back to router 0
    has number 0, and the plan gives it number 1. -/
theorem fourRing_reverse_rank :
    ∃ t plan l role, synthesize (.fourRing .routerRank) (Endpoint.population 4 0 0) = .ok t ∧
      t.plan = some plan ∧ l ∈ t.links ∧ l.source = 1 ∧ l.target = 0 ∧
      l.escape = some ⟨role, 0⟩ ∧ plan.edgeRank? l.source l.target = some ⟨role, 1⟩ := by
  obtain ⟨t, placements, channel, h, s, w, -, hrouters⟩ := exists_fourRing_stages .routerRank
  have hedges : channel.edges = [(0, 1), (1, 2), (2, 3), (3, 0)] := by
    rw [Cycle.edges, hrouters]
    rfl
  have hends := s.ends_of_ring
  rw [hedges] at hends
  have hmem : (0, 1) ∈ t.edges.map fun e => (e.source, e.target) := by
    rw [hends]
    decide
  obtain ⟨e, he, hpair⟩ := List.mem_map.mp hmem
  obtain ⟨hsource, htarget⟩ := Prod.mk.inj hpair
  obtain ⟨role, hescape, hplan⟩ := (s.overlaid w).source Plan.ofCycles_policy e he
  have hback : e.reversed.source = 1 := htarget
  have hfront : e.reversed.target = 0 := hsource
  rw [hfront] at hescape
  refine ⟨t, _, e.reversed, role, h, s.plan_eq w.toChannel, ?_, hback, hfront, hescape, ?_⟩
  · exact Topology.mem_links.mpr ⟨e, he, .inr rfl⟩
  · rw [hplan, hback]

end Interconnect
