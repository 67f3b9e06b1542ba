import Interconnect.Synthesis
import Interconnect.Proofs.Draft
import Interconnect.Proofs.Escape.Plan
import Interconnect.Proofs.Graph
import Interconnect.Proofs.Sizing
import Interconnect.Proofs.Wiring
import Mathlib.Data.List.ProdSigma

/-! # What an accepted synthesis is made of

    A topology that was synthesized comes with the placements and the wiring of
    its stages (`synthesize_stages`). Everything about it is read off them: its
    edges are the fresh proposals of the wiring, numbered on from the external
    links, with the ranks of the plan laid over them. A topology that is put
    together has these stages already, whether it has a graph or not.
-/

namespace Interconnect

open Proposal (fresh)

/-! ## Links and edges -/

namespace Topology

variable {t : Topology}

theorem length_links (t : Topology) : t.links.length = 2 * t.edges.length := by
  unfold links
  induction t.edges with
  | nil => rfl
  | cons l edges ih =>
    rw [List.flatMap_cons, List.length_append, ih, List.length_cons, List.length_cons,
      List.length_cons, List.length_nil]
    omega

/-- Forward links are at the even positions, each followed by its reverse. -/
theorem getElem?_links (t : Topology) (k : Nat) :
    t.links[2 * k]? = t.edges[k]? ∧ t.links[2 * k + 1]? = t.edges[k]?.map InternalLink.reversed := by
  unfold links
  induction t.edges generalizing k with
  | nil => exact ⟨rfl, rfl⟩
  | cons l edges ih =>
    cases k with
    | zero => exact ⟨rfl, rfl⟩
    | succ k =>
      -- the first pair takes up two positions
      have heven : 2 * (k + 1) = 2 * k + 1 + 1 := by omega
      have hodd : 2 * (k + 1) + 1 = 2 * k + 1 + 1 + 1 := by omega
      rw [List.flatMap_cons, heven, List.cons_append, List.cons_append, List.nil_append,
        List.getElem?_cons_succ, List.getElem?_cons_succ, List.getElem?_cons_succ,
        List.getElem?_cons_succ, List.getElem?_cons_succ]
      exact ih k

theorem length_attach (latency : Nat) (placements : List Placement) :
    (attach latency placements).length = placements.length := by
  rw [attach, List.length_map, List.length_zipIdx]

theorem mem_links {l : InternalLink} :
    l ∈ t.links ↔ ∃ e ∈ t.edges, l = e ∨ l = e.reversed := by
  simp only [links, List.mem_flatMap, List.mem_cons, List.not_mem_nil, or_false]

end Topology

/-! ## Stages -/

/-- The stages behind a topology: the placements of the endpoints and the wiring of
    the grid. -/
structure Stages (c : Configuration) (endpoints : List Endpoint) (t : Topology)
    (placements : List Placement) (wiring : Wiring) : Prop where
  grid : c.grid = .ok t.grid
  placed : c.placementRule.place endpoints (t.grid.rows * t.grid.cols) = .ok placements
  wired : c.family.wiring t.grid = .ok wiring
  distinct : ∀ p ∈ wiring.proposals, p.source ≠ p.target
  family : t.family = c.family
  plan : t.plan = wiring.cycles.map (Escape.Plan.ofCycles c.escapeRankPolicy)
  routers : t.routers =
    Topology.routersOf t.plan (t.grid.rows * t.grid.cols) c.routerLatency.toNat
  external : t.external = Topology.attach c.linkLatency.toNat placements
  edges : t.edges = (fresh [] wiring.proposals).mapIdx fun k p =>
    Topology.overlay t.plan
      ((Draft.start c.family t.grid c.linkLatency.toNat placements.length).linkAt k p)

/-- The links that are put together are those of the draft, pair by pair, where both links of
    a pair have the rank that the plan gives to the edge. -/
theorem Topology.compose_links {c : Configuration} {sizing : Sizing} {wiring : Wiring}
    {t : Topology} (h : Topology.compose c sizing wiring = .ok t) :
    ∃ draft, (Draft.start c.family sizing.grid c.linkLatency.toNat
        sizing.placements.length).proposeAll wiring.proposals = .ok draft ∧
      t.links = draft.forward.toList.flatMap fun l =>
        let escape := t.plan.bind fun plan => plan.edgeRank? l.source l.target
        [{ l with escape }, { l.reversed with escape }] := by
  simp only [Topology.compose, bind_eq_ok, pure_eq_ok] at h
  obtain ⟨draft, hdraft, _, -, rfl⟩ := h
  rw [Topology.length_attach] at hdraft
  refine ⟨draft, hdraft, ?_⟩
  rw [Topology.links, List.flatMap_map]
  rfl

/-- What is put together from an accepted sizing and its wiring has them as its stages. -/
theorem Topology.compose_stages {c : Configuration} {endpoints : List Endpoint} {sizing : Sizing}
    {wiring : Wiring} {t : Topology} (hsizing : Sizing.ofConfiguration c endpoints = .ok sizing)
    (hwired : c.family.wiring sizing.grid = .ok wiring)
    (h : Topology.compose c sizing wiring = .ok t) :
    Stages c endpoints t sizing.placements wiring := by
  obtain ⟨hgrid, hplaces⟩ := Sizing.ofConfiguration_cases hsizing
  simp only [Topology.compose, bind_eq_ok, Grid.size_ok_iff, pure_eq_ok] at h
  obtain ⟨draft, hdraft, _, ⟨-, rfl⟩, rfl⟩ := h
  have hforward := Draft.forward_of_start hdraft
  refine {
    grid := hgrid, placed := hplaces, wired := hwired
    distinct := fun p hp => Draft.proposeAll_distinct hdraft hp
    family := rfl, plan := rfl, routers := rfl, external := rfl, edges := ?_ }
  -- the ids of the external links are taken when the draft starts
  rw [Topology.length_attach] at hforward
  dsimp only
  rw [hforward]
  apply List.ext_getElem?
  intro k
  rw [List.getElem?_map, List.getElem?_mapIdx, List.getElem?_mapIdx, Option.map_map]
  rfl

section whole

variable {c : Configuration} {endpoints : List Endpoint} {t : Topology}

/-- A synthesis that succeeds puts its network together and lets it pass. -/
theorem synthesize_cases (h : synthesize c endpoints = .ok t) :
    ∃ sizing wiring, Sizing.ofConfiguration c endpoints = .ok sizing ∧
      c.family.wiring sizing.grid = .ok wiring ∧ Topology.compose c sizing wiring = .ok t ∧
      t.indexed = .ok t := by
  simp only [synthesize, Topology.assemble, bind_eq_ok, liftM_eq_ok] at h
  obtain ⟨sizing, hsizing, _, -, wiring, hwired, _, hcompose, hindexed⟩ := h
  obtain ⟨-, -, rfl⟩ := Topology.indexed_eq_ok_iff.mp hindexed
  exact ⟨sizing, wiring, hsizing, hwired, hcompose, hindexed⟩

theorem synthesize_stages (h : synthesize c endpoints = .ok t) :
    ∃ placements wiring, Stages c endpoints t placements wiring := by
  obtain ⟨sizing, wiring, hsizing, hwired, hcompose, -⟩ := synthesize_cases h
  exact ⟨sizing.placements, wiring, Topology.compose_stages hsizing hwired hcompose⟩

/-- What is synthesized lies on the grid that is asked for. -/
theorem synthesize_grid {g : Grid} (h : synthesize c endpoints = .ok t) (hgrid : c.grid = .ok g) :
    t.grid = g := by
  obtain ⟨placements, wiring, s⟩ := synthesize_stages h
  exact Except.ok.inj (s.grid.symm.trans hgrid)

/-- What is synthesized has a graph. -/
theorem synthesize_room (h : synthesize c endpoints = .ok t) :
    t.routers.length ≤ Graph.room ∧ t.edges.length ≤ Graph.room := by
  obtain ⟨_, _, -, -, -, hindexed⟩ := synthesize_cases h
  obtain ⟨hrouters, hedges, -⟩ := Topology.indexed_eq_ok_iff.mp hindexed
  exact ⟨hrouters, hedges⟩

end whole

namespace Stages

variable {c : Configuration} {endpoints : List Endpoint} {t : Topology}
  {placements : List Placement} {wiring : Wiring}

/-- The edge at a position is the fresh proposal there. -/
theorem edges_getElem? (s : Stages c endpoints t placements wiring) {k : Nat} {l : InternalLink}
    (h : t.edges[k]? = some l) :
    ∃ p, (fresh [] wiring.proposals)[k]? = some p ∧
      l.id = placements.length + 2 * k ∧ l.source = p.source ∧ l.target = p.target ∧
      l.weight = p.dimension.weight ∧
      l.escape = t.plan.bind fun plan => plan.edgeRank? p.source p.target := by
  rw [s.edges, List.getElem?_mapIdx, Option.map_eq_some_iff] at h
  obtain ⟨p, hp, rfl⟩ := h
  exact ⟨p, hp, rfl, rfl, rfl, rfl, rfl⟩

theorem mem_edges (s : Stages c endpoints t placements wiring) {l : InternalLink}
    (h : l ∈ t.edges) :
    ∃ p ∈ fresh [] wiring.proposals, l.source = p.source ∧ l.target = p.target ∧
      l.weight = p.dimension.weight ∧
      l.escape = t.plan.bind fun plan => plan.edgeRank? p.source p.target := by
  obtain ⟨k, hk⟩ := List.mem_iff_getElem?.mp h
  obtain ⟨p, hp, -, hfacts⟩ := s.edges_getElem? hk
  exact ⟨p, List.mem_of_getElem? hp, hfacts⟩

/-- The edges of the topology are those of the fresh proposals, in order. -/
theorem map_edge_edges (s : Stages c endpoints t placements wiring) :
    t.edges.map InternalLink.edge = (fresh [] wiring.proposals).map Proposal.key := by
  rw [s.edges]
  apply List.ext_getElem?
  intro k
  rw [List.getElem?_map, List.getElem?_mapIdx, List.getElem?_map, Option.map_map]
  rfl

theorem length_routers (s : Stages c endpoints t placements wiring) :
    t.routers.length = t.grid.rows * t.grid.cols := by
  rw [s.routers, Topology.routersOf, List.length_map, List.length_range]

/-- There are as many routers as are asked for. -/
theorem length_routers_eq (s : Stages c endpoints t placements wiring) :
    t.routers.length = c.routers := by
  rw [s.length_routers, Configuration.size_of_grid s.grid]

theorem length_edges (s : Stages c endpoints t placements wiring) :
    t.edges.length = (fresh [] wiring.proposals).length := by
  rw [s.edges, List.length_mapIdx]

/-- No edge occurs twice. -/
theorem nodup_edge_edges (s : Stages c endpoints t placements wiring) :
    (t.edges.map InternalLink.edge).Nodup := by
  rw [s.map_edge_edges]
  exact Proposal.nodup_fresh_keys [] wiring.proposals

/-- There are not more edges than pairs of routers. -/
theorem length_edges_le (s : Stages c endpoints t placements wiring) :
    t.edges.length ≤ (t.grid.rows * t.grid.cols) * (t.grid.rows * t.grid.cols) := by
  have hpairs : t.edges.map InternalLink.edge ⊆
      List.range (t.grid.rows * t.grid.cols) ×ˢ List.range (t.grid.rows * t.grid.cols) := by
    rw [s.map_edge_edges]
    rintro ⟨a, b⟩ hkey
    obtain ⟨p, hp, hends⟩ := List.mem_map.mp hkey
    obtain ⟨hsource, htarget⟩ := Family.wiring_within (Configuration.grid_pos s.grid).2 s.wired p
      (Proposal.mem_of_mem_fresh hp)
    refine List.pair_mem_product.mpr ?_
    rw [List.mem_range, List.mem_range]
    rcases edgeKey_cases p.source p.target with h | h
    · obtain ⟨rfl, rfl⟩ := Prod.mk.inj (h.symm.trans hends)
      exact ⟨hsource, htarget⟩
    · obtain ⟨rfl, rfl⟩ := Prod.mk.inj (h.symm.trans hends)
      exact ⟨htarget, hsource⟩
  calc t.edges.length
    _ = (t.edges.map InternalLink.edge).length := (List.length_map _).symm
    _ ≤ (List.range (t.grid.rows * t.grid.cols) ×ˢ
          List.range (t.grid.rows * t.grid.cols)).length :=
        (List.subperm_of_subset s.nodup_edge_edges hpairs).length_le
    _ = (t.grid.rows * t.grid.cols) * (t.grid.rows * t.grid.cols) := by
        rw [List.length_product, List.length_range]

/-- An edge of the topology is one that was proposed. -/
theorem exists_edge_iff (s : Stages c endpoints t placements wiring) {key : Nat × Nat} :
    (∃ l ∈ t.edges, l.edge = key) ↔ ∃ p ∈ wiring.proposals, p.key = key := by
  rw [← List.mem_map, s.map_edge_edges, List.mem_map]
  constructor
  · intro h
    obtain ⟨p, hp, hkey⟩ := h
    exact ⟨p, Proposal.mem_of_mem_fresh hp, hkey⟩
  · intro h
    obtain ⟨p, hp, hkey⟩ := h
    -- a proposal that was not accepted found its edge already there
    obtain ⟨q, hq, hqkey⟩ := Proposal.exists_fresh_of_mem hp (List.not_mem_nil)
    exact ⟨q, hq, hqkey.trans hkey⟩

/-- A proposal whose edge no other one asks for is accepted. -/
theorem exists_edge_of_proposal (s : Stages c endpoints t placements wiring) {p : Proposal}
    (hp : p ∈ wiring.proposals) (hunique : ∀ q ∈ wiring.proposals, q.key = p.key → q = p) :
    ∃ e ∈ t.edges, e.source = p.source ∧ e.target = p.target ∧
      e.weight = p.dimension.weight := by
  obtain ⟨q, hq, hkey⟩ := Proposal.exists_fresh_of_mem hp (List.not_mem_nil)
  obtain rfl := hunique q (Proposal.mem_of_mem_fresh hq) hkey
  obtain ⟨k, hk⟩ := List.mem_iff_getElem?.mp hq
  have hlink : t.edges[k]? = some (Topology.overlay t.plan
      ((Draft.start c.family t.grid c.linkLatency.toNat placements.length).linkAt k q)) := by
    rw [s.edges, List.getElem?_mapIdx, hk, Option.map_some]
  exact ⟨_, List.mem_of_getElem? hlink, rfl, rfl, rfl⟩

/-! ## What the families propose -/

theorem mesh_proposals (s : Stages c endpoints t placements wiring) (hfamily : c.family = .mesh) :
    wiring.proposals = t.grid.cells.flatMap fun (row, col) => Wiring.meshCell t.grid row col := by
  have hwired := s.wired
  rw [hfamily] at hwired
  simp only [Family.wiring, bind_eq_ok, liftM_eq_ok, pure_eq_ok] at hwired
  obtain ⟨proposals, hproposals, rfl⟩ := hwired
  exact Wiring.mesh_cases hproposals

theorem mem_mesh_iff (s : Stages c endpoints t placements wiring) (hfamily : c.family = .mesh)
    {p : Proposal} : p ∈ wiring.proposals ↔ Wiring.MeshProposal t.grid p := by
  rw [s.mesh_proposals hfamily]
  exact Wiring.mem_meshCells_iff

theorem flattenedButterfly_proposals (s : Stages c endpoints t placements wiring)
    (hfamily : c.family = .flattenedButterfly) :
    wiring.proposals =
      t.grid.cells.flatMap fun (row, col) => Wiring.butterflyCell t.grid row col := by
  have hwired := s.wired
  rw [hfamily] at hwired
  simp only [Family.wiring, bind_eq_ok, liftM_eq_ok, pure_eq_ok] at hwired
  obtain ⟨proposals, hproposals, rfl⟩ := hwired
  exact Wiring.flattenedButterfly_cases hproposals

theorem fullyConnected_proposals (s : Stages c endpoints t placements wiring)
    (hfamily : c.family = .fullyConnected) :
    wiring.proposals = Wiring.complete (t.grid.rows * t.grid.cols) := by
  have hwired := s.wired
  rw [hfamily] at hwired
  simp only [Family.wiring, bind_eq_ok, liftM_eq_ok, Grid.size_ok_iff, pure_eq_ok] at hwired
  obtain ⟨_, ⟨-, rfl⟩, rfl⟩ := hwired
  rfl

end Stages

end Interconnect
