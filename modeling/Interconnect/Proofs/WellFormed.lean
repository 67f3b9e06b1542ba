import Interconnect.Proofs.Accepted
import Interconnect.Proofs.Synthesis

/-! # Every synthesized topology is well formed

    `Topology.WellFormed` says what users of a topology rely on: routers in rank
    order, every endpoint attached once, ids that run on from the external to the
    internal links, and internal links in pairs of opposite directions, with at
    most one pair between two routers. `synthesize_wellFormed` is the main
    statement: it holds whatever the family, the sizes and the endpoints.
-/

namespace Interconnect

/-! ## The invariant -/

/-- One link is the other direction of another. -/
structure InternalLink.IsReverse (r l : InternalLink) : Prop where
  source : r.source = l.target
  target : r.target = l.source
  sourcePort : r.sourcePort = l.targetPort
  targetPort : r.targetPort = l.sourcePort
  latency : r.latency = l.latency
  weight : r.weight = l.weight
  escape : r.escape = l.escape

namespace InternalLink.IsReverse

theorem of_reversed (l : InternalLink) : l.reversed.IsReverse l :=
  ⟨rfl, rfl, rfl, rfl, rfl, rfl, rfl⟩

theorem symm {l r : InternalLink} (h : r.IsReverse l) : l.IsReverse r :=
  ⟨h.target.symm, h.source.symm, h.targetPort.symm, h.sourcePort.symm, h.latency.symm,
    h.weight.symm, h.escape.symm⟩

end InternalLink.IsReverse

/-- Every link has one that leads back. -/
theorem Topology.exists_reverse {t : Topology} {l : InternalLink} (hl : l ∈ t.links) :
    ∃ r ∈ t.links, r.IsReverse l := by
  obtain ⟨e, he, rfl | rfl⟩ := mem_links.mp hl
  · exact ⟨l.reversed, mem_links.mpr ⟨l, he, .inr rfl⟩, .of_reversed l⟩
  · exact ⟨e, mem_links.mpr ⟨e, he, .inl rfl⟩, (InternalLink.IsReverse.of_reversed e).symm⟩

/-- Two links join the same two routers, in the same or in opposite directions. -/
def InternalLink.SameRouters (l m : InternalLink) : Prop :=
  (l.source = m.source ∧ l.target = m.target) ∨ (l.source = m.target ∧ l.target = m.source)

/-- What every topology of a configuration and its endpoints satisfies. -/
structure Topology.WellFormed (t : Topology) (c : Configuration) (endpoints : List Endpoint) :
    Prop where
  family : t.family = c.family
  /-- The grid is the one that the configuration asks for. -/
  grid : c.grid = .ok t.grid
  /-- There is one router for each cell of the grid, and there are as many as are asked for. -/
  routers_length : t.routers.length = t.grid.rows * t.grid.cols
  routers_asked : t.routers.length = c.routers
  /-- Router `i` has rank `i` and the configured latency. -/
  routers : ∀ (i : Nat) (r : Router), t.routers[i]? = some r →
    r.rank = i ∧ r.latency = c.routerLatency.toNat
  /-- External links are numbered from zero, one for each endpoint. -/
  external_ids : t.external.map (·.id) = List.range endpoints.length
  external_latency : ∀ l ∈ t.external, l.latency = c.linkLatency.toNat
  /-- The endpoints attached are those given, each as often as it is given. -/
  external_endpoints : (t.external.map (·.endpoint)).Perm (endpoints.map (·.id))
  external_routers : ∀ l ∈ t.external, l.router < t.routers.length
  /-- An endpoint of a list without repeated ids is attached once, to a router. -/
  attached_once : (endpoints.map (·.id)).Nodup → ∀ e ∈ endpoints,
    (t.external.countP fun l => l.endpoint = e.id) = 1 ∧
      ∃ r, t.routerOf? e.id = some r ∧ r < t.routers.length
  /-- Internal links come in pairs, and their ids run on from the external links. -/
  internal_ids : ∃ pairs, t.links.length = 2 * pairs ∧
    t.links.map (·.id) = (List.range (2 * pairs)).map (endpoints.length + ·)
  /-- The second link of a pair is the reverse of the first. -/
  internal_pairs : ∀ (k : Nat) (l : InternalLink), t.links[2 * k]? = some l →
    ∃ r, t.links[2 * k + 1]? = some r ∧ r.IsReverse l
  internal_routers : ∀ l ∈ t.links,
    l.source ≠ l.target ∧ l.source < t.routers.length ∧ l.target < t.routers.length
  /-- No two pairs join the same routers. -/
  internal_distinct : ∀ (i j : Nat) (l m : InternalLink), t.links[2 * i]? = some l →
    t.links[2 * j]? = some m → l.SameRouters m → i = j

/-! ## Routers -/

namespace Stages

variable {c : Configuration} {endpoints : List Endpoint} {t : Topology}
  {placements : List Placement} {wiring : Wiring}

/-- Routers are listed in the order of their ranks. -/
theorem ranks_eq (s : Stages c endpoints t placements wiring) :
    t.routers.map (·.rank) = List.range (t.grid.rows * t.grid.cols) := by
  rw [s.routers, Topology.routersOf, List.map_map]
  exact List.map_id _

/-- The router of a rank, with the number that the plan gives it. -/
theorem routers_getElem? (s : Stages c endpoints t placements wiring) {i : Nat} {r : Router}
    (h : t.routers[i]? = some r) :
    r.rank = i ∧ r.latency = c.routerLatency.toNat ∧
      r.escapeRank = t.plan.bind fun plan => plan.routerRank? i := by
  rw [s.routers, Topology.routersOf, List.getElem?_map, Option.map_eq_some_iff] at h
  obtain ⟨k, hk, rfl⟩ := h
  obtain ⟨hlt, rfl⟩ := List.getElem?_eq_some_iff.mp hk
  rw [List.getElem_range]
  exact ⟨rfl, rfl, rfl⟩

theorem rank_lt (s : Stages c endpoints t placements wiring) {x : Router} (hx : x ∈ t.routers) :
    x.rank < t.grid.rows * t.grid.cols := by
  obtain ⟨i, hi⟩ := List.mem_iff_getElem?.mp hx
  rw [(s.routers_getElem? hi).1, ← s.length_routers]
  exact (List.getElem?_eq_some_iff.mp hi).1

theorem rank_lt_length (s : Stages c endpoints t placements wiring) {x : Router}
    (hx : x ∈ t.routers) : x.rank < t.routers.length := by
  rw [s.length_routers]
  exact s.rank_lt hx

/-- Every rank of the grid is that of a router, -/
theorem exists_router_of_lt (s : Stages c endpoints t placements wiring) {rank : Nat}
    (h : rank < t.grid.rows * t.grid.cols) : ∃ x ∈ t.routers, x.rank = rank := by
  rw [← List.mem_map, s.ranks_eq]
  exact List.mem_range.mpr h

/-- and of no other one. -/
theorem router_eq_of_rank (s : Stages c endpoints t placements wiring) {x y : Router}
    (hx : x ∈ t.routers) (hy : y ∈ t.routers) (h : x.rank = y.rank) : x = y := by
  refine List.inj_on_of_nodup_map ?_ hx hy h
  rw [s.ranks_eq]
  exact List.nodup_range

theorem cols_pos (s : Stages c endpoints t placements wiring) : 0 < t.grid.cols :=
  (Configuration.grid_pos s.grid).2

/-- Every router has a position. -/
theorem position_eq (s : Stages c endpoints t placements wiring) (rank : Nat) :
    t.position rank = .ok (t.family.spot t.grid rank) :=
  Family.position_eq_ok (Nat.ne_of_gt s.cols_pos) rank

/-! ## External links -/

theorem length_placements (s : Stages c endpoints t placements wiring) :
    placements.length = endpoints.length :=
  Placement.Rule.length_of_place s.placed

theorem external_ids (s : Stages c endpoints t placements wiring) :
    t.external.map (·.id) = List.range endpoints.length := by
  rw [s.external, Topology.attach, List.map_map]
  have hids := List.zipIdx_map_snd 0 placements
  rw [s.length_placements, ← List.range_eq_range'] at hids
  exact hids

theorem external_endpoints (s : Stages c endpoints t placements wiring) :
    (t.external.map (·.endpoint)).Perm (endpoints.map (·.id)) := by
  have hids : t.external.map (·.endpoint) = (placements.map (·.endpoint)).map (·.id) := by
    rw [s.external, Topology.attach, List.map_map, List.map_map]
    have hplaces := congrArg (List.map fun p : Placement => p.endpoint.id)
      (List.zipIdx_map_fst 0 placements)
    rw [List.map_map] at hplaces
    exact hplaces
  rw [hids]
  exact (Placement.Rule.place_perm s.placed).map _

/-- An external link is a placement with its position as its id. -/
theorem mem_external (s : Stages c endpoints t placements wiring) {l : ExternalLink}
    (h : l ∈ t.external) :
    l.latency = c.linkLatency.toNat ∧ ∃ p ∈ placements, l.router = p.router := by
  rw [s.external, Topology.attach] at h
  obtain ⟨⟨p, i⟩, hp, rfl⟩ := List.mem_map.mp h
  exact ⟨rfl, p, List.fst_mem_of_mem_zipIdx hp, rfl⟩

theorem external_routers (s : Stages c endpoints t placements wiring) {l : ExternalLink}
    (h : l ∈ t.external) : l.router < t.routers.length := by
  obtain ⟨-, p, hp, hrouter⟩ := s.mem_external h
  rw [hrouter, s.length_routers]
  exact Placement.Rule.router_lt_of_place s.placed p hp

/-- Where ids are distinct, the attachment of an endpoint is found by its id. -/
theorem attached_once (s : Stages c endpoints t placements wiring)
    (hnodup : (endpoints.map (·.id)).Nodup) {e : Endpoint} (he : e ∈ endpoints) :
    (t.external.countP fun l => l.endpoint = e.id) = 1 ∧
      ∃ r, t.routerOf? e.id = some r ∧ r < t.routers.length := by
  have hmem : e.id ∈ t.external.map (·.endpoint) :=
    s.external_endpoints.mem_iff.mpr (List.mem_map_of_mem he)
  constructor
  · -- attached as often as it occurs in the list, which is once
    have hcount : (t.external.map (·.endpoint)).count e.id = 1 :=
      List.count_eq_one_of_mem (s.external_endpoints.nodup_iff.mpr hnodup) hmem
    rw [List.count, List.countP_map] at hcount
    rw [← hcount]
    apply List.countP_congr
    intro l _
    simp
  · obtain ⟨l, hl, hid⟩ := List.mem_map.mp hmem
    have hsome : (t.external.find? fun l => l.endpoint = e.id).isSome := by
      rw [List.find?_isSome]
      exact ⟨l, hl, by simpa using hid⟩
    obtain ⟨m, hm⟩ := Option.isSome_iff_exists.mp hsome
    refine ⟨m.router, ?_, s.external_routers (List.mem_of_find?_eq_some hm)⟩
    rw [Topology.routerOf?, hm, Option.map_some]

/-! ## Internal links -/

/-- The `n`-th internal link has the `n`-th id after the external links. -/
theorem links_getElem?_id (s : Stages c endpoints t placements wiring) {n : Nat}
    {l : InternalLink} (h : t.links[n]? = some l) : l.id = endpoints.length + n := by
  obtain ⟨heven, hodd⟩ := t.getElem?_links (n / 2)
  -- a forward link at an even position, its reverse at the odd one after it
  rcases Nat.mod_two_eq_zero_or_one n with hn | hn
  · have hpos : 2 * (n / 2) = n := by omega
    rw [hpos, h] at heven
    obtain ⟨p, -, hid, -⟩ := s.edges_getElem? heven.symm
    rw [hid, s.length_placements, hpos]
  · have hpos : 2 * (n / 2) + 1 = n := by omega
    rw [hpos, h, eq_comm, Option.map_eq_some_iff] at hodd
    obtain ⟨e, he, rfl⟩ := hodd
    obtain ⟨p, -, hid, -⟩ := s.edges_getElem? he
    show e.id + 1 = endpoints.length + n
    rw [hid, s.length_placements]
    omega

theorem internal_ids (s : Stages c endpoints t placements wiring) :
    t.links.map (·.id) = (List.range (2 * t.edges.length)).map (endpoints.length + ·) := by
  rw [← t.length_links]
  apply List.ext_getElem?
  intro n
  rw [List.getElem?_map, List.getElem?_map]
  cases h : t.links[n]? with
  | none =>
    have hn : t.links.length ≤ n := List.getElem?_eq_none_iff.mp h
    rw [List.getElem?_eq_none (by rwa [List.length_range])]
    rfl
  | some l =>
    have hn : n < t.links.length := (List.getElem?_eq_some_iff.mp h).1
    rw [List.getElem?_range hn, Option.map_some, Option.map_some, s.links_getElem?_id h]

theorem edges_routers (s : Stages c endpoints t placements wiring) {l : InternalLink}
    (h : l ∈ t.edges) :
    l.source ≠ l.target ∧ l.source < t.routers.length ∧ l.target < t.routers.length := by
  obtain ⟨p, hp, hsource, htarget, -⟩ := s.mem_edges h
  -- distinctness was checked when the edge was proposed, the bounds follow from the family
  have hmem : p ∈ wiring.proposals := Proposal.mem_of_mem_fresh hp
  have hwithin := Family.wiring_within s.cols_pos s.wired p hmem
  rw [hsource, htarget, s.length_routers]
  exact ⟨s.distinct p hmem, hwithin⟩

theorem links_routers (s : Stages c endpoints t placements wiring) {l : InternalLink}
    (h : l ∈ t.links) :
    l.source ≠ l.target ∧ l.source < t.routers.length ∧ l.target < t.routers.length := by
  obtain ⟨e, he, rfl | rfl⟩ := Topology.mem_links.mp h
  · exact s.edges_routers he
  · obtain ⟨hne, hsource, htarget⟩ := s.edges_routers he
    exact ⟨hne.symm, htarget, hsource⟩

/-- Two positions that hold the same edge are one. -/
theorem edges_distinct (s : Stages c endpoints t placements wiring) {i j : Nat}
    {l m : InternalLink} (hi : t.edges[i]? = some l) (hj : t.edges[j]? = some m)
    (hsame : l.edge = m.edge) : i = j := by
  have hli : (t.edges.map InternalLink.edge)[i]? = some l.edge := by
    rw [List.getElem?_map, hi, Option.map_some]
  have hmj : (t.edges.map InternalLink.edge)[j]? = some l.edge := by
    rw [List.getElem?_map, hj, Option.map_some, hsame]
  have hlt := (List.getElem?_eq_some_iff.mp hli).1
  exact (List.getElem?_inj hlt s.nodup_edge_edges).mp (hli.trans hmj.symm)

/-- A link is known by the routers that it leads from and to. -/
theorem links_unique (s : Stages c endpoints t placements wiring) {l m : InternalLink}
    (hl : l ∈ t.links) (hm : m ∈ t.links) (hsource : l.source = m.source)
    (htarget : l.target = m.target) : l = m := by
  obtain ⟨e, he, hle⟩ := Topology.mem_links.mp hl
  obtain ⟨f, hf, hmf⟩ := Topology.mem_links.mp hm
  have hedge : e.edge = f.edge := by
    have hle' : l.edge = e.edge := by
      rcases hle with rfl | rfl
      · rfl
      · exact edgeKey_comm _ _
    have hmf' : m.edge = f.edge := by
      rcases hmf with rfl | rfl
      · rfl
      · exact edgeKey_comm _ _
    rw [← hle', ← hmf', InternalLink.edge, hsource, htarget, InternalLink.edge]
  obtain rfl : e = f := List.inj_on_of_nodup_map s.nodup_edge_edges he hf hedge
  -- the two links of one edge leave different routers
  have hne := (s.edges_routers he).1
  rcases hle with rfl | rfl <;> rcases hmf with rfl | rfl
  · rfl
  · exact absurd hsource hne
  · exact absurd hsource.symm hne
  · rfl

/-- The ids of the links tell them apart. -/
theorem nodup_links (s : Stages c endpoints t placements wiring) : t.links.Nodup := by
  apply List.Nodup.of_map (·.id)
  rw [s.internal_ids]
  exact List.nodup_range.map fun _ _ hsame => Nat.add_left_cancel hsame

end Stages

/-! ## Main statement -/

/-- **Well-formedness**: whatever is synthesized, its routers, external links and
    internal links fit together. -/
theorem synthesize_wellFormed {c : Configuration} {endpoints : List Endpoint} {t : Topology}
    (h : synthesize c endpoints = .ok t) : t.WellFormed c endpoints := by
  obtain ⟨placements, wiring, s⟩ := synthesize_stages h
  refine {
    family := s.family
    grid := s.grid
    routers_length := s.length_routers
    routers_asked := s.length_routers_eq
    routers := ?_
    external_ids := s.external_ids
    external_latency := fun l hl => (s.mem_external hl).1
    external_endpoints := s.external_endpoints
    external_routers := fun l hl => s.external_routers hl
    attached_once := fun hnodup e he => s.attached_once hnodup he
    internal_ids := ⟨t.edges.length, t.length_links, s.internal_ids⟩
    internal_pairs := ?_
    internal_routers := ?_
    internal_distinct := ?_ }
  · intro i r hr
    obtain ⟨hrank, hlatency, -⟩ := s.routers_getElem? hr
    exact ⟨hrank, hlatency⟩
  · intro k l hl
    -- even positions hold the forward links, with their reverses right after them
    obtain ⟨heven, hodd⟩ := t.getElem?_links k
    rw [hl] at heven
    rw [← heven, Option.map_some] at hodd
    exact ⟨l.reversed, hodd, rfl, rfl, rfl, rfl, rfl, rfl, rfl⟩
  · intro l hl
    exact s.links_routers hl
  · intro i j l m hl hm hsame
    rw [(t.getElem?_links i).1] at hl
    rw [(t.getElem?_links j).1] at hm
    exact s.edges_distinct hl hm (edgeKey_eq_iff.mpr hsame)

theorem synthesize_wellFormed_sixByFour :
    ∃ t, synthesize .sixByFour (Endpoint.population 24 0 1) = .ok t ∧
      t.WellFormed .sixByFour (Endpoint.population 24 0 1) := by
  obtain ⟨t, h⟩ := exists_synthesize_sixByFour
  exact ⟨t, h, synthesize_wellFormed h⟩

end Interconnect
