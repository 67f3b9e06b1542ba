import Interconnect.Proofs.Hops
import Interconnect.Proofs.Neighbors
import Interconnect.Proofs.Overlay

/-! # The edges of a ring

    A ring of `n` routers lies on two rows, however many rows are asked for. Its edges lead
    from each router to the next one and from the last to the first, in the order of the
    routers that they leave, here on a ring of eight:

        7 <-- 6 <-- 5 <-- 4
        |                 ^
        v                 |
        0 --> 1 --> 2 --> 3

    By induction on the number of steps, forward links lead from router 0 to router
    `k % n` in `k` steps (`Topology.follow_eq`), so that they pass every router once
    before they come back. `ring_edges` is the main statement.
-/

namespace Interconnect

open Escape (Cycle Plan)
open Proposal (fresh)

/-! ## What is expected -/

/-- The hops around a ring of `n` routers. -/
def Hop.ring (n : Nat) : List Hop :=
  (List.range n).map fun i =>
    let port := Family.ringPort (n / 2) i
    ⟨i, (i + 1) % n, 1, some (port, port.opposite), some ⟨.ring, i⟩⟩

namespace Topology

/-- Where the first forward link that leaves a router leads. -/
def next? (t : Topology) (a : Nat) : Option Nat :=
  (t.edges.find? fun l => l.source = a).map (·.target)

/-- Where a number of forward links lead, one after the other. -/
def follow (t : Topology) : Nat → Nat → Option Nat
  | 0, a => some a
  | k + 1, a => do t.follow k (← t.next? a)

/-- The edges of a ring whose links have a latency and are numbered on from a first id. -/
structure RingEdges (t : Topology) (first latency : Nat) : Prop where
  rows : t.grid.rows = 2
  cols : t.grid.cols = t.routers.length / 2
  size : 4 ≤ t.routers.length ∧ 2 ∣ t.routers.length
  edges : t.edges = Hop.links first latency (Hop.ring t.routers.length)
  /-- The whole ring is on the escape channel. -/
  escape : ∀ l ∈ t.edges, l.weight = 1 ∧ l.isEscape = true
  degree : ∀ r ∈ t.routers, t.Degree r.rank 2
  /-- There is no choice which forward link to follow. -/
  single : ∀ r ∈ t.routers, (t.edges.countP fun l => l.source = r.rank) = 1
  /-- Forward links lead by every router once, -/
  visits : (List.range t.routers.length).map (t.follow · 0) = t.routers.map fun r => some r.rank
  /-- and then back. -/
  returns : t.follow t.routers.length 0 = some 0
  /-- East along the lower row, up, west along the upper row, and down. -/
  ports : t.edges.map (·.sourcePort) =
    List.replicate (t.routers.length / 2 - 1) (some .east) ++ [some .north] ++
      List.replicate (t.routers.length / 2 - 1) (some .west) ++ [some .south]

end Topology

/-! ## Around a ring -/

namespace Hop

variable {n first latency : Nat}

theorem length_ring (n : Nat) : (ring n).length = n := by
  rw [ring, List.length_map, List.length_range]

theorem ring_ends : (links first latency (ring n)).map InternalLink.ends =
    (List.range n).map fun i => (i, (i + 1) % n) := by
  rw [map_links (g := fun hop => (hop.source, hop.target)) fun _ _ => rfl, ring, List.map_map]
  rfl

/-- Each router is the source of one hop. -/
theorem ring_single {a : Nat} (ha : a < n) :
    ((links first latency (ring n)).countP fun l => l.source = a) = 1 := by
  have hsources : (links first latency (ring n)).map (·.source) = List.range n := by
    rw [map_links (g := (·.source)) fun _ _ => rfl, ring, List.map_map]
    exact List.map_id _
  have hcount : ((links first latency (ring n)).map (·.source)).count a = 1 := by
    rw [hsources]
    exact List.count_eq_one_of_mem List.nodup_range (List.mem_range.mpr ha)
  rw [List.count, List.countP_map] at hcount
  rw [← hcount]
  apply List.countP_congr
  intro l _
  simp

/-- All hops have weight 1 and are on the escape channel. -/
theorem ring_escape {l : InternalLink} (hl : l ∈ links first latency (ring n)) :
    l.weight = 1 ∧ l.isEscape = true := by
  obtain ⟨k, hk⟩ := List.mem_iff_getElem?.mp hl
  rw [links, List.getElem?_mapIdx, Option.map_eq_some_iff] at hk
  obtain ⟨hop, hhop, rfl⟩ := hk
  obtain ⟨i, -, rfl⟩ := List.mem_map.mp (List.mem_of_getElem? hhop)
  exact ⟨rfl, rfl⟩

theorem ring_sourcePorts {cols : Nat} (hcols : 0 < cols) :
    (links first latency (ring (2 * cols))).map (·.sourcePort) =
      List.replicate (cols - 1) (some .east) ++ [some .north] ++
        List.replicate (cols - 1) (some .west) ++ [some .south] := by
  have hports := congrArg (List.map some) (Family.map_ringPort hcols)
  simp only [List.map_map, List.map_append, List.map_replicate, List.map_singleton] at hports
  rw [map_links (g := fun hop => hop.ports.map (·.1)) fun _ _ => rfl, ring, List.map_map,
    Nat.mul_div_cancel_left _ Nat.two_pos]
  exact hports

end Hop

/-! ## Following the links -/

namespace Topology

variable {t : Topology} {n a : Nat}

/-- A forward link leaves every router for the next one, -/
theorem next?_eq (h : t.edges.map InternalLink.ends = (List.range n).map fun i => (i, (i + 1) % n))
    (ha : a < n) : t.next? a = some ((a + 1) % n) := by
  have hends : ∀ x y, (x, y) ∈ t.edges.map InternalLink.ends ↔ x < n ∧ (x + 1) % n = y := by
    intro x y
    simp only [h, List.mem_map, List.mem_range, Prod.mk.injEq]
    constructor
    · intro hpair
      obtain ⟨i, hi, rfl, rfl⟩ := hpair
      exact ⟨hi, rfl⟩
    · intro hpair
      exact ⟨x, hpair.1, rfl, hpair.2⟩
  have hfound : (t.edges.find? fun l => l.source = a).isSome := by
    obtain ⟨l, hl, hpair⟩ := List.mem_map.mp ((hends a _).mpr ⟨ha, rfl⟩)
    rw [List.find?_isSome]
    exact ⟨l, hl, by simpa using (Prod.mk.inj hpair).1⟩
  obtain ⟨l, hl⟩ := Option.isSome_iff_exists.mp hfound
  -- whichever link is found, it has its place in the list
  have hsource : l.source = a := by simpa using List.find?_some hl
  have hmem : (l.source, l.target) ∈ t.edges.map InternalLink.ends :=
    List.mem_map_of_mem (f := InternalLink.ends) (List.mem_of_find?_eq_some hl)
  rw [next?, hl, Option.map_some, ← ((hends _ _).mp hmem).2, hsource]

/-- so that `k` links lead `k` routers on. -/
theorem follow_eq (h : t.edges.map InternalLink.ends = (List.range n).map fun i => (i, (i + 1) % n))
    (ha : a < n) (k : Nat) : t.follow k a = some ((a + k) % n) := by
  induction k generalizing a with
  | zero => rw [follow, Nat.add_zero, Nat.mod_eq_of_lt ha]
  | succ k ih =>
    have hnext : (a + 1) % n < n := Nat.mod_lt _ (by omega)
    rw [follow, next?_eq h ha, Option.bind_eq_bind, Option.bind_some, ih hnext, Nat.mod_add_mod,
      Nat.add_assoc, Nat.add_comm 1 k]

end Topology

/-! ## Stages -/

namespace Stages

variable {c : Configuration} {endpoints : List Endpoint} {t : Topology}
  {placements : List Placement} {wiring : Wiring}

theorem ring_hops (s : Stages c endpoints t placements wiring) (hfamily : c.family = .ring) :
    (fresh [] wiring.proposals).map t.hop = Hop.ring t.routers.length := by
  obtain ⟨channel, rfl, w, hrole, hrouters⟩ := s.rings_of_ring hfamily
  have hrows := (Configuration.grid_of_ring hfamily s.grid).1
  have hcols := s.cols_pos
  rw [← s.length_routers] at hrouters
  have hsize : channel.size = t.routers.length := by
    rw [Cycle.size, hrouters, List.length_range]
  have htwo : t.routers.length = 2 * t.grid.cols := by rw [s.length_routers, hrows]
  have hhalf : t.routers.length / 2 = t.grid.cols := by omega
  rw [Wiring.fresh_ringProposals, Wiring.ringProposals, Cycle.edges_of_range hrouters,
    List.map_map, List.map_map, Hop.ring]
  apply List.map_congr_left
  intro i hi
  have hi : i < t.routers.length := List.mem_range.mp hi
  have hnext : (i + 1) % t.routers.length < t.routers.length := Nat.mod_lt _ (by omega)
  have hkey : channel.keys[i]? = some (edgeKey i ((i + 1) % t.routers.length)) := by
    rw [Cycle.keys_getElem?_eq_some_iff, hsize, hrouters]
    exact ⟨_, _, List.getElem?_range hi, List.getElem?_range hnext, rfl⟩
  have hescape : (t.plan.bind fun plan => plan.edgeRank? i ((i + 1) % t.routers.length)) =
      some ⟨.ring, i⟩ := by
    rw [s.plan_eq w.toChannel, Option.bind_some, Plan.edgeRank?_of_getElem? hkey, hrole,
      Escape.RankPolicy.rankFrom_self]
  have hports : Port.facing? (t.family.spot t.grid i)
      (t.family.spot t.grid ((i + 1) % t.routers.length)) =
        some (Family.ringPort t.grid.cols i, (Family.ringPort t.grid.cols i).opposite) := by
    have hleads := Family.leads_around hcols (htwo ▸ hi)
    rw [← htwo] at hleads
    rw [s.family, hfamily]
    exact hleads.facing?_eq
  simp only [Function.comp_apply, Topology.hop, hescape, hports, hhalf, Dimension.weight]
  rfl

/-- The wiring of a ring joins a router with the next one and with the one before. -/
theorem ring_joins_iff (s : Stages c endpoints t placements wiring) (hfamily : c.family = .ring)
    {a b : Nat} (ha : a < t.routers.length) :
    (∃ p ∈ wiring.proposals, p.key = edgeKey a b) ↔
      b = (a + 1) % t.routers.length ∨ b = (a + (t.routers.length - 1)) % t.routers.length := by
  obtain ⟨channel, rfl, -, -, hrouters⟩ := s.rings_of_ring hfamily
  rw [← s.length_routers] at hrouters
  simp only [Wiring.ringProposals, Cycle.edges_of_range hrouters, List.mem_map, List.mem_range]
  constructor
  · intro h
    obtain ⟨_, ⟨_, ⟨i, hi, rfl⟩, rfl⟩, hkey⟩ := h
    rcases edgeKey_eq_iff.mp hkey with ⟨rfl, hb⟩ | ⟨rfl, hb⟩
    · exact .inl hb.symm
    · exact .inr ((Cycle.succ_mod_eq_iff ha hi).mp hb)
  · intro h
    have hlt : ∀ x, x % t.routers.length < t.routers.length := fun x => Nat.mod_lt x (by omega)
    rcases h with rfl | hb
    · exact ⟨_, ⟨_, ⟨a, ha, rfl⟩, rfl⟩, rfl⟩
    · have hblt : b < t.routers.length := hb ▸ hlt _
      refine ⟨_, ⟨_, ⟨b, hblt, rfl⟩, rfl⟩, ?_⟩
      show edgeKey b ((b + 1) % t.routers.length) = edgeKey a b
      rw [(Cycle.succ_mod_eq_iff ha hblt).mpr hb]
      exact edgeKey_comm b a

/-- A router of a ring is joined to two others. -/
theorem ring_degree (s : Stages c endpoints t placements wiring) (hfamily : c.family = .ring)
    (hroom : t.routers.length ≤ Graph.room) (hfour : 4 ≤ t.routers.length) {a : Nat}
    (ha : a < t.routers.length) : t.Degree a 2 := by
  have hnodup : [(a + 1) % t.routers.length,
      (a + (t.routers.length - 1)) % t.routers.length].Nodup := by
    -- the way around is longer than two steps
    have hne : (a + 1) % t.routers.length ≠ (a + (t.routers.length - 1)) % t.routers.length := by
      intro hsame
      have hlt : (a + 1) % t.routers.length < t.routers.length := Nat.mod_lt _ (by omega)
      have hback := (Cycle.succ_mod_eq_iff ha hlt).mpr hsame
      rw [Cycle.succ_mod hlt, Cycle.succ_mod ha] at hback
      split at hback <;> split at hback <;> omega
    simpa using hne
  apply s.degree hroom ha hnodup
  intro b
  rw [s.ring_joins_iff hfamily ha]
  simp

end Stages

/-! ## Main statement -/

/-- However many rows are asked for, a ring has two. -/
theorem synthesize_ring_rows {c : Configuration} (endpoints : List Endpoint)
    (hfamily : c.family = .ring) (rows : UInt64) :
    synthesize { c with meshRows := rows } endpoints = synthesize c endpoints := by
  -- once the family is known, nothing reads the number of rows
  cases c
  cases hfamily
  rfl

/-- **The edges of a ring** lead around its two rows, from each router to the next one. -/
theorem ring_edges {c : Configuration} {endpoints : List Endpoint} {t : Topology}
    (h : synthesize c endpoints = .ok t) (hfamily : c.family = .ring) :
    (∀ rows, synthesize { c with meshRows := rows } endpoints = .ok t) ∧
      t.RingEdges endpoints.length c.linkLatency.toNat := by
  obtain ⟨placements, wiring, s⟩ := synthesize_stages h
  obtain ⟨hrows, hcols⟩ := Configuration.grid_of_ring hfamily s.grid
  have htwo : t.routers.length = 2 * t.grid.cols := by rw [s.length_routers, hrows]
  have hfour : 4 ≤ t.routers.length := by omega
  have hedges := s.edges_eq_links
  rw [s.ring_hops hfamily] at hedges
  have hends : t.edges.map InternalLink.ends =
      (List.range t.routers.length).map fun i => (i, (i + 1) % t.routers.length) := by
    rw [hedges, Hop.ring_ends]
  refine ⟨fun rows => (synthesize_ring_rows endpoints hfamily rows).trans h, {
    rows := hrows
    cols := by omega
    size := ⟨hfour, htwo ▸ Nat.dvd_mul_right 2 _⟩
    edges := hedges
    escape := fun l hl => Hop.ring_escape (hedges ▸ hl)
    degree := fun r hr => s.ring_degree hfamily (synthesize_room h).1 hfour (s.rank_lt_length hr)
    single := fun r hr => hedges ▸ Hop.ring_single (s.rank_lt_length hr)
    visits := ?_, returns := ?_, ports := ?_ }⟩
  · have hrouters : (t.routers.map fun r => some r.rank) =
        (List.range t.routers.length).map some := by
      rw [s.length_routers, ← s.ranks_eq, List.map_map]
      rfl
    rw [hrouters]
    apply List.map_congr_left
    intro k hk
    rw [Topology.follow_eq hends (by omega), Nat.zero_add,
      Nat.mod_eq_of_lt (List.mem_range.mp hk)]
  · rw [Topology.follow_eq hends (by omega), Nat.zero_add, Nat.mod_self]
  · rw [hedges, htwo, Nat.mul_div_cancel_left _ Nat.two_pos]
    exact Hop.ring_sourcePorts (by omega)

theorem ring_edges_sixteen :
    ∃ t, synthesize { family := .ring } (Endpoint.population 16 0 0) = .ok t ∧
      (∀ rows, synthesize { family := .ring, meshRows := rows } (Endpoint.population 16 0 0) =
        .ok t) ∧ t.grid = ⟨2, 8⟩ ∧ t.RingEdges 16 1 := by
  obtain ⟨t, h⟩ := exists_synthesize_sixteen .ring
  obtain ⟨hrows, hedges⟩ := ring_edges h rfl
  exact ⟨t, h, hrows, synthesize_grid h rfl, hedges⟩

end Interconnect
