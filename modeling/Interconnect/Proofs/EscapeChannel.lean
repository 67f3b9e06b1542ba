import Interconnect.Proofs.HierarchicalRing.Escape
import Interconnect.Proofs.WellFormed

/-! # The escape channel is one cycle

    The ring families each have one cycle on their escape channel, added to the
    plan after all others: the whole network of a ring, the central ring of a
    hierarchical ring. Numbered by position, its routers count from zero and each
    of its edges leads from one number to the next. `escapeChannel_cycle` is the
    main statement.
-/

namespace Interconnect

open Escape (Cycle Plan Rank)

/-! ## Numbered cycles -/

/-- The position of a link on the escape channel, if its rank lies there. -/
def InternalLink.channelOrdinal? (l : InternalLink) : Option Nat :=
  (l.escape.filter fun rank => rank.role.isEscapeChannel).map (·.ordinal)

/-- The escape channel is one cycle of `n` routers, numbered along itself. -/
structure Topology.ChannelCycle (t : Topology) (n : Nat) : Prop where
  count : (t.routers.countP fun r => r.escapeRank.isSome) = n
  /-- The numbers of the routers are those below `n`, each of them once. -/
  numbers : (t.routers.filterMap (·.escapeRank)).Perm (List.range n)
  ordinal_lt : ∀ l ∈ t.edges, ∀ i, l.channelOrdinal? = some i → i < n
  /-- One edge leads from each number to the next, and from the last to the first. -/
  edges : ∀ i < n, ∃ l a b,
    (t.edges.filter fun l => l.channelOrdinal? = some i) = [l] ∧
    a ∈ t.routers ∧ a.escapeRank = some i ∧
    b ∈ t.routers ∧ b.escapeRank = some ((i + 1) % n) ∧
    ((l.source = a.rank ∧ l.target = b.rank) ∨ (l.source = b.rank ∧ l.target = a.rank))

/-- One cycle of a wiring, added last, makes up the escape channel. -/
structure Wiring.Channel (w : Wiring) (others : List Cycle) (channel : Cycle) : Prop where
  cycles : w.cycles = some (others ++ [channel])
  others_off : ∀ c ∈ others, c.role.isEscapeChannel = false
  channel_on : channel.role.isEscapeChannel = true
  proposed : ∀ key ∈ channel.keys, ∃ p ∈ w.proposals, p.key = key

/-- No other cycle of the wiring is on the escape channel. -/
theorem Wiring.Channel.filter_cycles {w : Wiring} {others : List Cycle} {channel : Cycle}
    (h : w.Channel others channel) :
    ((others ++ [channel]).filter fun c => c.role.isEscapeChannel) = [channel] := by
  have hnone : (others.filter fun c => c.role.isEscapeChannel) = [] := by
    rw [List.filter_eq_nil_iff]
    intro c hc
    simp [h.others_off c hc]
  rw [List.filter_append, hnone, List.nil_append, List.filter_singleton, h.channel_on]
  rfl

/-! ## Numbers of one channel -/

namespace Stages

variable {c : Configuration} {endpoints : List Endpoint} {t : Topology}
  {placements : List Placement} {wiring : Wiring} {others : List Cycle} {channel : Cycle}

theorem plan_eq (s : Stages c endpoints t placements wiring)
    (w : wiring.Channel others channel) :
    t.plan = some (Plan.ofCycles c.escapeRankPolicy (others ++ [channel])) := by
  rw [s.plan, w.cycles, Option.map_some]

theorem plan_of_channel (s : Stages c endpoints t placements wiring)
    (hpolicy : c.escapeRankPolicy = .segmentOrdinal) (w : wiring.Channel others channel) :
    t.plan = some (Plan.ofCycles .segmentOrdinal (others ++ [channel])) := by
  rw [s.plan_eq w, hpolicy]

/-- The edges on the escape channel are those of its cycle, in order. -/
theorem channelOrdinal?_eq (s : Stages c endpoints t placements wiring)
    (hpolicy : c.escapeRankPolicy = .segmentOrdinal) (w : wiring.Channel others channel)
    {l : InternalLink} (hl : l ∈ t.edges) :
    l.channelOrdinal? = channel.edgeOrdinal? l.edge := by
  obtain ⟨p, -, hsource, htarget, -, hescape⟩ := s.mem_edges hl
  rw [← hsource, ← htarget, s.plan_of_channel hpolicy w, Option.bind_some] at hescape
  unfold InternalLink.channelOrdinal?
  by_cases hmem : l.edge ∈ channel.keys
  · -- no cycle was added after the channel, so its rank stands
    have hlast : ∃ rank, (Plan.ofCycles .segmentOrdinal (others ++ [channel])).edgeRank?
        l.source l.target = some rank ∧ Plan.Ranks .segmentOrdinal channel l.edge rank :=
      Plan.edgeRank?_of_mem hmem
    obtain ⟨rank, hrank, hranks⟩ := hlast
    have hchannel : rank.role.isEscapeChannel = true := by
      rw [hranks.role]
      exact w.channel_on
    rw [hescape, hrank, Option.filter_some, if_pos hchannel, Option.map_some]
    exact (Cycle.edgeOrdinal?_eq_some_iff.mpr (hranks.ordinal rfl)).symm
  · rw [Cycle.edgeOrdinal?_eq_none_iff.mpr hmem, hescape]
    cases hrank : (Plan.ofCycles .segmentOrdinal (others ++ [channel])).edgeRank?
        l.source l.target with
    | none => rfl
    | some rank =>
      -- a rank of another cycle does not lie on the channel
      obtain ⟨x, hx, hranks⟩ := Plan.edgeRank?_of_not_mem hmem hrank
      have hoff : rank.role.isEscapeChannel = false := by
        rw [hranks.role]
        exact w.others_off x hx
      rw [Option.filter_some, hoff]
      rfl

/-- The router of a rank has its position on the channel as its number. -/
theorem routers_of_channel (s : Stages c endpoints t placements wiring)
    (hpolicy : c.escapeRankPolicy = .segmentOrdinal) (w : wiring.Channel others channel) :
    t.routers = (List.range (t.grid.rows * t.grid.cols)).map fun rank =>
      ⟨rank, c.routerLatency.toNat, channel.ordinal? rank⟩ := by
  rw [s.routers, Topology.routersOf, s.plan_of_channel hpolicy w]
  apply List.map_congr_left
  intro rank _
  rw [Option.bind_some, Plan.routerRank?_of_last w.others_off w.channel_on,
    Escape.RankPolicy.numberOf_segmentOrdinal, Option.map_id, id]

/-- The routers of the channel are routers of the grid, for its edges are. -/
theorem channel_router_lt (s : Stages c endpoints t placements wiring)
    (w : wiring.Channel others channel) {x : Nat} (hx : x ∈ channel.routers) :
    x < t.grid.rows * t.grid.cols := by
  obtain ⟨y, hkey⟩ := channel.exists_key_of_mem hx
  obtain ⟨l, hl, hedge⟩ := s.exists_edge_iff.mpr (w.proposed _ hkey)
  obtain ⟨-, hsource, htarget⟩ := s.edges_routers hl
  rw [s.length_routers] at hsource htarget
  rcases edgeKey_eq_iff.mp hedge with ⟨rfl, -⟩ | ⟨-, rfl⟩
  · exact hsource
  · exact htarget

/-- The router at a position of the channel has this position as its number. -/
theorem exists_router (s : Stages c endpoints t placements wiring)
    (hpolicy : c.escapeRankPolicy = .segmentOrdinal) (w : wiring.Channel others channel)
    {i x : Nat} (hx : channel.routers[i]? = some x) :
    ∃ r ∈ t.routers, r.rank = x ∧ r.escapeRank = some i := by
  have hlt := s.channel_router_lt w (List.mem_of_getElem? hx)
  have hordinal : channel.ordinal? x = some i := Cycle.ordinal?_eq_some_iff.mpr hx
  refine ⟨⟨x, c.routerLatency.toNat, channel.ordinal? x⟩, ?_, rfl, hordinal⟩
  rw [s.routers_of_channel hpolicy w]
  exact List.mem_map.mpr ⟨x, List.mem_range.mpr hlt, rfl⟩

theorem numbers_perm (s : Stages c endpoints t placements wiring)
    (hpolicy : c.escapeRankPolicy = .segmentOrdinal) (w : wiring.Channel others channel) :
    (t.routers.filterMap (·.escapeRank)).Perm (List.range channel.size) := by
  rw [s.routers_of_channel hpolicy w, List.filterMap_map]
  -- two routers with one number would share a position on the channel
  have hnodup : ((List.range (t.grid.rows * t.grid.cols)).filterMap channel.ordinal?).Nodup := by
    apply List.Nodup.filterMap _ List.nodup_range
    intro x y i hx hy
    have hx' := Cycle.ordinal?_eq_some_iff.mp hx
    have hy' := Cycle.ordinal?_eq_some_iff.mp hy
    exact Option.some.inj (hx'.symm.trans hy')
  apply (List.perm_ext_iff_of_nodup hnodup List.nodup_range).mpr
  intro i
  rw [List.mem_filterMap, List.mem_range]
  constructor
  · intro h
    obtain ⟨x, -, hx⟩ := h
    exact (List.getElem?_eq_some_iff.mp (Cycle.ordinal?_eq_some_iff.mp hx)).1
  · intro h
    have hx : channel.routers[i]? = some _ := List.getElem?_eq_getElem h
    exact ⟨_, List.mem_range.mpr (s.channel_router_lt w (List.mem_of_getElem? hx)),
      Cycle.ordinal?_eq_some_iff.mpr hx⟩

/-- One edge of the topology has a position on the channel. -/
theorem filter_channelOrdinal? (s : Stages c endpoints t placements wiring)
    (hpolicy : c.escapeRankPolicy = .segmentOrdinal) (w : wiring.Channel others channel)
    {i : Nat} {key : Nat × Nat} (hkey : channel.keys[i]? = some key) :
    ∃ l, (t.edges.filter fun l => l.channelOrdinal? = some i) = [l] ∧ l.edge = key := by
  obtain ⟨l, hl, hedge⟩ := s.exists_edge_iff.mpr (w.proposed key (List.mem_of_getElem? hkey))
  refine ⟨l, ?_, hedge⟩
  -- edges are told apart by their routers, and a position has only one pair of these
  have hnodup : t.edges.Nodup := List.Nodup.of_map _ s.nodup_edge_edges
  apply List.perm_singleton.mp
  apply (List.perm_ext_iff_of_nodup (hnodup.filter _) (List.nodup_singleton l)).mpr
  intro m
  rw [List.mem_filter, List.mem_singleton, decide_eq_true_eq]
  constructor
  · intro h
    obtain ⟨hm, hordinal⟩ := h
    rw [s.channelOrdinal?_eq hpolicy w hm, Cycle.edgeOrdinal?_eq_some_iff] at hordinal
    have hsame : m.edge = l.edge := Option.some.inj (hordinal.symm.trans (hedge ▸ hkey))
    exact List.inj_on_of_nodup_map s.nodup_edge_edges hm hl hsame
  · intro h
    subst h
    refine ⟨hl, ?_⟩
    rw [s.channelOrdinal?_eq hpolicy w hl, Cycle.edgeOrdinal?_eq_some_iff, hedge]
    exact hkey

/-- The channel of a wiring is one cycle of its topology. -/
theorem channelCycle (s : Stages c endpoints t placements wiring)
    (hpolicy : c.escapeRankPolicy = .segmentOrdinal) (w : wiring.Channel others channel) :
    t.ChannelCycle channel.size := by
  have hnumbers := s.numbers_perm hpolicy w
  refine {
    count := ?_
    numbers := hnumbers
    ordinal_lt := ?_
    edges := ?_ }
  · rw [← List.length_filterMap_eq_countP, hnumbers.length_eq, List.length_range]
  · intro l hl i hordinal
    rw [s.channelOrdinal?_eq hpolicy w hl, Cycle.edgeOrdinal?_eq_some_iff] at hordinal
    have hlt := (List.getElem?_eq_some_iff.mp hordinal).1
    rwa [Cycle.length_keys] at hlt
  · intro i hi
    have hnext : (i + 1) % channel.size < channel.size := Nat.mod_lt _ channel.size_pos
    have hx : channel.routers[i]? = some _ := List.getElem?_eq_getElem hi
    have hy : channel.routers[(i + 1) % channel.size]? = some _ := List.getElem?_eq_getElem hnext
    -- the routers at both positions, and the edge of the channel between them
    obtain ⟨a, ha, hrank, hnumber⟩ := s.exists_router hpolicy w hx
    obtain ⟨b, hb, hrank', hnumber'⟩ := s.exists_router hpolicy w hy
    have hkey := Cycle.keys_getElem?_eq_some_iff.mpr ⟨_, _, hx, hy, rfl⟩
    obtain ⟨l, hfilter, hedge⟩ := s.filter_channelOrdinal? hpolicy w hkey
    rw [← hrank, ← hrank'] at hedge
    exact ⟨l, a, b, hfilter, ha, hnumber, hb, hnumber', edgeKey_eq_iff.mp hedge⟩

/-! ## The two families -/

/-- A ring is wired by one cycle, which visits all routers in the order of their ranks. -/
theorem ringCycle (s : Stages c endpoints t placements wiring) (hfamily : c.family = .ring) :
    ∃ channel, wiring = ⟨Wiring.ringProposals channel, some [channel]⟩ ∧ channel.role = .ring ∧
      channel.routers = List.range (t.grid.rows * t.grid.cols) := by
  have hwired := s.wired
  rw [hfamily] at hwired
  simp only [Family.wiring, bind_eq_ok, liftM_eq_ok, Grid.size_ok_iff, pure_eq_ok] at hwired
  obtain ⟨_, ⟨-, rfl⟩, channel, hchannel, rfl⟩ := hwired
  obtain ⟨hrole, hrouters⟩ := Wiring.ringCycle_cases hchannel
  exact ⟨channel, rfl, hrole, hrouters⟩

/-- A ring network is its own channel. -/
theorem channel_of_ring (s : Stages c endpoints t placements wiring) (hfamily : c.family = .ring) :
    ∃ channel, wiring.Channel [] channel ∧ channel.size = t.routers.length := by
  obtain ⟨channel, rfl, hrole, hrouters⟩ := s.ringCycle hfamily
  refine ⟨channel, ⟨rfl, by simp, by rw [hrole]; rfl, ?_⟩, ?_⟩
  · intro key hkey
    exact Wiring.exists_ringProposals_iff.mpr hkey
  · rw [Cycle.size, hrouters, List.length_range, s.length_routers]

/-- The channel of a hierarchical ring is its central ring. -/
theorem channel_of_hierarchicalRing (s : Stages c endpoints t placements wiring)
    (hfamily : c.family = .hierarchicalRing) :
    ∃ others channel, wiring.Channel others channel ∧
      channel.size = 2 * (t.grid.rows - 2) := by
  obtain ⟨halves, central, r, rfl⟩ := s.hierarchicalRings hfamily
  refine ⟨halves, central, ⟨rfl, ?_, r.central_on_channel, ?_⟩, r.central_size⟩
  · intro x hx
    exact r.half_off_channel hx
  · intro key hkey
    exact Wiring.exists_hierarchicalProposals_iff.mpr (.inr hkey)

end Stages

/-! ## Main statement -/

/-- **The escape channel** of a ring family, numbered by position, is one cycle: over
    all routers of a ring, and over the middle columns of a hierarchical ring. -/
theorem escapeChannel_cycle {c : Configuration} {endpoints : List Endpoint} {t : Topology}
    (h : synthesize c endpoints = .ok t) (hpolicy : c.escapeRankPolicy = .segmentOrdinal)
    (hfamily : c.family = .ring ∨ c.family = .hierarchicalRing) :
    t.ChannelCycle
      (if c.family = .ring then t.routers.length else 2 * (t.grid.rows - 2)) := by
  obtain ⟨placements, wiring, s⟩ := synthesize_stages h
  rcases hfamily with hring | hhierarchical
  · obtain ⟨channel, w, hsize⟩ := s.channel_of_ring hring
    rw [if_pos hring, ← hsize]
    exact s.channelCycle hpolicy w
  · obtain ⟨others, channel, w, hsize⟩ := s.channel_of_hierarchicalRing hhierarchical
    have hne : c.family ≠ .ring := by
      rw [hhierarchical]
      decide
    rw [if_neg hne, ← hsize]
    exact s.channelCycle hpolicy w

theorem escapeChannel_cycle_sixByFour :
    ∃ t, synthesize .sixByFour (Endpoint.population 24 0 1) = .ok t ∧
      t.grid = ⟨6, 4⟩ ∧ t.ChannelCycle (2 * (t.grid.rows - 2)) := by
  obtain ⟨t, h⟩ := exists_synthesize_sixByFour
  exact ⟨t, h, synthesize_grid h rfl, escapeChannel_cycle h rfl (.inr rfl)⟩

end Interconnect
