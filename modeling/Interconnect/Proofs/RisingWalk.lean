import Interconnect.Proofs.Escape.Climb
import Interconnect.Proofs.Overlay
import Interconnect.Proofs.Walk
import Mathlib.Data.List.Forall2

/-! # Walks with rising ranks

    A rising walk follows links of one ring, in either direction, so that their
    numbers rise. Links of a ring run over its edges with the edge's position as the
    number, and so rising walks are the climbs on the ring (`RisingWalk.climb`,
    `exists_walk_of_climb`). Two main statements are read off the courses of climbs:

    * a rising walk returns to a router only by a whole lap of its ring, which closes
      at the router it starts from (`risingWalk_returns_only_by_lap`);
    * on the escape channel, rising walks lead from a router to those ahead of it, to
      the first one, and to the one right behind (`risingWalk_reaches_iff`).
-/

namespace Interconnect

open Escape (Climb Course Crosses Cycle Plan Rank Role)

/-! ## Positions -/

namespace Escape.Cycle

/-- The routers at a list of positions of a cycle. -/
def Locates (c : Cycle) : List Nat → List Nat → Prop :=
  List.Forall₂ fun position router => c.routers[position]? = some router

variable {c : Cycle} {positions routers : List Nat}

/-- Positions are passed twice exactly if their routers are. -/
theorem Locates.nodup_iff (h : c.Locates positions routers) :
    positions.Nodup ↔ routers.Nodup := by
  refine List.rel_nodup ⟨?_, ?_⟩ h
  · intro i router j hi hj
    exact position_unique hi hj
  · intro i router router' h h'
    exact Option.some.inj (h.symm.trans h')

/-- On a ring that visits routers in the order of their ranks, positions are routers. -/
theorem Locates.eq_of_range {n : Nat} (hrouters : c.routers = List.range n)
    (h : c.Locates positions routers) : positions = routers := by
  induction h with
  | nil => rfl
  | cons hhead htail ih =>
    rw [hrouters] at hhead
    obtain ⟨hlt, hsame⟩ := List.getElem?_eq_some_iff.mp hhead
    rw [List.getElem_range] at hsame
    rw [hsame, ih]

end Escape.Cycle

/-! ## Rising walks -/

namespace Topology

/-- The walks over links of one ring whose numbers rise. -/
structure RisingWalk (t : Topology) (role : Role) (a b : Nat) (walk : List InternalLink)
    (ordinals : List Nat) : Prop where
  walks : t.Walk a b walk
  ranks : walk.map (·.escape) = ordinals.map fun i => some ⟨role, i⟩
  rising : ordinals.Pairwise (· < ·)

/-- A link with a rank on a ring runs over the edge at this position. -/
def NumberedBy (t : Topology) (ring : Cycle) : Prop :=
  ∀ l ∈ t.links, ∀ i, l.escape = some ⟨ring.role, i⟩ → ring.keys[i]? = some l.edge

/-- Every edge of a ring has a link in each direction with its position as the rank. -/
def Carries (t : Topology) (ring : Cycle) : Prop :=
  ∀ i a b, ring.keys[i]? = some (edgeKey a b) →
    ∃ l ∈ t.links, l.source = a ∧ l.target = b ∧ l.escape = some ⟨ring.role, i⟩

variable {t : Topology} {ring : Cycle} {a b : Nat} {walk : List InternalLink}
  {ordinals : List Nat}

/-- A walk along a ring is a climb on it if its numbers rise from a least one on. -/
theorem Walk.climb (hring : t.NumberedBy ring) (hwalk : t.Walk a b walk) {p least : Nat}
    (hranks : walk.map (·.escape) = ordinals.map fun i => some ⟨ring.role, i⟩)
    (hrising : ordinals.Pairwise (· < ·)) (hleast : ∀ i ∈ ordinals, least ≤ i)
    (hp : ring.routers[p]? = some a) :
    ∃ q track, ring.routers[q]? = some b ∧ Climb ring.size least p q ordinals track ∧
      ring.Locates (p :: track) (visits a walk) := by
  induction hwalk generalizing p least ordinals with
  | stay a =>
    have hnil : ordinals = [] := by simpa using hranks.symm
    subst hnil
    exact ⟨p, [], hp, .stay least p, .cons hp .nil⟩
  | @follow a b l rest hl hsource hrest ih =>
    cases ordinals with
    | nil => cases hranks
    | cons i ordinals =>
      rw [List.map_cons, List.map_cons, List.cons.injEq] at hranks
      obtain ⟨hrank, hranks⟩ := hranks
      obtain ⟨hfirst, hrising⟩ := List.pairwise_cons.mp hrising
      -- the link leaves the position that the walk is at
      obtain ⟨p', q', hp', hq', hcross⟩ := Cycle.exists_crosses (hring l hl i hrank)
      rw [hsource] at hp'
      have hsame : p' = p := Cycle.position_unique hp' hp
      subst hsame
      obtain ⟨q, track, hq, hclimb, hlocates⟩ := ih hranks hrising hfirst hq'
      exact ⟨q, q' :: track, hq, .cross (hleast i List.mem_cons_self) hcross hclimb,
        .cons hp hlocates⟩

/-- A rising walk along a ring is a climb on it, from the first edge on. -/
theorem RisingWalk.climb (hring : t.NumberedBy ring)
    (h : t.RisingWalk ring.role a b walk ordinals) {p : Nat} (hp : ring.routers[p]? = some a) :
    ∃ q track, ring.routers[q]? = some b ∧ Climb ring.size 0 p q ordinals track ∧
      ring.Locates (p :: track) (visits a walk) := by
  have hleast : ∀ i ∈ ordinals, 0 ≤ i := fun i _ => Nat.zero_le i
  exact h.walks.climb hring h.ranks h.rising hleast hp

/-- Every climb on a ring is walked over its links. -/
theorem exists_walk_of_climb (hring : t.Carries ring) {p q least : Nat} {track : List Nat}
    (hclimb : Climb ring.size least p q ordinals track) (hp : ring.routers[p]? = some a)
    (hq : ring.routers[q]? = some b) :
    ∃ walk, t.RisingWalk ring.role a b walk ordinals ∧
      ring.Locates (p :: track) (visits a walk) := by
  induction hclimb generalizing a with
  | stay least p =>
    have hsame : a = b := Option.some.inj (hp.symm.trans hq)
    subst hsame
    exact ⟨[], ⟨.stay a, rfl, .nil⟩, .cons hp .nil⟩
  | @cross least i p p' q ordinals track hleast hcross hrest ih =>
    obtain ⟨x, hx⟩ : ∃ x, ring.routers[p']? = some x := ⟨_, List.getElem?_eq_getElem hcross.lt.2⟩
    obtain ⟨l, hl, hsource, rfl, hrank⟩ := hring i a x (hcross.key hp hx)
    obtain ⟨walk, hwalk, hlocates⟩ := ih hx hq
    have hranks : (l :: walk).map (·.escape) =
        (i :: ordinals).map fun i => some ⟨ring.role, i⟩ := by
      rw [List.map_cons, List.map_cons, hrank, hwalk.ranks]
    have hrising := (Climb.cross hleast hcross hrest).rising.1
    exact ⟨l :: walk, ⟨.follow hl hsource hwalk.walks, hranks, hrising⟩, .cons hp hlocates⟩

theorem RisingWalk.length_eq {role : Role} (h : t.RisingWalk role a b walk ordinals) :
    ordinals.length = walk.length := by
  have hlength := congrArg List.length h.ranks
  rw [List.length_map, List.length_map] at hlength
  exact hlength.symm

theorem RisingWalk.exists_first {role : Role} (h : t.RisingWalk role a b walk ordinals)
    (hmoves : walk ≠ []) : ∃ l ∈ t.links, l.source = a ∧ ∃ i, l.escape = some ⟨role, i⟩ := by
  obtain ⟨hwalk, hranks, -⟩ := h
  cases hwalk with
  | stay => exact absurd rfl hmoves
  | @follow _ _ l rest hl hsource hrest =>
    cases ordinals with
    | nil => cases hranks
    | cons i ordinals =>
      rw [List.map_cons, List.map_cons, List.cons.injEq] at hranks
      exact ⟨l, hl, hsource, i, hranks.1⟩

/-! ## At most one lap -/

/-- A walk along a ring is at most one lap, and comes back to a router only by a
    whole one. -/
structure WithinLap (ring : Cycle) (a b : Nat) (walk : List InternalLink)
    (ordinals : List Nat) : Prop where
  length_le : walk.length ≤ ring.size
  nodup_iff : (visits a walk).Nodup ↔ walk.length < ring.size
  /-- A whole lap leads from the first router to itself, over all edges in order. -/
  lap : walk.length = ring.size →
    ring.routers[0]? = some a ∧ b = a ∧ ordinals = List.range ring.size

theorem RisingWalk.withinLap (hring : t.NumberedBy ring)
    (h : t.RisingWalk ring.role a b walk ordinals) (hmoves : walk ≠ []) :
    WithinLap ring a b walk ordinals := by
  -- the walk starts at a router of the ring, and is a climb from its position
  obtain ⟨l, hl, rfl, i, hrank⟩ := h.exists_first hmoves
  obtain ⟨p, -, hp, -, -⟩ := Cycle.exists_crosses (hring l hl i hrank)
  obtain ⟨q, track, hq, hclimb, hlocates⟩ := h.climb hring hp
  have hlt : p < ring.size := (List.getElem?_eq_some_iff.mp hp).1
  have hcourse := hclimb.course hlt
  obtain ⟨hle, hnodup⟩ := hcourse.nodup_iff ring.three_le hlt
  rw [h.length_eq] at hle hnodup
  refine ⟨hle, ?_, ?_⟩
  · rw [← hlocates.nodup_iff]
    exact hnodup
  · intro hlap
    obtain ⟨rfl, rfl, hordinals⟩ := hcourse.of_lap ring.three_le (h.length_eq.trans hlap)
    exact ⟨hp, Option.some.inj (hq.symm.trans hp), hordinals⟩

/-- From the first router of a ring, a rising walk leads once around it. -/
theorem exists_lap (hring : t.Carries ring) :
    ∃ a walk, ring.routers[0]? = some a ∧
      t.RisingWalk ring.role a a walk (List.range ring.size) ∧
      ring.Locates (0 :: (List.range' 1 ring.size).map (· % ring.size)) (visits a walk) := by
  obtain ⟨a, ha⟩ : ∃ a, ring.routers[0]? = some a := ⟨_, List.getElem?_eq_getElem ring.size_pos⟩
  have hclimb := Escape.climb_onward (show 0 + ring.size ≤ ring.size by omega) ring.size_pos
  rw [Nat.zero_add, Nat.mod_self, ← List.range_eq_range'] at hclimb
  obtain ⟨walk, hwalk, hlocates⟩ := exists_walk_of_climb hring hclimb ha ha
  exact ⟨a, walk, ha, hwalk, hlocates⟩

/-! ## Where rising walks lead -/

/-- On a ring that a topology carries, a rising walk leads to the routers ahead, to the
    first router, and to the one right behind. -/
theorem exists_risingWalk_iff (hnumbered : t.NumberedBy ring) (hcarries : t.Carries ring)
    {i j : Nat} (ha : ring.routers[i]? = some a) (hb : ring.routers[j]? = some b) (hne : a ≠ b) :
    (∃ walk ordinals, t.RisingWalk ring.role a b walk ordinals) ↔ i < j ∨ j = 0 ∨ j + 1 = i := by
  have hi : i < ring.size := (List.getElem?_eq_some_iff.mp ha).1
  have hj : j < ring.size := (List.getElem?_eq_some_iff.mp hb).1
  have hij : i ≠ j := by
    intro hsame
    rw [hsame] at ha
    exact hne (Option.some.inj (ha.symm.trans hb))
  rw [← Escape.exists_climb_iff hi hj hij]
  constructor
  · intro h
    obtain ⟨walk, ordinals, hwalk⟩ := h
    obtain ⟨q, track, hq, hclimb, -⟩ := hwalk.climb hnumbered ha
    rw [Cycle.position_unique hq hb] at hclimb
    exact ⟨ordinals, track, hclimb⟩
  · intro h
    obtain ⟨ordinals, track, hclimb⟩ := h
    obtain ⟨walk, hwalk, -⟩ := exists_walk_of_climb hcarries hclimb ha hb
    exact ⟨walk, ordinals, hwalk⟩

end Topology

/-! ## Links of the ring families -/

namespace Stages

variable {c : Configuration} {endpoints : List Endpoint} {t : Topology}
  {placements : List Placement} {wiring : Wiring} {others : List Cycle} {channel : Cycle}

/-- By position, the rank of a link is a place on a ring that runs over it. -/
theorem exists_ring_of_escape (s : Stages c endpoints t placements wiring)
    (hpolicy : c.escapeRankPolicy = .segmentOrdinal) (w : wiring.Channel others channel)
    {l : InternalLink} (hl : l ∈ t.links) {rank : Rank} (hrank : l.escape = some rank) :
    ∃ ring ∈ others ++ [channel], rank.role = ring.role ∧
      ring.keys[rank.ordinal]? = some l.edge := by
  have hescape := s.links_escape (s.plan_of_channel hpolicy w) Plan.ofCycles_policy hl
  obtain ⟨ring, hring, hranks⟩ := Plan.exists_ranks (hescape.symm.trans hrank)
  exact ⟨ring, hring, hranks.role, hranks.ordinal rfl⟩

theorem numberedBy (s : Stages c endpoints t placements wiring)
    (hpolicy : c.escapeRankPolicy = .segmentOrdinal) (w : wiring.Rings others channel)
    {ring : Cycle} (hring : ring ∈ others ++ [channel]) : t.NumberedBy ring := by
  intro l hl i hrank
  obtain ⟨x, hx, hrole, hkey⟩ := s.exists_ring_of_escape hpolicy w.toChannel hl hrank
  have hsame : ring = x := List.inj_on_of_nodup_map w.nodup_roles hring hx hrole
  rw [hsame]
  exact hkey

/-- No cycle is added after the channel, so that its ranks stand. -/
theorem carries (s : Stages c endpoints t placements wiring)
    (hpolicy : c.escapeRankPolicy = .segmentOrdinal) (w : wiring.Channel others channel) :
    t.Carries channel := by
  intro i a b hkey
  obtain ⟨e, he, hedge⟩ := s.exists_edge_iff.mpr (w.proposed _ (List.mem_of_getElem? hkey))
  have hlink : ∃ l ∈ t.links, l.source = a ∧ l.target = b := by
    rcases edgeKey_eq_iff.mp hedge with ⟨rfl, rfl⟩ | ⟨rfl, rfl⟩
    · exact ⟨e, Topology.mem_links.mpr ⟨e, he, .inl rfl⟩, rfl, rfl⟩
    · exact ⟨e.reversed, Topology.mem_links.mpr ⟨e, he, .inr rfl⟩, rfl, rfl⟩
  obtain ⟨l, hl, rfl, rfl⟩ := hlink
  refine ⟨l, hl, rfl, rfl, ?_⟩
  rw [s.links_escape (s.plan_of_channel hpolicy w) Plan.ofCycles_policy hl]
  exact Plan.edgeRank?_of_getElem? hkey

theorem withinLap (s : Stages c endpoints t placements wiring)
    (hpolicy : c.escapeRankPolicy = .segmentOrdinal) (w : wiring.Rings others channel)
    {role : Role} {a b : Nat} {walk : List InternalLink} {ordinals : List Nat}
    (h : t.RisingWalk role a b walk ordinals) (hmoves : walk ≠ []) :
    ∃ ring ∈ others ++ [channel], ring.role = role ∧
      Topology.WithinLap ring a b walk ordinals := by
  obtain ⟨l, hl, -, i, hrank⟩ := h.exists_first hmoves
  obtain ⟨ring, hring, hrole, -⟩ := s.exists_ring_of_escape hpolicy w.toChannel hl hrank
  have hnumbered := s.numberedBy hpolicy w hring
  subst hrole
  exact ⟨ring, hring, rfl, h.withinLap hnumbered hmoves⟩

end Stages

/-! ## Main statements -/

/-- **Rising walks return only by a lap**: by position, a walk with rising ranks on one
    ring of a ring family is at most one lap, and passes no router twice unless it is a
    whole lap. There is one on the escape channel. -/
theorem risingWalk_returns_only_by_lap {c : Configuration} {endpoints : List Endpoint}
    {t : Topology} (h : synthesize c endpoints = .ok t)
    (hpolicy : c.escapeRankPolicy = .segmentOrdinal)
    (hfamily : c.family = .ring ∨ c.family = .hierarchicalRing) :
    ∃ plan, t.plan = some plan ∧
      (∀ role a b walk ordinals, t.RisingWalk role a b walk ordinals → walk ≠ [] →
        ∃ ring, plan.cycle? role = some ring ∧ Topology.WithinLap ring a b walk ordinals) ∧
      ∃ channel ∈ plan.cycles, channel.role.isEscapeChannel ∧
        ∃ a walk, t.RisingWalk channel.role a a walk (List.range channel.size) := by
  obtain ⟨placements, wiring, s⟩ := synthesize_stages h
  obtain ⟨others, channel, w⟩ := s.exists_rings hfamily
  have hcycles : (Plan.ofCycles .segmentOrdinal (others ++ [channel])).cycles =
      others ++ [channel] := Plan.ofCycles_cycles
  have hroles := w.nodup_roles
  rw [← hcycles] at hroles
  refine ⟨_, s.plan_of_channel hpolicy w.toChannel, ?_, ?_⟩
  · intro role a b walk ordinals hwalk hmoves
    obtain ⟨ring, hring, hrole, hlap⟩ := s.withinLap hpolicy w hwalk hmoves
    rw [← hcycles] at hring
    exact ⟨ring, (Plan.cycle?_eq_some_iff hroles).mpr ⟨hring, hrole⟩, hlap⟩
  · obtain ⟨a, walk, -, hlap, -⟩ := Topology.exists_lap (s.carries hpolicy w.toChannel)
    exact ⟨channel, by simp, w.channel_on, a, walk, hlap⟩

theorem risingWalk_returns_only_by_lap_sixByFour :
    ∃ t plan, synthesize .sixByFour (Endpoint.population 24 0 1) = .ok t ∧
      t.plan = some plan ∧
      ∀ role a b walk ordinals, t.RisingWalk role a b walk ordinals → walk ≠ [] →
        ∃ ring, plan.cycle? role = some ring ∧ Topology.WithinLap ring a b walk ordinals := by
  obtain ⟨t, h⟩ := exists_synthesize_sixByFour
  obtain ⟨plan, hplan, hlap, -⟩ := risingWalk_returns_only_by_lap h rfl (.inr rfl)
  exact ⟨t, plan, h, hplan, hlap⟩

/-- In the ring of four, a walk over the edges 0, 1, 2 and 3 comes back to router 0. -/
theorem fourRing_lap :
    ∃ t walk, synthesize (.fourRing .segmentOrdinal) (Endpoint.population 4 0 0) = .ok t ∧
      t.RisingWalk .ring 0 0 walk [0, 1, 2, 3] ∧
      Topology.visits 0 walk = [0, 1, 2, 3, 0] ∧ ¬ (Topology.visits 0 walk).Nodup := by
  obtain ⟨t, placements, channel, h, s, w, hrole, hrouters⟩ :=
    exists_fourRing_stages .segmentOrdinal
  obtain ⟨a, walk, ha, hwalk, hlocates⟩ := Topology.exists_lap (s.carries rfl w.toChannel)
  have hsize : channel.size = 4 := by
    rw [Cycle.size, hrouters]
    rfl
  have hzero : a = 0 := by
    rw [hrouters] at ha
    exact (Option.some.inj ha).symm
  have hvisits := hlocates.eq_of_range hrouters
  rw [hzero, hsize] at hvisits
  rw [hzero, hsize, hrole] at hwalk
  refine ⟨t, walk, h, hwalk, hvisits.symm, ?_⟩
  rw [← hvisits]
  decide

/-- **Where rising walks lead**: by position, one ring makes up the escape channel of a
    ring family, and a walk with rising ranks along it leads from one router to
    another exactly if the other one is ahead, is the first one, or is right behind. -/
theorem risingWalk_reaches_iff {c : Configuration} {endpoints : List Endpoint}
    {t : Topology} (h : synthesize c endpoints = .ok t)
    (hpolicy : c.escapeRankPolicy = .segmentOrdinal)
    (hfamily : c.family = .ring ∨ c.family = .hierarchicalRing) :
    ∃ plan channel, t.plan = some plan ∧
      (plan.cycles.filter fun ring => ring.role.isEscapeChannel) = [channel] ∧
      4 ≤ channel.size ∧
      ∀ (i j a b : Nat), channel.routers[i]? = some a → channel.routers[j]? = some b → a ≠ b →
        ((∃ walk ordinals, t.RisingWalk channel.role a b walk ordinals) ↔
          i < j ∨ j = 0 ∨ j + 1 = i) := by
  obtain ⟨placements, wiring, s⟩ := synthesize_stages h
  obtain ⟨others, channel, w⟩ := s.exists_rings hfamily
  have hnumbered : t.NumberedBy channel := s.numberedBy hpolicy w (by simp)
  have hcarries : t.Carries channel := s.carries hpolicy w.toChannel
  refine ⟨_, channel, s.plan_of_channel hpolicy w.toChannel, ?_, w.four_le, ?_⟩
  · rw [Plan.ofCycles_cycles]
    exact w.filter_cycles
  · intro i j a b ha hb hne
    exact Topology.exists_risingWalk_iff hnumbered hcarries ha hb hne

theorem risingWalk_reaches_iff_sixByFour :
    ∃ t plan channel, synthesize .sixByFour (Endpoint.population 24 0 1) = .ok t ∧
      t.plan = some plan ∧
      (plan.cycles.filter fun ring => ring.role.isEscapeChannel) = [channel] ∧
      ∀ (i j a b : Nat), channel.routers[i]? = some a → channel.routers[j]? = some b → a ≠ b →
        ((∃ walk ordinals, t.RisingWalk channel.role a b walk ordinals) ↔
          i < j ∨ j = 0 ∨ j + 1 = i) := by
  obtain ⟨t, h⟩ := exists_synthesize_sixByFour
  obtain ⟨plan, channel, hplan, hfilter, -, hreaches⟩ := risingWalk_reaches_iff h rfl (.inr rfl)
  exact ⟨t, plan, channel, h, hplan, hfilter, hreaches⟩

/-- In the ring of four, no rising walk leads from router 3 to router 1. -/
theorem fourRing_unreachable :
    ∃ t plan channel, synthesize (.fourRing .segmentOrdinal) (Endpoint.population 4 0 0) = .ok t ∧
      t.plan = some plan ∧ plan.cycle? .ring = some channel ∧
      3 ∈ channel.routers ∧ 1 ∈ channel.routers ∧
      ¬ ∃ walk ordinals, t.RisingWalk .ring 3 1 walk ordinals := by
  obtain ⟨t, placements, channel, h, s, w, hrole, hrouters⟩ :=
    exists_fourRing_stages .segmentOrdinal
  have hplan := s.plan_of_channel rfl w.toChannel
  have hnumbered : t.NumberedBy channel := s.numberedBy rfl w (by simp)
  have hcycle : (Plan.ofCycles .segmentOrdinal ([] ++ [channel])).cycle? .ring = some channel := by
    rw [Plan.cycle?, Plan.ofCycles_cycles, List.nil_append, List.find?_cons, hrole]
    rfl
  have hthree : channel.routers[3]? = some 3 := by
    rw [hrouters]
    rfl
  have hone : channel.routers[1]? = some 1 := by
    rw [hrouters]
    rfl
  have hiff := Topology.exists_risingWalk_iff hnumbered (s.carries rfl w.toChannel) hthree hone
    (by decide)
  rw [hrole] at hiff
  refine ⟨t, _, channel, h, hplan, hcycle, List.mem_of_getElem? hthree,
    List.mem_of_getElem? hone, ?_⟩
  rw [hiff]
  decide

end Interconnect
