import Interconnect.Proofs.Ports

/-! # Hops

    What tells the forward links of a network apart is where they lead from and to, with
    which weight, by which ports, and with which rank on the escape channel: a hop. The
    rest is the same for all of them, or counts them. A network has the hops that were
    proposed, in that order, less those whose edge was there already
    (`Stages.edges_eq_links`), so that a list of hops says all there is to say about its
    internal links.
-/

namespace Interconnect

open Proposal (fresh)

/-- The routers that a link leads from and to. -/
def InternalLink.ends (l : InternalLink) : Nat × Nat :=
  (l.source, l.target)

/-- A way from one router to another. -/
structure Hop where
  source : Nat
  target : Nat
  weight : Nat
  /-- The ports it leaves and enters its routers by, if it has any. -/
  ports : Option (Port × Port)
  escape : Option Escape.Rank
  deriving DecidableEq, Repr

namespace Hop

variable {first latency : Nat} {hops : List Hop} {hop : Hop}

/-! ## Links -/

/-- The forward link of a hop that `k` others come before. They and their reverses have
    taken the numbers from the first one on. -/
def link (first latency k : Nat) (hop : Hop) : InternalLink where
  id := first + 2 * k
  source := hop.source
  target := hop.target
  sourcePort := hop.ports.map (·.1)
  targetPort := hop.ports.map (·.2)
  latency
  weight := hop.weight
  escape := hop.escape

/-- Hops as forward links, numbered in order. -/
def links (first latency : Nat) (hops : List Hop) : List InternalLink :=
  hops.mapIdx (link first latency)

@[simp] theorem length_links : (links first latency hops).length = hops.length :=
  List.length_mapIdx

/-- What links have of their hops alone can be read off the hops. -/
theorem map_links {α : Type} {f : InternalLink → α} {g : Hop → α}
    (h : ∀ k hop, f (link first latency k hop) = g hop) :
    (links first latency hops).map f = hops.map g := by
  apply List.ext_getElem?
  intro k
  rw [links, List.getElem?_map, List.getElem?_mapIdx, List.getElem?_map, Option.map_map]
  congr 1
  funext hop
  exact h k hop

/-! ## Kinds of hops -/

/-- Along a row, from a cell to one further right. -/
def along (g : Grid) (row col col' : Nat) : Hop :=
  ⟨g.cell row col, g.cell row col', 1, some (.east, .west), none⟩

/-- Up a column, from a cell to one further up. -/
def upward (g : Grid) (row row' col : Nat) : Hop :=
  ⟨g.cell row col, g.cell row' col, 2, some (.north, .south), none⟩

/-- From one router to any other, without ports. -/
def direct (a b : Nat) : Hop :=
  ⟨a, b, 1, none, none⟩

end Hop

/-! ## The hops of a network -/

/-- A link of a weight leads from one router to another. -/
def Topology.Linked (t : Topology) (weight a b : Nat) : Prop :=
  ∃ l ∈ t.links, l.source = a ∧ l.target = b ∧ l.weight = weight

/-- Links lead both ways along the hops of a network. -/
theorem Topology.linked_iff {t : Topology} {first latency : Nat} {hops : List Hop}
    (h : t.edges = Hop.links first latency hops) {weight a b : Nat} :
    t.Linked weight a b ↔ ∃ hop ∈ hops, hop.weight = weight ∧
      ((hop.source = a ∧ hop.target = b) ∨ (hop.source = b ∧ hop.target = a)) := by
  -- a hop and its link have the same ends and the same weight
  have hends : t.edges.map (fun l => (l.source, l.target, l.weight)) =
      hops.map fun hop => (hop.source, hop.target, hop.weight) := by
    rw [h]
    exact Hop.map_links fun _ _ => rfl
  constructor
  · intro hlinked
    obtain ⟨l, hl, rfl, rfl, rfl⟩ := hlinked
    obtain ⟨e, he, hlink⟩ := mem_links.mp hl
    have hmem := List.mem_map_of_mem (f := fun l => (l.source, l.target, l.weight)) he
    rw [hends] at hmem
    obtain ⟨hop, hhop, hsame⟩ := List.mem_map.mp hmem
    obtain ⟨hsource, htarget, hweight⟩ : hop.source = e.source ∧ hop.target = e.target ∧
      hop.weight = e.weight := by simpa using hsame
    rcases hlink with rfl | rfl
    · exact ⟨hop, hhop, hweight, .inl ⟨hsource, htarget⟩⟩
    · exact ⟨hop, hhop, hweight, .inr ⟨hsource, htarget⟩⟩
  · intro hhops
    obtain ⟨hop, hhop, hweight, hway⟩ := hhops
    have hmem := List.mem_map_of_mem (f := fun hop => (hop.source, hop.target, hop.weight)) hhop
    rw [← hends] at hmem
    obtain ⟨e, he, hsame⟩ := List.mem_map.mp hmem
    obtain ⟨hsource, htarget, hweight'⟩ : e.source = hop.source ∧ e.target = hop.target ∧
      e.weight = hop.weight := by simpa using hsame
    rcases hway with ⟨rfl, rfl⟩ | ⟨rfl, rfl⟩
    · exact ⟨e, mem_links.mpr ⟨e, he, .inl rfl⟩, hsource, htarget, hweight'.trans hweight⟩
    · exact ⟨e.reversed, mem_links.mpr ⟨e, he, .inr rfl⟩, htarget, hsource,
        hweight'.trans hweight⟩

/-- The hop that a proposal asks for. -/
def Topology.hop (t : Topology) (p : Proposal) : Hop where
  source := p.source
  target := p.target
  weight := p.dimension.weight
  ports :=
    if p.dimension = .direct then none
    else Port.facing? (t.family.spot t.grid p.source) (t.family.spot t.grid p.target)
  escape := t.plan.bind fun plan => plan.edgeRank? p.source p.target

namespace Stages

variable {c : Configuration} {endpoints : List Endpoint} {t : Topology}
  {placements : List Placement} {wiring : Wiring}

/-- The forward links are the hops of the proposals that were accepted. -/
theorem edges_eq_links (s : Stages c endpoints t placements wiring) :
    t.edges = Hop.links endpoints.length c.linkLatency.toNat
      ((fresh [] wiring.proposals).map t.hop) := by
  have hlink : ∀ (k : Nat) (p : Proposal), Topology.overlay t.plan
      ((Draft.start c.family t.grid c.linkLatency.toNat placements.length).linkAt k p) =
        (t.hop p).link endpoints.length c.linkLatency.toNat k := by
    intro k p
    have hports := Draft.HasPorts.portsOrNone_eq
      (d := .start c.family t.grid c.linkLatency.toNat placements.length) (p := p)
      (.inr (Nat.ne_of_gt s.cols_pos))
    simp only [Topology.overlay, Draft.linkAt, Draft.linkOf, hports, Hop.link, Topology.hop,
      s.family, ← s.length_placements]
    rfl
  rw [s.edges, Hop.links]
  apply List.ext_getElem?
  intro k
  rw [List.getElem?_mapIdx, List.getElem?_mapIdx, List.getElem?_map, Option.map_map]
  congr 1
  funext p
  exact hlink k p

/-! ## Lattices -/

/-- Only the ring families lay out cycles, and have a plan of them. -/
theorem plan_eq_none (s : Stages c endpoints t placements wiring) (hring : c.family ≠ .ring)
    (hrings : c.family ≠ .hierarchicalRing) : t.plan = none := by
  have hwired := s.wired
  rw [s.plan]
  cases hfamily : c.family with
  | mesh | flattenedButterfly =>
    rw [hfamily] at hwired
    simp only [Family.wiring, bind_eq_ok, liftM_eq_ok, pure_eq_ok] at hwired
    obtain ⟨proposals, -, rfl⟩ := hwired
    rfl
  | fullyConnected =>
    rw [hfamily] at hwired
    simp only [Family.wiring, bind_eq_ok, liftM_eq_ok, pure_eq_ok] at hwired
    obtain ⟨routers, -, rfl⟩ := hwired
    rfl
  | ring => exact absurd hfamily hring
  | hierarchicalRing => exact absurd hfamily hrings

end Stages

namespace Topology

variable {t : Topology}

theorem hop_along (hplan : t.plan = none) (hfamily : t.family ≠ .ring) {row col col' : Nat}
    (hlt : col < col') (hcol : col' < t.grid.cols) :
    t.hop ⟨t.grid.cell row col, t.grid.cell row col', .row⟩ = .along t.grid row col col' := by
  simp [hop, hplan, Hop.along, Family.spot_cell hfamily hcol,
    Family.spot_cell hfamily (Nat.lt_trans hlt hcol), Port.facing?, hlt, Dimension.weight]

theorem hop_upward (hplan : t.plan = none) (hfamily : t.family ≠ .ring) {row row' col : Nat}
    (hlt : row < row') (hcol : col < t.grid.cols) :
    t.hop ⟨t.grid.cell row col, t.grid.cell row' col, .column⟩ = .upward t.grid row row' col := by
  simp [hop, hplan, Hop.upward, Family.spot_cell hfamily hcol, Port.facing?, hlt,
    Nat.ne_of_lt hlt, Dimension.weight]

theorem hop_direct (hplan : t.plan = none) (a b : Nat) :
    t.hop ⟨a, b, .direct⟩ = .direct a b := by
  simp [hop, hplan, Hop.direct, Dimension.weight]

end Topology

end Interconnect
