import Interconnect.Proofs.Hops
import Interconnect.Proofs.Neighbors
import Interconnect.Proofs.Wiring.Places
import Interconnect.Proofs.Wiring.RankOrder

/-! # The edges of a fully connected network

    Every router proposes every other one, so that every two routers are proposed to be
    joined twice. The edges that are left of this are the pairs of a smaller and a larger
    router in lexicographic order, each of them once (`Wiring.fresh_complete`), and between
    every two routers there is one link in each direction. `fullyConnected_edges` is the
    main statement.
-/

namespace Interconnect

open Proposal (fresh)
open Wiring (placesAfter)

/-! ## What is expected -/

/-- The hops between `n` routers, each from the smaller one. -/
def Hop.complete (n : Nat) : List Hop :=
  (List.range n).flatMap fun a => (placesAfter n a).map (direct a)

/-- The edges of a fully connected network whose links have a latency and are numbered on
    from a first id. -/
structure Topology.CompleteEdges (t : Topology) (first latency : Nat) : Prop where
  edges : t.edges = Hop.links first latency (Hop.complete t.routers.length)
  /-- The pairs come in lexicographic order, and none of them twice. -/
  ordered : (t.edges.map InternalLink.ends).Pairwise (Prod.Lex (· < ·) (· < ·))
  pairs : ∀ a b, (a, b) ∈ t.edges.map InternalLink.ends ↔ a < b ∧ b < t.routers.length
  count : t.edges.length = t.routers.length * (t.routers.length - 1) / 2
  degree : ∀ r ∈ t.routers, t.Degree r.rank (t.routers.length - 1)
  between : ∀ a ∈ t.routers, ∀ b ∈ t.routers, a ≠ b →
    (t.links.countP fun l => l.source = a.rank ∧ l.target = b.rank) = 1

/-! ## Pairs -/

/-- The pairs of a smaller and a larger number below `n`. -/
def ascendingPairs (n : Nat) : List (Nat × Nat) :=
  (List.range n).flatMap fun a => (placesAfter n a).map fun b => (a, b)

theorem mem_ascendingPairs {n a b : Nat} : (a, b) ∈ ascendingPairs n ↔ a < b ∧ b < n := by
  simp only [ascendingPairs, List.mem_flatMap, List.mem_range, List.mem_map,
    Wiring.mem_placesAfter, Prod.mk.injEq]
  constructor
  · intro h
    obtain ⟨_, -, _, hlt, rfl, rfl⟩ := h
    exact hlt
  · intro h
    exact ⟨a, by omega, b, h, rfl, rfl⟩

theorem ascendingPairs_pairwise (n : Nat) :
    (ascendingPairs n).Pairwise (Prod.Lex (· < ·) (· < ·)) := by
  rw [ascendingPairs, List.pairwise_flatMap]
  constructor
  · -- pairs with one first number, by their second ones
    intro a _
    rw [List.pairwise_map]
    exact (List.pairwise_lt_range.sublist (List.drop_sublist _ _)).imp (.right a)
  · apply List.pairwise_lt_range.imp
    intro a a' hlt p hp q hq
    obtain ⟨b, -, rfl⟩ := List.mem_map.mp hp
    obtain ⟨b', -, rfl⟩ := List.mem_map.mp hq
    exact .left b b' hlt

example : ascendingPairs 4 = [(0, 1), (0, 2), (0, 3), (1, 2), (1, 3), (2, 3)] := by decide

/-- The hops of a fully connected network lead along these pairs. -/
theorem Hop.complete_ends (first latency n : Nat) :
    (links first latency (complete n)).map InternalLink.ends = ascendingPairs n := by
  rw [map_links (g := fun hop => (hop.source, hop.target)) fun _ _ => rfl, complete,
    List.map_flatMap]
  simp only [List.map_map]
  rfl

theorem Hop.length_complete (n : Nat) : (complete n).length = n * (n - 1) / 2 := by
  simp only [complete, List.length_flatMap, List.length_map]
  rw [Wiring.sum_length_placesAfter, Nat.choose_two_right]

/-! ## Proposals -/

namespace Wiring

variable {n a : Nat}

theorem completeFrom_targets (n a : Nat) :
    (completeFrom n a).map (·.target) = (List.range n).filter (· ≠ a) := by
  rw [completeFrom, List.map_map]
  exact List.map_id _

/-- A router that is proposed proposes an edge back. -/
theorem completeFrom_answered {p : Proposal} (ha : a < n) (hp : p ∈ completeFrom n a) :
    ∃ q ∈ completeFrom n p.target, q.target = a := by
  obtain ⟨b, -, hne, rfl⟩ := mem_completeFrom.mp hp
  exact ⟨⟨b, a, .direct⟩, mem_completeFrom.mpr ⟨a, ha, hne.symm, rfl⟩, rfl⟩

theorem completeFrom_rankOrdered (n : Nat) : RankOrdered n (completeFrom n) where
  source := by
    intro a _ p hp
    obtain ⟨b, -, -, rfl⟩ := mem_completeFrom.mp hp
    rfl
  distinct := by
    intro a _ p hp
    obtain ⟨b, -, hne, rfl⟩ := mem_completeFrom.mp hp
    exact hne
  nodup := by
    intro a _
    rw [completeFrom_targets]
    exact List.nodup_range.filter _
  back := fun a ha p hp _ => completeFrom_answered ha hp

/-- The pairs that are accepted are those of a smaller and a larger router. -/
theorem fresh_complete (n : Nat) :
    fresh [] (complete n) =
      (List.range n).flatMap fun a => (placesAfter n a).map fun b => ⟨a, b, .direct⟩ := by
  rw [complete_eq, (completeFrom_rankOrdered n).fresh_eq]
  apply List.flatMap_congr
  intro a _
  -- a larger router is another one
  have hlarger : (((List.range n).filter (· ≠ a)).filter fun b => a < b) = placesAfter n a := by
    rw [List.filter_filter, ← filter_range_lt]
    apply List.filter_congr
    intro b _
    by_cases hlt : a < b
    · simp [hlt, Nat.ne_of_gt hlt]
    · simp [hlt]
  rw [completeFrom, List.filter_map, ← hlarger]
  rfl

/-- Every router is proposed to be joined with every other one. -/
theorem complete_joins_iff {b : Nat} (ha : a < n) :
    (∃ p ∈ complete n, p.key = edgeKey a b) ↔ b < n ∧ b ≠ a := by
  have hanswered : ∀ a < n, ∀ p ∈ completeFrom n a, ∃ q ∈ completeFrom n p.target, q.target = a :=
    fun a ha p hp => completeFrom_answered ha hp
  rw [complete_eq, ← (completeFrom_rankOrdered n).mem_targets_iff hanswered ha,
    completeFrom_targets, List.mem_filter, List.mem_range, decide_eq_true_eq]

end Wiring

/-! ## Stages -/

namespace Stages

variable {c : Configuration} {endpoints : List Endpoint} {t : Topology}
  {placements : List Placement} {wiring : Wiring} {a b : Nat}

theorem fullyConnected_hops (s : Stages c endpoints t placements wiring)
    (hfamily : c.family = .fullyConnected) :
    (fresh [] wiring.proposals).map t.hop = Hop.complete t.routers.length := by
  have hplan : t.plan = none := s.plan_eq_none (by simp [hfamily]) (by simp [hfamily])
  rw [s.fullyConnected_proposals hfamily, ← s.length_routers, Wiring.fresh_complete,
    List.map_flatMap, Hop.complete]
  apply List.flatMap_congr
  intro a _
  rw [List.map_map]
  apply List.map_congr_left
  intro b _
  exact Topology.hop_direct hplan a b

theorem fullyConnected_joins_iff (s : Stages c endpoints t placements wiring)
    (hfamily : c.family = .fullyConnected) (ha : a < t.routers.length) :
    (∃ p ∈ wiring.proposals, p.key = edgeKey a b) ↔ b < t.routers.length ∧ b ≠ a := by
  rw [s.fullyConnected_proposals hfamily, ← s.length_routers]
  exact Wiring.complete_joins_iff ha

/-- A router of a fully connected network is joined to all others. -/
theorem fullyConnected_degree (s : Stages c endpoints t placements wiring)
    (hfamily : c.family = .fullyConnected) (hroom : t.routers.length ≤ Graph.room)
    (ha : a < t.routers.length) : t.Degree a (t.routers.length - 1) := by
  rw [← Wiring.length_placesAround (i := a)]
  apply s.degree hroom ha (Wiring.nodup_placesAround ha)
  intro b
  rw [s.fullyConnected_joins_iff hfamily ha, Wiring.mem_placesAround ha]

end Stages

/-! ## Main statement -/

/-- **The edges of a fully connected network** are all pairs of routers, each from the
    smaller one, in lexicographic order. -/
theorem fullyConnected_edges {c : Configuration} {endpoints : List Endpoint} {t : Topology}
    (h : synthesize c endpoints = .ok t) (hfamily : c.family = .fullyConnected) :
    t.CompleteEdges endpoints.length c.linkLatency.toNat := by
  obtain ⟨placements, wiring, s⟩ := synthesize_stages h
  have hedges := s.edges_eq_links
  rw [s.fullyConnected_hops hfamily] at hedges
  have hends : t.edges.map InternalLink.ends = ascendingPairs t.routers.length := by
    rw [hedges, Hop.complete_ends]
  refine {
    edges := hedges, ordered := ?_, pairs := ?_, count := ?_
    degree := fun r hr =>
      s.fullyConnected_degree hfamily (synthesize_room h).1 (s.rank_lt_length hr)
    between := ?_ }
  · rw [hends]
    exact ascendingPairs_pairwise _
  · intro a b
    rw [hends]
    exact mem_ascendingPairs
  · rw [hedges, Hop.length_links, Hop.length_complete]
  · intro a ha b hb hne
    apply s.countP_between
    rw [s.fullyConnected_joins_iff hfamily (s.rank_lt_length ha)]
    exact ⟨s.rank_lt_length hb, fun hsame => hne (s.router_eq_of_rank ha hb hsame.symm)⟩

theorem fullyConnected_edges_sixteen :
    ∃ t, synthesize { family := .fullyConnected } (Endpoint.population 16 0 0) = .ok t ∧
      t.grid = ⟨4, 4⟩ ∧ t.CompleteEdges 16 1 := by
  obtain ⟨t, h⟩ := exists_synthesize_sixteen .fullyConnected
  exact ⟨t, h, synthesize_grid h rfl, fullyConnected_edges h rfl⟩

end Interconnect
