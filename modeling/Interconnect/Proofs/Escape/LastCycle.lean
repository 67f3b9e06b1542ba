import Interconnect.Proofs.Escape.Plan

/-! # The last cycle wins

    A plan enters its cycles one after the other into two tables, one for edges and one for
    routers, each over what the cycles before it have left there. What is looked up in the
    end can be said without the tables.

    * An edge has its position on the last cycle that runs over it, and no rank if none does.
    * A router has its position on the last cycle of the escape channel that visits it, and
      no number if none does; half-rings number no router.
    * A plan by sources ranks the same edges and numbers the same routers. It keeps the
      role of an edge, but counts with the router that is asked for first.

    `ofCycles_lastWins` is the main statement. It holds of any cycles at all, however they
    overlap and whatever their roles.
-/

namespace Interconnect.Escape

/-- The last entry of a list that has a property. -/
def IsLast {α : Type} (P : α → Prop) (xs : List α) (x : α) : Prop :=
  ∃ before after, xs = before ++ x :: after ∧ P x ∧ ∀ y ∈ after, ¬ P y

/-- A cycle of the escape channel visits a router. -/
def Cycle.Carries (c : Cycle) (router : Nat) : Prop :=
  c.role.isEscapeChannel = true ∧ router ∈ c.routers

/-- What the plans of a list of cycles say, by either policy. -/
structure LastWins (cycles : List Cycle) : Prop where
  /-- The plan lists the cycles in the order of their addition. -/
  order : ∀ policy, (Plan.ofCycles policy cycles).cycles = cycles
  /-- By position, an edge has its position on the last cycle that runs over it. -/
  edge : ∀ a b rank, (Plan.ofCycles .segmentOrdinal cycles).edgeRank? a b = some rank ↔
    ∃ c, IsLast (·.Consecutive a b) cycles c ∧ rank.role = c.role ∧ c.JoinsAt a b rank.ordinal
  edge_none : ∀ a b, (Plan.ofCycles .segmentOrdinal cycles).edgeRank? a b = none ↔
    ∀ c ∈ cycles, ¬ c.Consecutive a b
  edge_comm : ∀ a b, (Plan.ofCycles .segmentOrdinal cycles).edgeRank? a b =
    (Plan.ofCycles .segmentOrdinal cycles).edgeRank? b a
  /-- A router has its position on the last cycle of the escape channel that visits it. -/
  router : ∀ r i, (Plan.ofCycles .segmentOrdinal cycles).routerRank? r = some i ↔
    ∃ c, IsLast (·.Carries r) cycles c ∧ c.routers[i]? = some r
  router_none : ∀ r, (Plan.ofCycles .segmentOrdinal cycles).routerRank? r = none ↔
    ∀ c ∈ cycles, ¬ c.Carries r
  /-- By sources, the role stays, and the number is the router that the link leaves. -/
  edge_source : ∀ a b, (Plan.ofCycles .routerRank cycles).edgeRank? a b =
    ((Plan.ofCycles .segmentOrdinal cycles).edgeRank? a b).map fun rank => ⟨rank.role, a⟩
  router_source : ∀ r, (Plan.ofCycles .routerRank cycles).routerRank? r =
    ((Plan.ofCycles .segmentOrdinal cycles).routerRank? r).map fun _ => r

/-! ## Searching from the end -/

/-- A search from the end of a list finds what its last entry with a property gives, if
    all others give nothing. -/
theorem findSome?_reverse_eq_some_iff {α β : Type} {P : α → Prop} {f : α → Option β}
    (hnone : ∀ x, f x = none ↔ ¬ P x) {xs : List α} {y : β} :
    xs.reverse.findSome? f = some y ↔ ∃ x, IsLast P xs x ∧ f x = some y := by
  rw [List.findSome?_eq_some_iff]
  constructor
  · intro h
    obtain ⟨after, x, before, hsplit, hx, hafter⟩ := h
    have hproperty : P x := by
      by_contra hnot
      rw [(hnone x).mpr hnot] at hx
      cases hx
    refine ⟨x, ⟨before.reverse, after.reverse, ?_, hproperty, ?_⟩, hx⟩
    · rw [← List.reverse_reverse xs, hsplit, List.reverse_append, List.reverse_cons,
        List.append_assoc, List.singleton_append]
    · intro z hz
      exact (hnone z).mp (hafter z (List.mem_reverse.mp hz))
  · intro h
    obtain ⟨x, ⟨before, after, rfl, -, hafter⟩, hx⟩ := h
    refine ⟨after.reverse, x, before.reverse, ?_, hx, ?_⟩
    · rw [List.reverse_append, List.reverse_cons, List.append_assoc, List.singleton_append]
    · intro z hz
      exact (hnone z).mpr (hafter z (List.mem_reverse.mp hz))

theorem findSome?_reverse_eq_none_iff {α β : Type} {P : α → Prop} {f : α → Option β}
    (hnone : ∀ x, f x = none ↔ ¬ P x) {xs : List α} :
    xs.reverse.findSome? f = none ↔ ∀ x ∈ xs, ¬ P x := by
  rw [List.findSome?_eq_none_iff]
  simp only [List.mem_reverse, hnone]

/-! ## What one cycle says -/

namespace Cycle

variable {c : Cycle}

theorem rank?_eq_none_iff_not_consecutive {a b : Nat} :
    c.rank? (edgeKey a b) = none ↔ ¬ c.Consecutive a b := by
  rw [rank?_eq_none_iff, mem_keys_iff]

theorem rank?_eq_some_iff_joinsAt {a b : Nat} {rank : Rank} :
    c.rank? (edgeKey a b) = some rank ↔ rank.role = c.role ∧ c.JoinsAt a b rank.ordinal := by
  rw [rank?_eq_some_iff, keys_getElem?_iff_joinsAt]

theorem routerNumber?_eq_none_iff {r : Nat} : c.routerNumber? r = none ↔ ¬ c.Carries r := by
  unfold routerNumber? Carries
  split
  · next hchannel => rw [ordinal?_eq_none_iff, and_iff_right hchannel]
  · next hchannel => simp [hchannel]

theorem routerNumber?_eq_some_iff {r i : Nat} :
    c.routerNumber? r = some i ↔ c.role.isEscapeChannel = true ∧ c.routers[i]? = some r := by
  unfold routerNumber?
  split
  · next hchannel => rw [ordinal?_eq_some_iff, and_iff_right hchannel]
  · next hchannel => simp [hchannel]

end Cycle

/-! ## What a plan says -/

namespace Plan

variable {cycles : List Cycle}

/-- By position, a plan answers with what it has found. -/
theorem edgeRank?_segmentOrdinal (a b : Nat) :
    (ofCycles .segmentOrdinal cycles).edgeRank? a b =
      cycles.reverse.findSome? fun c => c.rank? (edgeKey a b) := by
  rw [edgeRank?_ofCycles]
  exact Option.map_id'

theorem routerRank?_segmentOrdinal (r : Nat) :
    (ofCycles .segmentOrdinal cycles).routerRank? r =
      cycles.reverse.findSome? fun c => c.routerNumber? r := by
  rw [routerRank?_ofCycles]
  exact Option.map_id'

theorem routerRank?_eq_some_iff {r i : Nat} :
    (ofCycles .segmentOrdinal cycles).routerRank? r = some i ↔
      ∃ c, IsLast (·.Carries r) cycles c ∧ c.routers[i]? = some r := by
  rw [routerRank?_segmentOrdinal,
    findSome?_reverse_eq_some_iff fun _ => Cycle.routerNumber?_eq_none_iff]
  apply exists_congr
  intro c
  apply and_congr_right
  intro hlast
  -- the last cycle that carries the router is on the escape channel
  obtain ⟨before, after, -, hcarries, -⟩ := hlast
  rw [Cycle.routerNumber?_eq_some_iff, and_iff_right hcarries.1]

end Plan

/-! ## Main statement -/

/-- **The last cycle wins**: edges and routers have the numbers of the last cycle that has
    them, in the plan of any cycles and by either policy. -/
theorem ofCycles_lastWins (cycles : List Cycle) : LastWins cycles where
  order := fun _ => Plan.ofCycles_cycles
  edge := by
    intro a b rank
    rw [Plan.edgeRank?_segmentOrdinal,
      findSome?_reverse_eq_some_iff fun _ => Cycle.rank?_eq_none_iff_not_consecutive]
    simp only [Cycle.rank?_eq_some_iff_joinsAt]
  edge_none := by
    intro a b
    rw [Plan.edgeRank?_segmentOrdinal]
    exact findSome?_reverse_eq_none_iff fun _ => Cycle.rank?_eq_none_iff_not_consecutive
  edge_comm := by
    intro a b
    rw [Plan.edgeRank?_segmentOrdinal, Plan.edgeRank?_segmentOrdinal, edgeKey_comm]
  router := fun r i => Plan.routerRank?_eq_some_iff
  router_none := by
    intro r
    rw [Plan.routerRank?_segmentOrdinal]
    exact findSome?_reverse_eq_none_iff fun _ => Cycle.routerNumber?_eq_none_iff
  edge_source := by
    intro a b
    rw [Plan.edgeRank?_segmentOrdinal, Plan.edgeRank?_ofCycles]
    rfl
  router_source := by
    intro r
    rw [Plan.routerRank?_segmentOrdinal, Plan.routerRank?_ofCycles]
    rfl

end Interconnect.Escape
