import Interconnect.Proofs.HierarchicalRing.Edges

/-! # Escape ranks of a hierarchical ring

    The weights of a hierarchical ring are decided while its edges are proposed,
    by a list of the central ring's edges; its escape ranks are decided afterwards,
    by the ring that was numbered last. `hierarchicalRing_escape` is the main
    statement: on every link the two agree, and the rank leads back to the link.
-/

namespace Interconnect

open Escape (Cycle Plan Rank)

/-! ## Agreement -/

/-- What weight, escape rank and rings say about a link, in agreement. -/
structure InternalLink.Agrees (l : InternalLink) (plan : Plan) (central : Cycle) (rank : Rank) :
    Prop where
  escape : l.escape = some rank
  weight : l.weight = 1 ↔ l.isEscape
  isEscape : l.isEscape ↔ rank.role = .central
  consecutive : rank.role = .central ↔ central.Consecutive l.source l.target
  /-- Off the central ring, the rank names the one half-ring with both routers. -/
  half : rank.role ≠ .central →
    ∃ rowPair side half, rank.role = .halfRing rowPair side ∧
      plan.cycle? (.halfRing rowPair side) = some half ∧
      l.source ∈ half.routers ∧ l.target ∈ half.routers ∧
      ∀ c ∈ plan.cycles, c.role ≠ .central → l.source ∈ c.routers → l.target ∈ c.routers →
        c = half
  /-- A position along the ring leads to an edge between the two routers. -/
  position : plan.policy = .segmentOrdinal →
    ∃ ring a b, plan.cycle? rank.role = some ring ∧ ring.edges[rank.ordinal]? = some (a, b) ∧
      ((l.source = a ∧ l.target = b) ∨ (l.source = b ∧ l.target = a))

/-- The other direction of a link agrees with the plan if the link does. -/
theorem InternalLink.Agrees.reversed {l : InternalLink} {plan : Plan} {central : Cycle}
    {rank : Rank} (h : l.Agrees plan central rank) : l.reversed.Agrees plan central rank where
  escape := h.escape
  weight := h.weight
  isEscape := h.isEscape
  consecutive := by
    rw [h.consecutive, ← Cycle.mem_keys_iff, ← Cycle.mem_keys_iff, edgeKey_comm]
    rfl
  half := by
    intro hrole
    obtain ⟨rowPair, side, half, hrank, hhalf, hsource, htarget, hunique⟩ := h.half hrole
    refine ⟨rowPair, side, half, hrank, hhalf, htarget, hsource, ?_⟩
    intro c hc hrole hs ht
    exact hunique c hc hrole ht hs
  position := by
    intro hpolicy
    obtain ⟨ring, a, b, hring, hedge, hends⟩ := h.position hpolicy
    refine ⟨ring, a, b, hring, hedge, ?_⟩
    rcases hends with ⟨hsource, htarget⟩ | ⟨hsource, htarget⟩
    · exact .inr ⟨htarget, hsource⟩
    · exact .inl ⟨htarget, hsource⟩

/-! ## Ranks of the rings -/

namespace HierarchicalRings

variable {g : Grid} {halves : List Cycle} {central : Cycle}

/-- The plan of a hierarchical ring. -/
def plan (policy : Escape.RankPolicy) (halves : List Cycle) (central : Cycle) : Plan :=
  Plan.ofCycles policy (halves ++ [central])

variable {policy : Escape.RankPolicy}

theorem half_role_ne (r : HierarchicalRings g halves central) {c : Cycle} (hc : c ∈ halves) :
    c.role ≠ .central := by
  intro hrole
  have hoff := r.half_off_channel hc
  rw [hrole] at hoff
  cases hoff

/-- No two rings have the same role. -/
theorem nodup_roles (r : HierarchicalRings g halves central) :
    ((halves ++ [central]).map (·.role)).Nodup := by
  rw [List.map_append, List.map_singleton]
  refine List.Nodup.append r.nodup_half_roles (List.nodup_singleton _) ?_
  intro role hhalf hcentral
  obtain ⟨x, hx, rfl⟩ := List.mem_map.mp hhalf
  exact r.half_role_ne hx ((List.mem_singleton.mp hcentral).trans r.central_role)

/-- Every ring of the plan is found by its role. -/
theorem cycle?_eq_some_iff (r : HierarchicalRings g halves central) {c : Cycle}
    {role : Escape.Role} :
    (plan policy halves central).cycle? role = some c ↔
      c ∈ halves ++ [central] ∧ c.role = role := by
  have hcycles : (plan policy halves central).cycles = halves ++ [central] :=
    Plan.ofCycles_cycles
  have hroles := r.nodup_roles
  rw [← hcycles] at hroles ⊢
  exact Plan.cycle?_eq_some_iff hroles

/-- The ring that ranks an edge is the central ring exactly on the spine. -/
theorem exists_ranking_ring (r : HierarchicalRings g halves central) {a b : Nat} {rank : Rank}
    (hrank : (plan policy halves central).edgeRank? a b = some rank) :
    ∃ ring ∈ halves ++ [central], Plan.Ranks policy ring (edgeKey a b) rank ∧
      (ring.role = .central ↔ edgeKey a b ∈ central.keys) := by
  by_cases hmem : edgeKey a b ∈ central.keys
  · have hlast : ∃ rank', (plan policy halves central).edgeRank? a b = some rank' ∧
        Plan.Ranks policy central (edgeKey a b) rank' := Plan.edgeRank?_of_mem hmem
    obtain ⟨rank', hrank', hranks⟩ := hlast
    have hsame : rank' = rank := Option.some.inj (hrank'.symm.trans hrank)
    subst hsame
    exact ⟨central, by simp, hranks, iff_of_true r.central_role hmem⟩
  · obtain ⟨ring, hring, hranks⟩ := Plan.edgeRank?_of_not_mem hmem hrank
    exact ⟨ring, List.mem_append_left _ hring, hranks, iff_of_false (r.half_role_ne hring) hmem⟩

theorem mem_halves_of_role_ne (r : HierarchicalRings g halves central) {ring : Cycle}
    (hring : ring ∈ halves ++ [central]) (hrole : ring.role ≠ .central) : ring ∈ halves := by
  rcases List.mem_append.mp hring with hhalf | hcentral
  · exact hhalf
  · rw [List.mem_singleton.mp hcentral] at hrole
    exact absurd r.central_role hrole

/-- The escape channel is the central ring. -/
theorem isEscapeChannel_iff (r : HierarchicalRings g halves central) {ring : Cycle}
    (hring : ring ∈ halves ++ [central]) : ring.role.isEscapeChannel ↔ ring.role = .central := by
  rcases List.mem_append.mp hring with hhalf | hcentral
  · rw [r.half_off_channel hhalf]
    exact iff_of_false Bool.false_ne_true (r.half_role_ne hhalf)
  · rw [List.mem_singleton.mp hcentral]
    exact iff_of_true r.central_on_channel r.central_role

/-- A link that runs over a ring agrees with the plan if it has its weight from the
    spine and its rank from the plan. -/
theorem agrees (r : HierarchicalRings g halves central) {l : InternalLink} {rank : Rank}
    (hweight : l.weight = if l.edge ∈ central.keys then 1 else 2)
    (hescape : l.escape = some rank)
    (hrank : (plan policy halves central).edgeRank? l.source l.target = some rank) :
    l.Agrees (plan policy halves central) central rank := by
  -- all of the views come down to whether the link lies on the spine
  obtain ⟨ring, hring, hranks, hspine⟩ := r.exists_ranking_ring hrank
  have hrole : rank.role = .central ↔ l.edge ∈ central.keys := by
    rw [hranks.role]
    exact hspine
  have hisEscape : l.isEscape ↔ rank.role = .central := by
    rw [InternalLink.isEscape, hescape, Option.any_some, hranks.role]
    exact r.isEscapeChannel_iff hring
  refine {
    escape := hescape
    weight := ?_
    isEscape := hisEscape
    consecutive := by rw [hrole]; exact Cycle.mem_keys_iff
    half := ?_
    position := ?_ }
  · rw [hisEscape, hrole, hweight]
    split
    · next hmem => exact iff_of_true rfl hmem
    · next hmem => exact iff_of_false (by decide) hmem
  · intro hne
    have hhalf : ring ∈ halves := r.mem_halves_of_role_ne hring (hranks.role ▸ hne)
    obtain ⟨rowPair, side, -, hhalfRole, -⟩ := r.half_cases hhalf
    -- a ring that ranks the link runs over it, and so visits both of its routers
    have hends := (Cycle.mem_keys_iff.mp hranks.mem).mem
    refine ⟨rowPair, side, ring, hranks.role.trans hhalfRole,
      r.cycle?_eq_some_iff.mpr ⟨hring, hhalfRole⟩, hends.1, hends.2, ?_⟩
    intro c hc hcrole hsource _
    have hcycles : (plan policy halves central).cycles = halves ++ [central] :=
      Plan.ofCycles_cycles
    rw [hcycles] at hc
    exact r.half_unique (r.mem_halves_of_role_ne hc hcrole) hhalf hsource hends.1
  · intro hordinal
    have hpolicy : (plan policy halves central).policy = policy := Plan.ofCycles_policy
    have hkey := hranks.ordinal (hpolicy.symm.trans hordinal)
    obtain ⟨a, b, ha, hb, hab⟩ := Cycle.keys_getElem?_eq_some_iff.mp hkey
    exact ⟨ring, a, b, r.cycle?_eq_some_iff.mpr ⟨hring, hranks.role.symm⟩,
      Cycle.edges_getElem?_eq_some_iff.mpr ⟨ha, hb⟩, edgeKey_eq_iff.mp hab.symm⟩

end HierarchicalRings

/-! ## Main statement -/

/-- **Escape ranks of a hierarchical ring**: every link has a rank under either policy,
    and agrees with the plan. -/
theorem hierarchicalRing_escape {c : Configuration} {endpoints : List Endpoint} {t : Topology}
    (h : synthesize c endpoints = .ok t) (hfamily : c.family = .hierarchicalRing) :
    ∃ plan central, t.plan = some plan ∧ plan.policy = c.escapeRankPolicy ∧
      plan.cycle? .central = some central ∧
      ∀ l ∈ t.links, ∃ rank, l.Agrees plan central rank := by
  obtain ⟨placements, wiring, s⟩ := synthesize_stages h
  obtain ⟨halves, central, r, rfl⟩ := s.hierarchicalRings hfamily
  have hplan : t.plan = some (HierarchicalRings.plan c.escapeRankPolicy halves central) := s.plan
  -- the forward link of every edge agrees
  have hforward : ∀ e ∈ t.edges, ∃ rank,
      e.Agrees (HierarchicalRings.plan c.escapeRankPolicy halves central) central rank := by
    intro e he
    obtain ⟨-, -, hweight⟩ := HierarchicalRings.edge_eq s he
    obtain ⟨p, -, hsource, htarget, -, hescape⟩ := s.mem_edges he
    rw [← hsource, ← htarget, hplan, Option.bind_some] at hescape
    have hring : ∃ x ∈ halves ++ [central], edgeKey e.source e.target ∈ x.keys := by
      rcases (HierarchicalRings.exists_edge_iff s).mp ⟨e, he, rfl⟩ with ⟨x, hx, hkey⟩ | hkey
      · exact ⟨x, List.mem_append_left _ hx, hkey⟩
      · exact ⟨central, by simp, hkey⟩
    obtain ⟨rank, hrank⟩ := Plan.exists_edgeRank? hring
    exact ⟨rank, r.agrees hweight (hescape.trans hrank) hrank⟩
  refine ⟨_, central, hplan, Plan.ofCycles_policy, ?_, ?_⟩
  · exact r.cycle?_eq_some_iff.mpr ⟨by simp, r.central_role⟩
  · intro l hl
    obtain ⟨e, he, rfl | rfl⟩ := Topology.mem_links.mp hl
    · exact hforward l he
    · obtain ⟨rank, hrank⟩ := hforward e he
      exact ⟨rank, hrank.reversed⟩

theorem hierarchicalRing_escape_sixByFour :
    ∃ t plan central, synthesize .sixByFour (Endpoint.population 24 0 1) = .ok t ∧
      t.plan = some plan ∧ plan.policy = .segmentOrdinal ∧ plan.cycle? .central = some central ∧
      ∀ l ∈ t.links, ∃ rank, l.Agrees plan central rank := by
  obtain ⟨t, h⟩ := exists_synthesize_sixByFour
  obtain ⟨plan, central, hplan, hpolicy, hcentral, hlinks⟩ := hierarchicalRing_escape h rfl
  exact ⟨t, plan, central, h, hplan, hpolicy, hcentral, hlinks⟩

end Interconnect
