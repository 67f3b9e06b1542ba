import Interconnect.Proofs.Overlay
import Interconnect.Topology.Dot

/-! # Rank policies only number

    A rank policy decides on numbers and on nothing else. Two configurations that differ
    in their policy alone are refused for the same reason, or get topologies that are
    equal once the numbers are left out (`synthesize_unnumbered`).

    * A ring has the same numbers by either policy, for its routers lie in the order of
      their ranks.
    * By sources, both links of an edge of a hierarchical ring have the smaller of its two
      routers as their number, and a router of the central ring has its own rank.

    `synthesize_policies` is the main statement.
-/

namespace Interconnect

open Escape (Cycle Plan Rank RankPolicy)

/-! ## Leaving out the numbers -/

/-- A router with what it has of the plan, but not with the value of its number. -/
def Router.unnumbered (r : Router) : Router :=
  { r with escapeRank := r.escapeRank.map fun _ => 0 }

/-- A link with the ring that it belongs to, but not with its number on it. -/
def InternalLink.unnumbered (l : InternalLink) : InternalLink :=
  { l with escape := l.escape.map fun rank => { rank with ordinal := 0 } }

/-- A plan without its policy. -/
def Escape.Plan.unnumbered (p : Plan) : Plan :=
  { p with policy := .segmentOrdinal }

/-- A topology without what a policy decides on. -/
def Topology.unnumbered (t : Topology) : Topology :=
  { t with
    routers := t.routers.map Router.unnumbered
    edges := t.edges.map InternalLink.unnumbered
    plan := t.plan.map Plan.unnumbered }

/-- A configuration with another policy. -/
def Configuration.withPolicy (c : Configuration) (policy : RankPolicy) : Configuration :=
  { c with escapeRankPolicy := policy }

/-- What two topologies have in common that are equal but for their numbers. -/
structure Topology.SameButNumbers (t t' : Topology) : Prop where
  unnumbered : t.unnumbered = t'.unnumbered
  name : t.name = t'.name
  external : t.external = t'.external
  links : t.links.map InternalLink.unnumbered = t'.links.map InternalLink.unnumbered
  cycles : t.plan.map (·.cycles) = t'.plan.map (·.cycles)
  /-- The same routers have a number. -/
  numbered : t.routers.map (·.escapeRank.isSome) = t'.routers.map (·.escapeRank.isSome)
  /-- Every link belongs to the same ring. -/
  roles : (t.links.map fun l => l.escape.map (·.role)) = t'.links.map fun l => l.escape.map (·.role)
  dot : t.dot = t'.dot
  labels : t.labels = t'.labels

/-- Routers have their ranks as their numbers, and edges those of the routers that they
    leave. -/
structure Topology.NumberedInOrder (t : Topology) : Prop where
  routers : ∀ r ∈ t.routers, r.escapeRank = some r.rank
  edges : ∀ e ∈ t.edges, e.escape = some ⟨.ring, e.source⟩

/-- Both links of an edge have the smaller of its two routers as their number, and the
    routers of the central ring have their own ranks. -/
structure Topology.NumberedByRank (t : Topology) : Prop where
  links : ∀ l ∈ t.links, ∃ role, l.escape = some ⟨role, min l.source l.target⟩
  routers : ∃ plan central, t.plan = some plan ∧ plan.cycle? .central = some central ∧
    ∀ r ∈ t.routers, r.escapeRank = if r.rank ∈ central.routers then some r.rank else none

/-! ## What is left -/

@[simp] theorem InternalLink.isEscape_unnumbered (l : InternalLink) :
    l.unnumbered.isEscape = l.isEscape := by
  unfold isEscape unnumbered
  cases l.escape <;> rfl

@[simp] theorem InternalLink.weight_unnumbered (l : InternalLink) :
    l.unnumbered.weight = l.weight := rfl

@[simp] theorem InternalLink.role_unnumbered (l : InternalLink) :
    l.unnumbered.escape.map (·.role) = l.escape.map (·.role) := by
  unfold unnumbered
  cases l.escape <;> rfl

@[simp] theorem Router.isSome_unnumbered (r : Router) :
    r.unnumbered.escapeRank.isSome = r.escapeRank.isSome := by
  unfold unnumbered
  cases r.escapeRank <;> rfl

namespace Topology

variable (t : Topology)

@[simp] theorem links_unnumbered :
    t.unnumbered.links = t.links.map InternalLink.unnumbered := by
  unfold links unnumbered
  rw [List.map_flatMap, List.flatMap_map]
  rfl

/-- The line of an edge shows whether it is on the escape channel, but no number. -/
@[simp] theorem dotLine_unnumbered (l : InternalLink) : dotLine l.unnumbered = dotLine l := by
  unfold dotLine
  rw [l.isEscape_unnumbered]
  rfl

@[simp] theorem dot_unnumbered : t.unnumbered.dot = t.dot := by
  have hlines : t.unnumbered.edges.map dotLine = t.edges.map dotLine := by
    simp [unnumbered, List.map_map, Function.comp_def]
  unfold dot
  rw [hlines]
  rfl

@[simp] theorem labels_unnumbered : t.unnumbered.labels = t.labels := by
  have hlabels : (t.unnumbered.edges.map fun l => (l.weight, l.isEscape)) =
      t.edges.map fun l => (l.weight, l.isEscape) := by
    simp [unnumbered, List.map_map, Function.comp_def]
  unfold labels
  rw [hlabels]

variable {t} {t' : Topology}

/-- Whatever shows no numbers is the same for both topologies. -/
theorem SameButNumbers.of_unnumbered (h : t.unnumbered = t'.unnumbered) : t.SameButNumbers t' where
  unnumbered := h
  name := by
    show t.unnumbered.name = t'.unnumbered.name
    rw [h]
  external := by
    show t.unnumbered.external = t'.unnumbered.external
    rw [h]
  links := by
    rw [← links_unnumbered, h, links_unnumbered]
  cycles := by
    have hplans := congrArg (fun t => t.plan.map (·.cycles)) h
    simpa [Topology.unnumbered, Option.map_map, Function.comp_def, Plan.unnumbered] using hplans
  numbered := by
    have hrouters := congrArg (fun t => t.routers.map (·.escapeRank.isSome)) h
    simpa [Topology.unnumbered, List.map_map, Function.comp_def] using hrouters
  roles := by
    have hlinks := congrArg (fun t => t.links.map fun l => l.escape.map (·.role)) h
    simpa [List.map_map, Function.comp_def] using hlinks
  dot := by
    rw [← dot_unnumbered, h, dot_unnumbered]
  labels := by
    rw [← labels_unnumbered, h, labels_unnumbered]

end Topology

/-! ## Two plans of the same cycles -/

namespace Escape.Plan

variable {cycles : List Cycle}

theorem foldl_add_unnumbered (p : Plan) (cycles : List Cycle) :
    (cycles.foldl add p).unnumbered = cycles.foldl add p.unnumbered := by
  induction cycles generalizing p with
  | nil => rfl
  | cons c cycles ih =>
    -- a cycle is added without a look at the policy
    rw [List.foldl_cons, List.foldl_cons, ih]
    rfl

/-- Plans of the same cycles differ in their policies alone. -/
theorem unnumbered_ofCycles (policy : RankPolicy) (cycles : List Cycle) :
    (ofCycles policy cycles).unnumbered = ofCycles .segmentOrdinal cycles := by
  unfold ofCycles
  rw [foldl_add_unnumbered]
  rfl

/-- The ring of an edge is decided before its number. -/
theorem edgeRank?_unnumbered (policy : RankPolicy) (cycles : List Cycle) (a b : Nat) :
    ((ofCycles policy cycles).edgeRank? a b).map (fun rank => { rank with ordinal := 0 }) =
      (cycles.reverse.findSome? fun c => c.rank? (edgeKey a b)).map
        fun rank => { rank with ordinal := 0 } := by
  rw [edgeRank?_ofCycles, Option.map_map]
  congr 1
  funext rank
  simp

/-- Whether a router has a number is decided before which one. -/
theorem routerRank?_unnumbered (policy : RankPolicy) (cycles : List Cycle) (router : Nat) :
    ((ofCycles policy cycles).routerRank? router).map (fun _ => 0) =
      (cycles.reverse.findSome? fun c => c.routerNumber? router).map fun _ => 0 := by
  rw [routerRank?_ofCycles, Option.map_map]
  rfl

end Escape.Plan

namespace Topology

variable (policy policy' : RankPolicy) (cycles : Option (List Cycle))

theorem routersOf_unnumbered (count latency : Nat) :
    (routersOf (cycles.map (Plan.ofCycles policy)) count latency).map Router.unnumbered =
      (routersOf (cycles.map (Plan.ofCycles policy')) count latency).map Router.unnumbered := by
  cases cycles with
  | none => rfl
  | some cycles =>
    simp [routersOf, List.map_map, Function.comp_def, Router.unnumbered,
      Plan.routerRank?_unnumbered]

theorem overlay_unnumbered (l : InternalLink) :
    (overlay (cycles.map (Plan.ofCycles policy)) l).unnumbered =
      (overlay (cycles.map (Plan.ofCycles policy')) l).unnumbered := by
  cases cycles with
  | none => rfl
  | some cycles =>
    simp [overlay, InternalLink.unnumbered, Plan.edgeRank?_unnumbered]

theorem plan_unnumbered :
    (cycles.map (Plan.ofCycles policy)).map Plan.unnumbered =
      (cycles.map (Plan.ofCycles policy')).map Plan.unnumbered := by
  rw [Option.map_map, Option.map_map]
  congr 1
  funext cycles
  show (Plan.ofCycles policy cycles).unnumbered = (Plan.ofCycles policy' cycles).unnumbered
  rw [Plan.unnumbered_ofCycles, Plan.unnumbered_ofCycles]

/-- A network that is put together by two policies is the same without its numbers. -/
theorem compose_unnumbered (c : Configuration) (sizing : Sizing) (wiring : Wiring) :
    (compose (c.withPolicy policy) sizing wiring).map unnumbered =
      (compose (c.withPolicy policy') sizing wiring).map unnumbered := by
  unfold compose
  -- all that can fail has failed before a policy is asked
  apply map_bind_congr
  intro draft
  apply map_bind_congr
  intro count
  show Except.ok _ = Except.ok _
  congr 1
  unfold unnumbered
  dsimp only [Configuration.withPolicy]
  rw [routersOf_unnumbered policy policy', plan_unnumbered policy policy', List.map_map,
    List.map_map]
  congr 1
  apply List.map_congr_left
  intro l _
  exact overlay_unnumbered policy policy' wiring.cycles l

/-- The numbers take no room in the graph. -/
theorem indexed_unnumbered (t : Topology) : t.indexed.map unnumbered = t.unnumbered.indexed := by
  have hrouters : t.unnumbered.routers.length = t.routers.length := List.length_map _
  have hedges : t.unnumbered.edges.length = t.edges.length := List.length_map _
  unfold indexed
  rw [hrouters, hedges]
  split
  · rfl
  · split
    · rfl
    · rfl

theorem assemble_unnumbered (c : Configuration) (sizing : Sizing) (wiring : Wiring) :
    (assemble (c.withPolicy policy) sizing wiring).map unnumbered =
      (assemble (c.withPolicy policy') sizing wiring).map unnumbered := by
  unfold assemble
  rw [map_bind_eq indexed_unnumbered, map_bind_eq indexed_unnumbered,
    compose_unnumbered policy policy']

end Topology

/-- Synthesis by two policies comes to the same end, but for the numbers. -/
theorem synthesize_unnumbered (c : Configuration) (policy policy' : RankPolicy)
    (endpoints : List Endpoint) :
    (synthesize (c.withPolicy policy) endpoints).map Topology.unnumbered =
      (synthesize (c.withPolicy policy') endpoints).map Topology.unnumbered := by
  unfold synthesize
  apply map_bind_congr
  intro sizing
  apply map_bind_congr
  intro _
  apply map_bind_congr
  intro wiring
  rw [map_liftM, map_liftM, Topology.assemble_unnumbered policy policy']

/-! ## The ring families -/

/-- What was left out of the entries of a list is restored from what is left of them. -/
theorem eq_map_map_of_restored {α β : Type} {forget : α → β} {restore : β → α} {xs : List α}
    (h : ∀ x ∈ xs, restore (forget x) = x) : xs = (xs.map forget).map restore := by
  rw [List.map_map]
  calc xs
    _ = xs.map id := (List.map_id xs).symm
    _ = xs.map (restore ∘ forget) := List.map_congr_left fun x hx => (h x hx).symm

namespace Topology.NumberedInOrder

variable {t t' : Topology}

/-- Numbers in the order of ranks are restored from the ranks. -/
theorem routers_eq (h : t.NumberedInOrder) :
    t.routers = t.unnumbered.routers.map fun r => { r with escapeRank := some r.rank } := by
  apply eq_map_map_of_restored
  intro r hr
  show { r with escapeRank := some r.rank } = r
  rw [← h.routers r hr]

theorem edges_eq (h : t.NumberedInOrder) :
    t.edges = t.unnumbered.edges.map fun e => { e with escape := some ⟨.ring, e.source⟩ } := by
  apply eq_map_map_of_restored
  intro e he
  show { e with escape := some ⟨.ring, e.source⟩ } = e
  rw [← h.edges e he]

theorem eq_of_unnumbered (h : t.NumberedInOrder) (h' : t'.NumberedInOrder)
    (hsame : t.unnumbered = t'.unnumbered) : t.routers = t'.routers ∧ t.links = t'.links := by
  have hedges : t.edges = t'.edges := by
    rw [h.edges_eq, hsame, ← h'.edges_eq]
  refine ⟨?_, ?_⟩
  · rw [h.routers_eq, hsame, ← h'.routers_eq]
  · unfold links
    rw [hedges]

end Topology.NumberedInOrder

namespace Stages

variable {c : Configuration} {endpoints : List Endpoint} {t : Topology}
  {placements : List Placement} {wiring : Wiring}

/-- The cycle of a ring visits its routers in the order of their ranks, so that positions
    and ranks are the same numbers. -/
theorem numberedInOrder (s : Stages c endpoints t placements wiring) (hfamily : c.family = .ring) :
    t.NumberedInOrder := by
  obtain ⟨channel, rfl, w, hrole, hrouters⟩ := s.rings_of_ring hfamily
  have hplan := s.plan_eq w.toChannel
  constructor
  · intro r hr
    -- the position of a router on the cycle is its rank
    have hordinal : channel.ordinal? r.rank = some r.rank := by
      rw [Cycle.ordinal?_eq_some_iff, hrouters]
      exact List.getElem?_range (s.rank_lt hr)
    rw [s.routers_escapeRank hplan hr, Plan.routerRank?_of_last w.others_off w.channel_on,
      hordinal, Option.map_some, RankPolicy.numberOf_self]
  · intro e he
    -- and the position of an edge is that of the router that it leaves
    have hmem : (e.source, e.target) ∈ channel.edges := by
      rw [← s.ends_of_ring]
      exact List.mem_map.mpr ⟨e, he, rfl⟩
    have hkey : channel.keys[e.source]? = some (edgeKey e.source e.target) := by
      rw [Cycle.keys, List.getElem?_map, Cycle.edges_getElem?_of_mem hrouters hmem,
        Option.map_some]
    rw [s.edges_escape hplan he, Plan.edgeRank?_of_getElem? hkey, RankPolicy.rankFrom_self, hrole]

/-- Edges of a hierarchical ring lead from their smaller router to their larger one. -/
theorem numberedByRank (s : Stages c endpoints t placements wiring)
    (hfamily : c.family = .hierarchicalRing) (hpolicy : c.escapeRankPolicy = .routerRank) :
    t.NumberedByRank := by
  obtain ⟨others, channel, w⟩ := s.rings_of_hierarchicalRing hfamily
  have hoverlaid := s.overlaid w
  obtain ⟨halves, central, r, rfl⟩ := s.hierarchicalRings hfamily
  have hplan : t.plan = some (HierarchicalRings.plan c.escapeRankPolicy halves central) := s.plan
  have hcentral : (HierarchicalRings.plan c.escapeRankPolicy halves central).cycle? .central =
      some central := r.cycle?_eq_some_iff.mpr ⟨by simp, r.central_role⟩
  refine ⟨?_, _, central, hplan, hcentral, ?_⟩
  · intro l hl
    obtain ⟨e, he, hdirection⟩ := Topology.mem_links.mp hl
    obtain ⟨-, hlt, -⟩ := HierarchicalRings.edge_eq s he
    obtain ⟨role, hescape, -⟩ := hoverlaid.source (Plan.ofCycles_policy.trans hpolicy) e he
    refine ⟨role, ?_⟩
    -- the reverse of a link keeps the number of the forward link
    rcases hdirection with rfl | rfl
    · rw [Nat.min_eq_left (Nat.le_of_lt hlt)]
      exact hescape
    · show e.escape = some ⟨role, min e.target e.source⟩
      rw [Nat.min_eq_right (Nat.le_of_lt hlt)]
      exact hescape
  · intro x hx
    rw [s.routers_escapeRank hplan hx, HierarchicalRings.plan,
      Plan.routerRank?_of_last (fun c hc => r.half_off_channel hc) r.central_on_channel, hpolicy]
    by_cases hmem : x.rank ∈ central.routers
    · obtain ⟨i, hi⟩ := List.mem_iff_getElem?.mp hmem
      rw [if_pos hmem, Cycle.ordinal?_eq_some_iff.mpr hi]
      rfl
    · rw [if_neg hmem, Cycle.ordinal?_eq_none_iff.mpr hmem]
      rfl

end Stages

/-! ## Main statement -/

/-- **Rank policies** only number: synthesis is refused for the same reason by either, or
    comes to the same topology but for its numbers. -/
theorem synthesize_policies (c : Configuration) (policy policy' : RankPolicy)
    (endpoints : List Endpoint) :
    (∃ e, synthesize (c.withPolicy policy) endpoints = .error e ∧
      synthesize (c.withPolicy policy') endpoints = .error e) ∨
    ∃ t t', synthesize (c.withPolicy policy) endpoints = .ok t ∧
      synthesize (c.withPolicy policy') endpoints = .ok t' ∧
      t.SameButNumbers t' ∧
      (c.family = .ring → t.routers = t'.routers ∧ t.links = t'.links) ∧
      (c.family = .hierarchicalRing → policy' = .routerRank → t'.NumberedByRank) := by
  rcases map_eq_map_cases (synthesize_unnumbered c policy policy' endpoints)
    with hrefused | ⟨t, t', h, h', hsame⟩
  · exact .inl hrefused
  · obtain ⟨placements, wiring, s⟩ := synthesize_stages h
    obtain ⟨placements', wiring', s'⟩ := synthesize_stages h'
    refine .inr ⟨t, t', h, h', .of_unnumbered hsame, ?_, ?_⟩
    · intro hfamily
      exact (s.numberedInOrder hfamily).eq_of_unnumbered (s'.numberedInOrder hfamily) hsame
    · intro hfamily hpolicy
      exact s'.numberedByRank hfamily hpolicy

theorem synthesize_policies_sixByFour :
    ∃ t t', synthesize .sixByFour (Endpoint.population 24 0 1) = .ok t ∧
      synthesize (Configuration.sixByFour.withPolicy .routerRank)
        (Endpoint.population 24 0 1) = .ok t' ∧
      t.SameButNumbers t' ∧ t'.NumberedByRank := by
  obtain ⟨t, h⟩ := exists_synthesize_sixByFour
  have hpolicy : Configuration.sixByFour.withPolicy .segmentOrdinal = .sixByFour := rfl
  rcases synthesize_policies .sixByFour .segmentOrdinal .routerRank (Endpoint.population 24 0 1)
    with ⟨e, herror, -⟩ | ⟨u, u', hu, hu', hsame, -, hnumbered⟩
  · rw [hpolicy, h] at herror
    cases herror
  · rw [hpolicy] at hu
    exact ⟨u, u', hu, hu', hsame, hnumbered rfl rfl⟩

end Interconnect
