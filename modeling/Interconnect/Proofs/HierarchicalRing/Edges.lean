import Interconnect.Proofs.Accepted
import Interconnect.Proofs.HierarchicalRing.Rings

/-! # The edges of a hierarchical ring

    A hierarchical ring is wired ring by ring: the half-rings first, then the
    central ring, which shares some of their edges. `Grid.RingEdge` describes the
    result by rows and columns alone, and `hierarchicalRing_edges` is the main
    statement: a synthesized hierarchical ring has exactly these edges, each of
    them once.
-/

namespace Interconnect

open Escape (Cycle)

/-! ## The expected edges -/

/-- From one router to a larger one at a weight: the edges of a hierarchical ring,
    where `g.cols / 2` is the first column right of the middle. -/
inductive Grid.RingEdge (g : Grid) : Nat → Nat → Nat → Prop where
  | /-- Along a row, to either side of the middle. -/
    along {row col : Nat} (hrow : row < g.rows) (hcol : col + 1 < g.cols)
      (hside : col + 1 ≠ g.cols / 2) : RingEdge g (g.cell row col) (g.cell row (col + 1)) 2
  | /-- Along a row, across the middle. -/
    crossing {row col : Nat} (hrow : row = 1 ∨ row = g.rows - 2) (hcol : col + 1 = g.cols / 2) :
      RingEdge g (g.cell row col) (g.cell row (col + 1)) 1
  | /-- Up one of the middle columns. -/
    middle {row col : Nat} (hrow : row + 1 < g.rows)
      (hcol : col + 1 = g.cols / 2 ∨ col = g.cols / 2) :
      RingEdge g (g.cell row col) (g.cell (row + 1) col)
        (if 1 ≤ row ∧ row ≤ g.rows - 3 then 1 else 2)
  | /-- Up one of the outermost columns, within a pair of rows. -/
    outer {row col : Nat} (hrow : row + 1 < g.rows) (heven : row % 2 = 0)
      (hcol : col = 0 ∨ col + 1 = g.cols) : RingEdge g (g.cell row col) (g.cell (row + 1) col) 2

/-- Whether a ring of the plan runs over a link: one of the escape channel, or one
    off it. -/
def Topology.onRing (t : Topology) (escape : Bool) (l : InternalLink) : Bool :=
  t.plan.any fun plan => plan.cycles.any fun c =>
    c.role.isEscapeChannel == escape && c.keys.contains l.edge

/-- What the edges of a hierarchical ring are, how often they occur and how many
    there are. -/
structure Topology.HierarchicalEdges (t : Topology) : Prop where
  edge_iff : ∀ a b w,
    (∃ l ∈ t.edges, l.source = a ∧ l.target = b ∧ l.weight = w) ↔ t.grid.RingEdge a b w
  ascending : ∀ l ∈ t.edges, l.source < l.target
  once : (t.edges.map InternalLink.edge).Nodup
  length : t.edges.length = t.grid.rows * (t.grid.cols + 1)
  /-- The edges that the central ring shares with half-rings. -/
  shared : (t.edges.countP fun l => t.onRing true l && t.onRing false l) = t.grid.rows - 4

/-! ## Edges on the rings -/

namespace HierarchicalRings

variable {g : Grid} {halves : List Cycle} {central : Cycle} {row col : Nat}

theorem across_mem_halves (r : HierarchicalRings g halves central) (hrow : row < g.rows)
    (hcol : col + 1 < g.cols) :
    (∃ c ∈ halves, g.across row col ∈ c.keys) ↔ col + 1 ≠ g.cols / 2 := by
  rw [r.mem_halves_keys]
  constructor
  · intro h
    rcases h with ⟨row', col', -, hcol', hside, hkey⟩ | ⟨row', col', -, -, hcol', -, hkey⟩
    · obtain ⟨-, rfl⟩ := (Grid.across_inj (show col < g.cols by omega)
        (show col' < g.cols by omega)).mp hkey
      exact hside
    · exact absurd hkey (Grid.across_ne_upward hcol hcol')
  · intro h
    exact .inl ⟨row, col, hrow, hcol, h, rfl⟩

theorem upward_mem_halves (r : HierarchicalRings g halves central) (hrow : row + 1 < g.rows)
    (hcol : col < g.cols) :
    (∃ c ∈ halves, g.upward row col ∈ c.keys) ↔
      row % 2 = 0 ∧ (col = 0 ∨ col + 1 = g.cols / 2 ∨ col = g.cols / 2 ∨ col + 1 = g.cols) := by
  rw [r.mem_halves_keys]
  constructor
  · intro h
    rcases h with ⟨row', col', -, hcol', -, hkey⟩ | ⟨row', col', -, heven, hcol', hend, hkey⟩
    · exact absurd hkey.symm (Grid.across_ne_upward hcol' hcol)
    · obtain ⟨rfl, rfl⟩ := (Grid.upward_inj hcol hcol').mp hkey
      exact ⟨heven, hend⟩
  · intro h
    obtain ⟨heven, hend⟩ := h
    exact .inr ⟨row, col, hrow, heven, hcol, hend, rfl⟩

theorem across_mem_central (r : HierarchicalRings g halves central) (row : Nat) (hcol : col + 1 < g.cols) :
    g.across row col ∈ central.keys ↔
      (row = 1 ∨ row = g.rows - 2) ∧ col + 1 = g.cols / 2 := by
  have hfour := r.four_le_cols
  rw [r.mem_central_keys]
  constructor
  · intro h
    rcases h with ⟨row', hrow', hkey⟩ | ⟨row', col', -, -, hcol', hkey⟩
    · obtain ⟨rfl, rfl⟩ := (Grid.across_inj (show col < g.cols by omega)
        (show g.cols / 2 - 1 < g.cols by omega)).mp hkey
      exact ⟨hrow', by omega⟩
    · exact absurd hkey (Grid.across_ne_upward hcol (by omega))
  · intro h
    obtain ⟨hrow, hmiddle⟩ := h
    have hprev : g.cols / 2 - 1 = col := by omega
    exact .inl ⟨row, hrow, by rw [hprev]⟩

theorem upward_mem_central (r : HierarchicalRings g halves central) (row : Nat) (hcol : col < g.cols) :
    g.upward row col ∈ central.keys ↔
      (1 ≤ row ∧ row ≤ g.rows - 3) ∧ (col + 1 = g.cols / 2 ∨ col = g.cols / 2) := by
  have hfour := r.four_le_cols
  rw [r.mem_central_keys]
  constructor
  · intro h
    rcases h with ⟨row', -, hkey⟩ | ⟨row', col', hlow, hhigh, hcol', hkey⟩
    · exact absurd hkey.symm (Grid.across_ne_upward (by omega) hcol)
    · obtain ⟨rfl, rfl⟩ := (Grid.upward_inj hcol (by omega)).mp hkey
      exact ⟨⟨hlow, hhigh⟩, hcol'⟩
  · intro h
    obtain ⟨⟨hlow, hhigh⟩, hmiddle⟩ := h
    exact .inr ⟨row, col, hlow, hhigh, hmiddle, rfl⟩

/-- An expected edge lies on a ring, and on the central ring exactly at weight 1. -/
theorem on_rings_of_ringEdge (r : HierarchicalRings g halves central) {a b w : Nat}
    (h : g.RingEdge a b w) :
    ((∃ c ∈ halves, (a, b) ∈ c.keys) ∨ (a, b) ∈ central.keys) ∧
      w = if (a, b) ∈ central.keys then 1 else 2 := by
  have hrows := r.four_le_rows
  have hcols := r.four_le_cols
  have heven := r.rows_even
  have hevenCols := r.cols_even
  cases h with
  | @along row col hrow hcol hside =>
    -- the central ring leaves its columns only at the middle
    have hhalf := (r.across_mem_halves hrow hcol).mpr hside
    have hoff : g.across row col ∉ central.keys := fun hkey =>
      hside ((r.across_mem_central row hcol).mp hkey).2
    exact ⟨.inl hhalf, (if_neg hoff).symm⟩
  | @crossing row col hrow hcol =>
    have hon : g.across row col ∈ central.keys :=
      (r.across_mem_central row (by omega)).mpr ⟨hrow, hcol⟩
    exact ⟨.inr hon, (if_pos hon).symm⟩
  | @middle row col hrow hcol =>
    have hcentral := r.upward_mem_central row (show col < g.cols by omega)
    have hhalf := r.upward_mem_halves hrow (show col < g.cols by omega)
    by_cases hin : 1 ≤ row ∧ row ≤ g.rows - 3
    · have hon : g.upward row col ∈ central.keys := hcentral.mpr ⟨hin, hcol⟩
      exact ⟨.inr hon, by rw [if_pos hin]; exact (if_pos hon).symm⟩
    · -- in the first and the last row pair only the half-rings run here
      have hoff : g.upward row col ∉ central.keys := fun hkey => hin (hcentral.mp hkey).1
      have hpair : row % 2 = 0 := by omega
      exact ⟨.inl (hhalf.mpr ⟨hpair, by omega⟩), by rw [if_neg hin]; exact (if_neg hoff).symm⟩
  | @outer row col hrow hpair hcol =>
    -- a half has two columns or more, so an outermost one is not in the middle
    have hhalf := (r.upward_mem_halves hrow (show col < g.cols by omega)).mpr ⟨hpair, by omega⟩
    have hoff : g.upward row col ∉ central.keys := by
      intro hkey
      have hmiddle := ((r.upward_mem_central row (show col < g.cols by omega)).mp hkey).2
      omega
    exact ⟨.inl hhalf, (if_neg hoff).symm⟩

/-- An edge of a half-ring is expected, with the weight that the central ring decides. -/
theorem ringEdge_of_half (r : HierarchicalRings g halves central) {a b : Nat}
    (h : ∃ c ∈ halves, (a, b) ∈ c.keys) :
    g.RingEdge a b (if (a, b) ∈ central.keys then 1 else 2) := by
  rcases r.mem_halves_keys.mp h with
    ⟨row, col, hrow, hcol, hside, hkey⟩ | ⟨row, col, hrow, hpair, hcol, hend, hkey⟩
  · have hoff : g.across row col ∉ central.keys := fun hon =>
      hside ((r.across_mem_central row hcol).mp hon).2
    rw [hkey, if_neg hoff]
    cases hkey
    exact .along hrow hcol hside
  · have hon := r.upward_mem_central row hcol
    rw [hkey]
    cases hkey
    by_cases hmiddle : col + 1 = g.cols / 2 ∨ col = g.cols / 2
    · simp only [hon, hmiddle, and_true]
      exact .middle hrow hmiddle
    · simp only [hon, hmiddle, and_false, if_false]
      exact .outer hrow hpair (by omega)

/-- An edge of the central ring is expected at weight 1. -/
theorem ringEdge_of_central (r : HierarchicalRings g halves central) {a b : Nat}
    (h : (a, b) ∈ central.keys) : g.RingEdge a b 1 := by
  have hrows := r.four_le_rows
  have hcols := r.four_le_cols
  rcases r.mem_central_keys.mp h with ⟨row, hrow, hkey⟩ | ⟨row, col, hlow, hhigh, hmiddle, hkey⟩
  · cases hkey
    exact .crossing hrow (by omega)
  · have hedge : g.RingEdge _ _ _ := .middle (show row + 1 < g.rows by omega) hmiddle
    rw [if_pos ⟨hlow, hhigh⟩] at hedge
    cases hkey
    exact hedge

/-- The edges over which the rings run are the expected ones, and the central ring
    decides on their weights. -/
theorem ringEdge_iff (r : HierarchicalRings g halves central) {a b w : Nat} :
    g.RingEdge a b w ↔ ((∃ c ∈ halves, (a, b) ∈ c.keys) ∨ (a, b) ∈ central.keys) ∧
      w = if (a, b) ∈ central.keys then 1 else 2 := by
  constructor
  · exact r.on_rings_of_ringEdge
  · intro h
    obtain ⟨hring, rfl⟩ := h
    rcases hring with hhalf | hcentral
    · exact r.ringEdge_of_half hhalf
    · rw [if_pos hcentral]
      exact r.ringEdge_of_central hcentral

/-! ## Numbers of edges -/

/-- Every second number is even. -/
theorem countP_range_even (n : Nat) :
    ((List.range n).countP fun i => (i + 1) % 2 = 0) = n / 2 := by
  induction n with
  | zero => rfl
  | succ n ih =>
    rw [List.range_succ, List.countP_append, ih, List.countP_singleton]
    by_cases heven : (n + 1) % 2 = 0
    · rw [decide_eq_true heven, if_pos rfl]
      omega
    · rw [decide_eq_false heven, if_neg Bool.false_ne_true]
      omega

/-- The edges of all half-rings, in the order of the half-rings. -/
def halfKeys (halves : List Cycle) : List (Nat × Nat) :=
  halves.flatMap Cycle.keys

theorem mem_halfKeys {key : Nat × Nat} : key ∈ halfKeys halves ↔ ∃ c ∈ halves, key ∈ c.keys :=
  List.mem_flatMap

/-- No edge lies on two half-rings. -/
theorem nodup_halfKeys (r : HierarchicalRings g halves central) : (halfKeys halves).Nodup := by
  refine r.nodup_flatMap_halves (fun c => c.nodup_keys) ?_
  intro c hc c' hc' key hkey hkey'
  -- both cycles would visit the first router of the edge
  obtain ⟨a, b, rfl⟩ : ∃ a b, key = edgeKey a b := by
    obtain ⟨⟨a, b⟩, -, rfl⟩ := List.mem_map.mp hkey
    exact ⟨a, b, rfl⟩
  have ha := (Cycle.mem_keys_iff.mp hkey).mem.1
  have ha' := (Cycle.mem_keys_iff.mp hkey').mem.1
  exact r.half_unique hc hc' ha ha'

theorem length_halfKeys (r : HierarchicalRings g halves central) :
    (halfKeys halves).length = g.rows * g.cols := by
  have hcols := r.cols_even
  have hsizes : ∀ c ∈ halves, c.keys.length = g.cols := by
    intro c hc
    obtain ⟨_, _, -, -, hrouters⟩ := r.half_cases hc
    rw [Cycle.length_keys, Cycle.size, hrouters, Cycle.length_loop]
    omega
  rw [halfKeys, List.length_flatMap, List.map_congr_left hsizes, List.map_const',
    List.sum_replicate_nat, r.length_halves]

/-- The central ring shares an edge with a half-ring in both middle columns of
    every inner row pair. -/
theorem countP_central_halfKeys (r : HierarchicalRings g halves central) :
    (central.keys.countP fun key => key ∈ halfKeys halves) = g.rows - 4 := by
  have hrows := r.four_le_rows
  have hcols := r.four_le_cols
  have heven := r.rows_even
  -- no half-ring crosses the middle
  have hcrossing : ∀ row < g.rows, g.across row (g.cols / 2 - 1) ∉ halfKeys halves := by
    intro row hrow hkey
    have hside := (r.across_mem_halves hrow (by omega)).mp (mem_halfKeys.mp hkey)
    omega
  -- in a middle column every second edge lies within a row pair
  have hspine : ∀ col, col + 1 = g.cols / 2 ∨ col = g.cols / 2 →
      ((List.range (g.rows - 3)).countP fun i => g.upward (i + 1) col ∈ halfKeys halves) =
        (g.rows - 3) / 2 := by
    intro col hcol
    rw [← countP_range_even]
    apply List.countP_congr
    intro i hi
    rw [List.mem_range] at hi
    have hmem := r.upward_mem_halves (show i + 1 + 1 < g.rows by omega)
      (show col < g.cols by omega)
    simp only [decide_eq_true_eq, mem_halfKeys, hmem]
    omega
  rw [r.central_keys]
  simp only [List.countP_append, List.countP_map, List.countP_reverse, Function.comp_def,
    List.countP_singleton, decide_eq_true_eq, hcrossing 1 (by omega),
    hcrossing (g.rows - 3 + 1) (by omega), if_false]
  rw [hspine _ (.inl (by omega)), hspine _ (.inr rfl)]
  omega

end HierarchicalRings

/-! ## Edges of the topology -/

namespace Wiring

variable {halves : List Cycle} {central : Cycle}

/-- The ends of a proposal are in order, and its weight tells the edges of the
    central ring from the others. -/
theorem mem_hierarchicalProposals {p : Proposal} (hp : p ∈ hierarchicalProposals halves central) :
    p.key = (p.source, p.target) ∧
      p.dimension.weight = if p.key ∈ central.keys then 1 else 2 := by
  obtain ⟨⟨a, b⟩, -, rfl⟩ := List.mem_map.mp hp
  have hkey := edgeKey_edgeKey a b
  refine ⟨hkey, ?_⟩
  show Dimension.weight (if edgeKey a b ∈ central.keys then .spine else .halfRing) =
    if edgeKey (edgeKey a b).1 (edgeKey a b).2 ∈ central.keys then 1 else 2
  rw [hkey]
  split
  · rfl
  · rfl

/-- The edges proposed are those of the rings. -/
theorem exists_hierarchicalProposals_iff {key : Nat × Nat} :
    (∃ p ∈ hierarchicalProposals halves central, p.key = key) ↔
      (∃ c ∈ halves, key ∈ c.keys) ∨ key ∈ central.keys := by
  have hkeys : (hierarchicalProposals halves central).map Proposal.key =
      halves.flatMap Cycle.keys ++ central.keys := by
    rw [hierarchicalProposals, List.map_map, List.map_append, List.map_flatMap]
    congr 1
    · apply List.flatMap_congr
      intro c _
      exact List.map_congr_left fun e _ => edgeKey_edgeKey e.1 e.2
    · exact List.map_congr_left fun e _ => edgeKey_edgeKey e.1 e.2
  rw [← List.mem_map, hkeys, List.mem_append, List.mem_flatMap]

end Wiring

namespace HierarchicalRings

variable {c : Configuration} {endpoints : List Endpoint} {t : Topology}
  {placements : List Placement} {halves : List Cycle} {central : Cycle}

/-- An edge is kept from its smaller to its larger router. -/
theorem edge_eq (s : Stages c endpoints t placements (Wiring.ofRings halves central))
    {l : InternalLink} (hl : l ∈ t.edges) :
    l.edge = (l.source, l.target) ∧ l.source < l.target ∧
      l.weight = if l.edge ∈ central.keys then 1 else 2 := by
  obtain ⟨p, hp, hsource, htarget, hweight, -⟩ := s.mem_edges hl
  have hmem := Proposal.mem_of_mem_fresh hp
  obtain ⟨hkey, hspine⟩ := Wiring.mem_hierarchicalProposals hmem
  have hedge : l.edge = p.key := by
    rw [InternalLink.edge, hsource, htarget, Proposal.key]
  have hne := s.distinct p hmem
  have hle : p.key.1 ≤ p.key.2 := edgeKey_fst_le p.source p.target
  rw [hkey] at hle
  rw [hedge, hsource, htarget, hweight]
  exact ⟨hkey, Nat.lt_of_le_of_ne hle hne, hspine⟩

theorem exists_edge_iff (s : Stages c endpoints t placements (Wiring.ofRings halves central))
    {key : Nat × Nat} :
    (∃ l ∈ t.edges, l.edge = key) ↔ (∃ c ∈ halves, key ∈ c.keys) ∨ key ∈ central.keys := by
  rw [s.exists_edge_iff]
  exact Wiring.exists_hierarchicalProposals_iff

/-- The edges of the topology are those of the half-rings, and those of the central
    ring that no half-ring has. -/
theorem edges_perm (r : HierarchicalRings t.grid halves central)
    (s : Stages c endpoints t placements (Wiring.ofRings halves central)) :
    (t.edges.map InternalLink.edge).Perm
      (halfKeys halves ++ central.keys.filter fun key => key ∉ halfKeys halves) := by
  have hfilter : (central.keys.filter fun key => key ∉ halfKeys halves).Nodup :=
    central.nodup_keys.filter _
  have hnodup : (halfKeys halves ++
      central.keys.filter fun key => key ∉ halfKeys halves).Nodup := by
    refine List.Nodup.append r.nodup_halfKeys hfilter ?_
    intro key hhalf hcentral
    have hoff : key ∉ halfKeys halves := by simpa using (List.mem_filter.mp hcentral).2
    exact hoff hhalf
  apply (List.perm_ext_iff_of_nodup s.nodup_edge_edges hnodup).mpr
  intro key
  rw [List.mem_map, exists_edge_iff s, ← mem_halfKeys, List.mem_append, List.mem_filter]
  by_cases hhalf : key ∈ halfKeys halves
  · simp [hhalf]
  · simp [hhalf]

theorem length_edges (r : HierarchicalRings t.grid halves central)
    (s : Stages c endpoints t placements (Wiring.ofRings halves central)) :
    t.edges.length = t.grid.rows * (t.grid.cols + 1) := by
  have hrows := r.four_le_rows
  have hperm := (r.edges_perm s).length_eq
  -- the central ring adds as many edges as it does not share
  have hsplit := List.length_eq_countP_add_countP
    (fun key => decide (key ∈ halfKeys halves)) (l := central.keys)
  have hshared := r.countP_central_halfKeys
  have hsize := r.central_size
  rw [← Cycle.length_keys] at hsize
  rw [List.length_map, List.length_append, r.length_halfKeys, ← List.countP_eq_length_filter]
    at hperm
  simp only [decide_not, Bool.decide_eq_true] at hperm hsplit hshared
  rw [hperm, Nat.mul_add, Nat.mul_one]
  omega

/-- The rings on and off the escape channel are the central ring and the half-rings. -/
theorem onRing_iff (r : HierarchicalRings t.grid halves central)
    (s : Stages c endpoints t placements (Wiring.ofRings halves central)) (l : InternalLink) :
    (t.onRing true l ↔ l.edge ∈ central.keys) ∧
      (t.onRing false l ↔ l.edge ∈ halfKeys halves) := by
  have hplan : t.plan = some (Escape.Plan.ofCycles c.escapeRankPolicy (halves ++ [central])) :=
    s.plan
  have hring : ∀ escape, t.onRing escape l ↔
      ∃ x ∈ halves ++ [central], x.role.isEscapeChannel = escape ∧ l.edge ∈ x.keys := by
    intro escape
    simp only [Topology.onRing, hplan, Option.any_some, Escape.Plan.ofCycles_cycles,
      List.any_eq_true, Bool.and_eq_true, beq_iff_eq, List.contains_iff_mem]
  rw [hring, hring, mem_halfKeys]
  simp only [List.mem_append, List.mem_singleton]
  constructor
  · constructor
    · intro h
      obtain ⟨x, hx | rfl, hescape, hkey⟩ := h
      · exact absurd (hescape.symm.trans (r.half_off_channel hx)) (by decide)
      · exact hkey
    · intro h
      exact ⟨central, .inr rfl, r.central_on_channel, h⟩
  · constructor
    · intro h
      obtain ⟨x, hx | rfl, hescape, hkey⟩ := h
      · exact ⟨x, hx, hkey⟩
      · exact absurd (r.central_on_channel.symm.trans hescape) (by decide)
    · intro h
      obtain ⟨x, hx, hkey⟩ := h
      exact ⟨x, .inl hx, r.half_off_channel hx, hkey⟩

/-- The shared edges of the topology are those of the central ring that a half-ring
    has too. -/
theorem countP_shared (r : HierarchicalRings t.grid halves central)
    (s : Stages c endpoints t placements (Wiring.ofRings halves central)) :
    (t.edges.countP fun l => t.onRing true l && t.onRing false l) = t.grid.rows - 4 := by
  rw [← r.countP_central_halfKeys]
  have hedges : (t.edges.countP fun l => t.onRing true l && t.onRing false l) =
      (t.edges.map InternalLink.edge).countP fun key =>
        decide (key ∈ central.keys) && decide (key ∈ halfKeys halves) := by
    rw [List.countP_map]
    apply List.countP_congr
    intro l _
    obtain ⟨hon, hoff⟩ := r.onRing_iff s l
    simp only [Bool.and_eq_true, hon, hoff, Function.comp_apply, decide_eq_true_eq]
  -- both lists hold the shared edges, and neither of them twice
  rw [hedges, List.countP_eq_length_filter, List.countP_eq_length_filter]
  apply List.Perm.length_eq
  apply (List.perm_ext_iff_of_nodup (s.nodup_edge_edges.filter _)
    (central.nodup_keys.filter _)).mpr
  intro key
  simp only [List.mem_filter, Bool.and_eq_true, decide_eq_true_eq]
  constructor
  · intro h
    exact h.2
  · intro h
    obtain ⟨hcentral, hhalf⟩ := h
    exact ⟨List.mem_map.mpr ((exists_edge_iff s).mpr (.inr hcentral)), hcentral, hhalf⟩

end HierarchicalRings

/-! ## Main statement -/

/-- **Edges of a hierarchical ring**: they are the expected ones, each of them once,
    whatever rings run over it. -/
theorem hierarchicalRing_edges {c : Configuration} {endpoints : List Endpoint} {t : Topology}
    (h : synthesize c endpoints = .ok t) (hfamily : c.family = .hierarchicalRing) :
    t.HierarchicalEdges := by
  obtain ⟨placements, wiring, s⟩ := synthesize_stages h
  obtain ⟨halves, central, r, rfl⟩ := s.hierarchicalRings hfamily
  refine {
    edge_iff := ?_
    ascending := fun l hl => (HierarchicalRings.edge_eq s hl).2.1
    once := s.nodup_edge_edges
    length := r.length_edges s
    shared := r.countP_shared s }
  intro a b w
  rw [r.ringEdge_iff]
  constructor
  · intro h
    obtain ⟨l, hl, rfl, rfl, rfl⟩ := h
    obtain ⟨hedge, -, hweight⟩ := HierarchicalRings.edge_eq s hl
    rw [← hedge]
    exact ⟨(HierarchicalRings.exists_edge_iff s).mp ⟨l, hl, rfl⟩, hweight⟩
  · intro h
    obtain ⟨hring, rfl⟩ := h
    obtain ⟨l, hl, hkey⟩ := (HierarchicalRings.exists_edge_iff s).mpr hring
    obtain ⟨hedge, -, hweight⟩ := HierarchicalRings.edge_eq s hl
    rw [hkey] at hedge hweight
    exact ⟨l, hl, (congrArg Prod.fst hedge).symm, (congrArg Prod.snd hedge).symm, hweight⟩

theorem hierarchicalRing_edges_sixByFour :
    ∃ t, synthesize .sixByFour (Endpoint.population 24 0 1) = .ok t ∧
      t.grid = ⟨6, 4⟩ ∧ t.HierarchicalEdges := by
  obtain ⟨t, h⟩ := exists_synthesize_sixByFour
  exact ⟨t, h, synthesize_grid h rfl, hierarchicalRing_edges h rfl⟩

end Interconnect
