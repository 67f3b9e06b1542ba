import Interconnect.Proofs.Draft
import Interconnect.Proofs.Grid
import Mathlib.Data.List.Nodup

/-! # Proposals in rank order

    Lattices are wired router by router, in the order of the ranks: each router
    proposes edges of its own. Some of these edges were proposed before, from the
    other end, if that end is the smaller router. Where every edge to a smaller router
    was, the edges that are accepted are those to larger routers, each from its smaller
    end, in the order in which they were proposed (`RankOrdered.fresh_eq`).

    The induction over the routers carries one invariant: the edges seen before a router
    are those that the smaller routers proposed. The routers are the cells of a grid in
    the lattice families (`RankOrdered.fresh_cells`).
-/

namespace Interconnect.Wiring

/-- What `n` routers propose, one after the other in rank order. -/
structure RankOrdered (n : Nat) (proposed : Nat → List Proposal) : Prop where
  /-- Routers propose their own edges, -/
  source : ∀ a < n, ∀ p ∈ proposed a, p.source = a
  /-- to other routers, -/
  distinct : ∀ a < n, ∀ p ∈ proposed a, p.target ≠ a
  /-- to each of them once. -/
  nodup : ∀ a < n, ((proposed a).map (·.target)).Nodup
  /-- An edge to a smaller router was proposed by that router. -/
  back : ∀ a < n, ∀ p ∈ proposed a, p.target < a → ∃ q ∈ proposed p.target, q.target = a

namespace RankOrdered

variable {n a : Nat} {proposed : Nat → List Proposal} {p : Proposal}

theorem key_eq (r : RankOrdered n proposed) (ha : a < n) (hp : p ∈ proposed a) :
    p.key = edgeKey a p.target := by
  rw [Proposal.key, r.source a ha p hp]

/-- A router proposes no edge twice. -/
theorem nodup_keys (r : RankOrdered n proposed) (ha : a < n) :
    ((proposed a).map Proposal.key).Nodup := by
  have hkeys : (proposed a).map Proposal.key =
      ((proposed a).map (·.target)).map (edgeKey a) := by
    rw [List.map_map]
    exact List.map_congr_left fun p hp => r.key_eq ha hp
  rw [hkeys]
  apply List.Nodup.map _ (r.nodup a ha)
  intro b b' hsame
  rcases edgeKey_eq_iff.mp hsame with ⟨-, hb⟩ | ⟨hb, hb'⟩
  · exact hb
  · exact hb'.trans hb

/-- The invariant: when a router's turn has come, its edges to smaller routers are known,
    and those to larger ones are new. -/
theorem seen_iff (r : RankOrdered n proposed) (ha : a < n) (hp : p ∈ proposed a) :
    p.key ∈ ((List.range a).flatMap proposed).map Proposal.key ↔ p.target < a := by
  rw [r.key_eq ha hp, List.mem_map]
  constructor
  · intro h
    obtain ⟨q, hq, hkey⟩ := h
    obtain ⟨b, hb, hq⟩ := List.mem_flatMap.mp hq
    have hlt : b < a := List.mem_range.mp hb
    rw [r.key_eq (Nat.lt_trans hlt ha) hq] at hkey
    -- the smaller router has one end of the edge, and it is not `a`
    rcases edgeKey_eq_iff.mp hkey with ⟨hsame, -⟩ | ⟨hsame, -⟩
    · omega
    · omega
  · intro hlt
    obtain ⟨q, hq, htarget⟩ := r.back a ha p hp hlt
    refine ⟨q, List.mem_flatMap.mpr ⟨p.target, List.mem_range.mpr hlt, hq⟩, ?_⟩
    rw [r.key_eq (Nat.lt_trans hlt ha) hq, htarget]
    exact edgeKey_comm p.target a

/-- What is accepted of a router's proposals when its turn has come. -/
theorem fresh_turn (r : RankOrdered n proposed) (ha : a < n) :
    Proposal.fresh (((List.range a).flatMap proposed).map Proposal.key) (proposed a) =
      (proposed a).filter fun p => a < p.target := by
  rw [Proposal.fresh_eq_filter (r.nodup_keys ha)]
  apply List.filter_congr
  intro p hp
  have hne := r.distinct a ha p hp
  have hseen := r.seen_iff ha hp
  simp only [hseen, decide_eq_decide]
  omega

/-- Every edge is accepted from its smaller router. -/
theorem fresh_eq (r : RankOrdered n proposed) :
    Proposal.fresh [] ((List.range n).flatMap proposed) =
      (List.range n).flatMap fun a => (proposed a).filter fun p => a < p.target := by
  have hturns : ∀ m ≤ n, Proposal.fresh [] ((List.range m).flatMap proposed) =
      (List.range m).flatMap fun a => (proposed a).filter fun p => a < p.target := by
    intro m
    induction m with
    | zero =>
      intro _
      rfl
    | succ m ih =>
      intro hm
      rw [List.range_succ, List.flatMap_append, List.flatMap_append, List.flatMap_singleton,
        List.flatMap_singleton, Proposal.fresh_append, ih (Nat.le_of_lt hm), List.nil_append,
        r.fresh_turn hm]
  exact hturns n (Nat.le_refl n)

/-- Where every edge is proposed from both of its ends, a router proposes all edges that
    it is joined by. -/
theorem mem_targets_iff (r : RankOrdered n proposed)
    (hanswered : ∀ a < n, ∀ p ∈ proposed a, ∃ q ∈ proposed p.target, q.target = a) (ha : a < n)
    {b : Nat} :
    b ∈ (proposed a).map (·.target) ↔
      ∃ p ∈ (List.range n).flatMap proposed, p.key = edgeKey a b := by
  rw [List.mem_map]
  constructor
  · intro h
    obtain ⟨p, hp, rfl⟩ := h
    exact ⟨p, List.mem_flatMap.mpr ⟨a, List.mem_range.mpr ha, hp⟩, r.key_eq ha hp⟩
  · intro h
    obtain ⟨p, hp, hkey⟩ := h
    obtain ⟨x, hx, hp⟩ := List.mem_flatMap.mp hp
    have hlt : x < n := List.mem_range.mp hx
    rw [r.key_eq hlt hp] at hkey
    rcases edgeKey_eq_iff.mp hkey with ⟨rfl, htarget⟩ | ⟨rfl, htarget⟩
    · exact ⟨p, hp, htarget⟩
    · -- the edge was proposed from the other end, and so from this one
      rw [← htarget]
      exact hanswered x hlt p hp

/-! ## Cells -/

section cells

variable {g : Grid} {proposed : Nat → Nat → List Proposal}

/-- Cells propose in rank order. -/
theorem of_cells
    (hsource : ∀ row < g.rows, ∀ col < g.cols, ∀ p ∈ proposed row col, p.source = g.cell row col)
    (hdistinct : ∀ row < g.rows, ∀ col < g.cols, ∀ p ∈ proposed row col, p.target ≠ g.cell row col)
    (hnodup : ∀ row < g.rows, ∀ col < g.cols, ((proposed row col).map (·.target)).Nodup)
    (hback : ∀ row < g.rows, ∀ col < g.cols, ∀ p ∈ proposed row col, p.target < g.cell row col →
      ∃ q ∈ proposed (p.target / g.cols) (p.target % g.cols), q.target = g.cell row col) :
    RankOrdered (g.rows * g.cols) fun a => proposed (a / g.cols) (a % g.cols) where
  source := Grid.forall_rank (P := fun row col a => ∀ p ∈ proposed row col, p.source = a) hsource
  distinct :=
    Grid.forall_rank (P := fun row col a => ∀ p ∈ proposed row col, p.target ≠ a) hdistinct
  nodup :=
    Grid.forall_rank (P := fun row col _ => ((proposed row col).map (·.target)).Nodup) hnodup
  back :=
    Grid.forall_rank (P := fun row col a => ∀ p ∈ proposed row col, p.target < a →
      ∃ q ∈ proposed (p.target / g.cols) (p.target % g.cols), q.target = a) hback

/-- Of what the cells propose, the edges to later cells are accepted. -/
theorem fresh_cells
    (r : RankOrdered (g.rows * g.cols) fun a => proposed (a / g.cols) (a % g.cols)) :
    Proposal.fresh [] (g.cells.flatMap fun (row, col) => proposed row col) =
      g.cells.flatMap fun (row, col) =>
        (proposed row col).filter fun p => g.cell row col < p.target := by
  rw [Grid.cells, List.flatMap_map, List.flatMap_map, r.fresh_eq]
  simp only [Grid.cell_div_mod]

/-- Where every edge is proposed from both of its ends, a cell proposes all edges that it
    is joined by. -/
theorem mem_cell_targets_iff
    (r : RankOrdered (g.rows * g.cols) fun a => proposed (a / g.cols) (a % g.cols))
    (hanswered : ∀ row < g.rows, ∀ col < g.cols, ∀ p ∈ proposed row col,
      ∃ q ∈ proposed (p.target / g.cols) (p.target % g.cols), q.target = g.cell row col)
    {row col b : Nat} (hrow : row < g.rows) (hcol : col < g.cols) :
    b ∈ (proposed row col).map (·.target) ↔
      ∃ p ∈ g.cells.flatMap fun (row, col) => proposed row col,
        p.key = edgeKey (g.cell row col) b := by
  have hranks := Grid.forall_rank (P := fun row col a => ∀ p ∈ proposed row col,
    ∃ q ∈ proposed (p.target / g.cols) (p.target % g.cols), q.target = a) hanswered
  have hjoined := r.mem_targets_iff hranks (Grid.cell_lt hrow hcol) (b := b)
  rw [Grid.cell_div hcol, Grid.cell_mod hcol] at hjoined
  rw [hjoined, Grid.cells, List.flatMap_map]

end cells

end RankOrdered

end Interconnect.Wiring
