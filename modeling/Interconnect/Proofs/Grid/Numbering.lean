import Interconnect.Proofs.Position
import Interconnect.Proofs.Wired

/-! # Ranks, cells and places

    The routers of a grid are numbered along its rows, and each of them is drawn at a place
    of its own.

    * A rank leads to a row and a column and back, and so does a cell to its rank.
    * The cells are listed in the order of their ranks, none of them twice.
    * Every family draws the routers on all places of `cols` by `rows`, one on each, although
      a ring folds every odd row back.

    `Grid.ofRouters_numbering` is the main statement.
-/

namespace Interconnect

variable {g : Grid}

/-! ## Places -/

namespace Family

variable {family : Family}

/-- The rank of the router that is drawn at a place. -/
def rankAt (family : Family) (g : Grid) (p : Position) : Nat :=
  if family = ring ∧ p.y % 2 = 1 then g.cell p.y (g.cols - 1 - p.x) else g.cell p.y p.x

theorem spot_within {k : Nat} (hk : k < g.rows * g.cols) :
    (family.spot g k).x < g.cols ∧ (family.spot g k).y < g.rows := by
  obtain ⟨row, col, hrow, hcol, rfl⟩ := Grid.exists_cell hk
  unfold spot
  rw [Grid.cell_div hcol, Grid.cell_mod hcol]
  split
  · exact ⟨show g.cols - 1 - col < g.cols by omega, hrow⟩
  · exact ⟨hcol, hrow⟩

theorem rankAt_lt {p : Position} (hx : p.x < g.cols) (hy : p.y < g.rows) :
    family.rankAt g p < g.rows * g.cols := by
  unfold rankAt
  split
  · exact Grid.cell_lt hy (by omega)
  · exact Grid.cell_lt hy hx

/-- At every place of the plane a router is drawn. -/
theorem spot_rankAt {p : Position} (hx : p.x < g.cols) : family.spot g (family.rankAt g p) = p := by
  unfold rankAt
  by_cases hfold : family = ring ∧ p.y % 2 = 1
  · -- a row that is folded back twice runs forward
    have hback : g.cols - 1 - p.x < g.cols := by omega
    rw [if_pos hfold, spot, Grid.cell_div hback, Grid.cell_mod hback, if_pos hfold,
      show g.cols - 1 - (g.cols - 1 - p.x) = p.x by omega]
  · rw [if_neg hfold, spot, Grid.cell_div hx, Grid.cell_mod hx, if_neg hfold]

end Family

/-! ## Main statement -/

namespace Grid

/-- How the routers of a grid are numbered, and where they are drawn. -/
structure Numbering (g : Grid) (routers : Nat) : Prop where
  size : g.size = .ok routers
  /-- A rank leads to a row and a column, and they lead back to it. -/
  cell_of_rank : ∀ k < routers, ∃ row col, g.row k = .ok row ∧ g.col k = .ok col ∧
    row < g.rows ∧ col < g.cols ∧ g.rank row col = .ok k
  /-- A row and a column lead to a rank, and it leads back to them. -/
  rank_of_cell : ∀ row < g.rows, ∀ col < g.cols, ∃ k < routers,
    g.rank row col = .ok k ∧ g.row k = .ok row ∧ g.col k = .ok col
  cells : ∀ row col, (row, col) ∈ g.cells ↔ row < g.rows ∧ col < g.cols
  /-- The ranks of the cells, one after the other. -/
  ranks : g.cells.mapM (fun (row, col) => g.rank row col) = .ok (List.range routers)
  /-- Every router is drawn on the plane. -/
  position : ∀ (family : Family), ∀ k < routers, ∃ p, family.position g k = .ok p ∧
    p.x < g.cols ∧ p.y < g.rows
  /-- At every place of the plane one router is drawn. -/
  router : ∀ (family : Family) (p : Position), p.x < g.cols → p.y < g.rows →
    ∃! k, k < routers ∧ family.position g k = .ok p
  /-- No topology on the grid draws a router outside of its plane, or two at one place. -/
  plane : ∀ t : Topology, t.grid = g → ∀ k < routers, ∃ p, t.position k = .ok p ∧
    p.x < t.width ∧ p.y < t.height ∧ ∀ l < routers, t.position l = .ok p → l = k

/-- **Numbering**: on the grid of any number of routers, ranks, cells and places correspond
    to each other one by one. -/
theorem ofRouters_numbering {rows routers : Nat} (hbound : routers < Word.bound)
    (h : ofRouters rows routers = .ok g) : g.Numbering routers := by
  obtain ⟨-, hcols, -, rfl⟩ := ofRouters_cases h
  -- no word overflows, so that ranks and places are those of plain numbers
  have hne : g.cols ≠ 0 := Nat.ne_of_gt hcols
  have hposition : ∀ (family : Family) k, family.position g k = .ok (family.spot g k) :=
    fun family k => Family.position_eq_ok hne k
  have hcell : ∀ row < g.rows, ∀ col < g.cols, g.rank row col = .ok (g.cell row col) :=
    fun row hrow col hcol => rank_eq_ok hbound hrow hcol
  refine {
    size := Word.mul_eq_ok hbound
    cell_of_rank := ?_
    rank_of_cell := ?_
    cells := fun row col => mem_cells
    ranks := ?_
    position := fun family k hk => ⟨_, hposition family k, Family.spot_within hk⟩
    router := ?_
    plane := ?_ }
  · intro k hk
    obtain ⟨row, col, hrow, hcol, rfl⟩ := exists_cell hk
    refine ⟨row, col, ?_, ?_, hrow, hcol, hcell row hrow col hcol⟩
    · rw [Grid.row, Word.div_eq_ok hne, cell_div hcol]
    · rw [Grid.col, Word.rem_eq_ok hne, cell_mod hcol]
  · intro row hrow col hcol
    refine ⟨g.cell row col, cell_lt hrow hcol, hcell row hrow col hcol, ?_, ?_⟩
    · rw [Grid.row, Word.div_eq_ok hne, cell_div hcol]
    · rw [Grid.col, Word.rem_eq_ok hne, cell_mod hcol]
  · rw [mapM_eq_ok_iff, Grid.cells, List.forall₂_map_left_iff, List.forall₂_same]
    intro k hk
    obtain ⟨row, col, hrow, hcol, rfl⟩ := exists_cell (List.mem_range.mp hk)
    rw [cell_div hcol, cell_mod hcol]
    exact hcell row hrow col hcol
  · intro family p hx hy
    refine ⟨family.rankAt g p, ⟨Family.rankAt_lt hx hy, ?_⟩, ?_⟩
    · rw [hposition, Family.spot_rankAt hx]
    · rintro k ⟨-, hk⟩
      rw [hposition, Except.ok.injEq] at hk
      exact (Family.spot_inj hcols).mp (hk.trans (Family.spot_rankAt hx).symm)
  · rintro t rfl k hk
    have hspot : (t.family.spot t.grid k).x < t.width ∧ (t.family.spot t.grid k).y < t.height :=
      Family.spot_within hk
    refine ⟨_, hposition t.family k, hspot.1, hspot.2, ?_⟩
    intro l _ hl
    rw [Topology.position, hposition, Except.ok.injEq] at hl
    exact (Family.spot_inj hcols).mp hl

theorem ofRouters_numbering_threeByFour :
    ofRouters 3 12 = .ok ⟨3, 4⟩ ∧ (⟨3, 4⟩ : Grid).Numbering 12 := by
  have h : ofRouters 3 12 = .ok ⟨3, 4⟩ := rfl
  exact ⟨h, ofRouters_numbering (by decide) h⟩

end Grid

end Interconnect
