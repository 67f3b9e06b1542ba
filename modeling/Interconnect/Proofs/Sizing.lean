import Interconnect.Sizing
import Interconnect.Proofs.Grid
import Interconnect.Proofs.Placement

/-! # The grids that are accepted

    What the checks of a family promise about its grid: no grid is empty, a ring
    lies on two rows and has an even number of at least four routers, and a
    hierarchical ring has an even number of at least four rows and columns. A grid
    that is accepted is the one that is asked for (`Configuration.grid_eq_layout`).
-/

namespace Interconnect

theorem Grid.ofRouters_cases {rows routers : Nat} {g : Grid}
    (h : Grid.ofRouters rows routers = .ok g) :
    0 < g.rows ∧ 0 < g.cols ∧ g.rows = rows ∧ g.rows * g.cols = routers := by
  simp only [Grid.ofRouters, bind_eq_ok, liftM_eq_ok, ite_throw_eq_ok, Word.rem_ok_iff,
    Word.div_ok_iff, pure_eq_ok, not_or, not_not, Nat.not_lt] at h
  obtain ⟨-, ⟨hrows, hle⟩, _, ⟨-, rfl⟩, heven, _, ⟨-, rfl⟩, rfl⟩ := h
  refine ⟨Nat.pos_of_ne_zero hrows, ?_, rfl, ?_⟩
  · exact Nat.div_pos hle (Nat.pos_of_ne_zero hrows)
  · exact Nat.mul_div_cancel' (Nat.dvd_of_mod_eq_zero heven)

namespace Configuration

variable {c : Configuration} {g : Grid}

theorem ringRouters_cases {routers : Nat} (h : c.ringRouters = .ok routers) :
    routers % 2 = 0 ∧ 4 ≤ routers := by
  simp only [ringRouters, bind_eq_ok, ite_throw_eq_ok, pure_eq_ok, not_not, Nat.not_lt] at h
  obtain ⟨_, -, heven, hfour, rfl⟩ := h
  exact ⟨heven, hfour⟩

/-- A ring is folded over two rows of at least two routers each. -/
theorem grid_of_ring (hfamily : c.family = .ring) (h : c.grid = .ok g) :
    g.rows = 2 ∧ 2 ≤ g.cols := by
  simp only [grid, hfamily, bind_eq_ok] at h
  obtain ⟨routers, hrouters, hgrid⟩ := h
  obtain ⟨-, hfour⟩ := ringRouters_cases hrouters
  obtain ⟨-, -, hrows, hsize⟩ := Grid.ofRouters_cases hgrid
  have htwo : g.rows = 2 := hrows
  rw [htwo] at hsize
  exact ⟨htwo, by omega⟩

/-- A hierarchical ring has pairs of rows, and two halves of at least two columns. -/
theorem grid_of_hierarchicalRing (hfamily : c.family = .hierarchicalRing) (h : c.grid = .ok g) :
    g.rows % 2 = 0 ∧ g.cols % 2 = 0 ∧ 4 ≤ g.rows ∧ 4 ≤ g.cols := by
  simp only [grid, hfamily, hierarchicalGrid, bind_eq_ok, ite_throw_eq_ok, pure_eq_ok, not_or,
    not_not, Nat.not_lt] at h
  obtain ⟨_, -, ⟨hrows, hcols⟩, ⟨hleast, hleast'⟩, rfl⟩ := h
  exact ⟨hrows, hcols, hleast, hleast'⟩

/-- No accepted grid is empty. -/
theorem grid_pos (h : c.grid = .ok g) : 0 < g.rows ∧ 0 < g.cols := by
  cases hfamily : c.family with
  | mesh =>
    rw [grid, hfamily] at h
    obtain ⟨hrows, hcols, -⟩ := Grid.ofRouters_cases h
    exact ⟨hrows, hcols⟩
  | ring =>
    obtain ⟨hrows, hcols⟩ := grid_of_ring hfamily h
    omega
  | fullyConnected =>
    simp only [grid, hfamily, bind_eq_ok] at h
    obtain ⟨_, -, h⟩ := h
    obtain ⟨hrows, hcols, -⟩ := Grid.ofRouters_cases h
    exact ⟨hrows, hcols⟩
  | flattenedButterfly =>
    simp only [grid, hfamily, bind_eq_ok] at h
    obtain ⟨_, -, h⟩ := h
    obtain ⟨hrows, hcols, -⟩ := Grid.ofRouters_cases h
    exact ⟨hrows, hcols⟩
  | hierarchicalRing =>
    obtain ⟨-, -, hrows, hcols⟩ := grid_of_hierarchicalRing hfamily h
    omega

/-! ## The grid that is asked for -/

/-- The number of routers that is asked for: one for each cpu, or for each group of
    cpus that share one. -/
def routers (c : Configuration) : Nat :=
  match c.family with
  | .mesh | .hierarchicalRing => c.numCpus.toNat
  | .ring | .fullyConnected | .flattenedButterfly =>
    c.numCpus.toNat / c.concentrationFactor.toNat

/-- The number of rows that is asked for, which a ring has no choice of. -/
def rows (c : Configuration) : Nat :=
  match c.family with
  | .ring => ringRows
  | .mesh | .fullyConnected | .flattenedButterfly | .hierarchicalRing => c.meshRows.toNat

/-- The routers that are asked for, on as many rows, whether they fill them or not. -/
def layout (c : Configuration) : Grid :=
  ⟨c.rows, c.routers / c.rows⟩

theorem concentratedRouters_cases {routers : Nat} (h : c.concentratedRouters = .ok routers) :
    routers = c.numCpus.toNat / c.concentrationFactor.toNat ∧ 0 < routers := by
  simp only [concentratedRouters, bind_eq_ok, liftM_eq_ok, ite_throw_eq_ok, Word.rem_ok_iff,
    Word.div_ok_iff, pure_eq_ok] at h
  obtain ⟨-, _, -, -, _, ⟨-, rfl⟩, hpos, rfl⟩ := h
  exact ⟨rfl, Nat.pos_of_ne_zero hpos⟩

/-- An accepted grid has the rows and the routers that are asked for. -/
theorem grid_cases (h : c.grid = .ok g) : g.rows = c.rows ∧ g.rows * g.cols = c.routers := by
  unfold grid at h
  unfold rows routers
  cases hfamily : c.family with
  | mesh =>
    rw [hfamily] at h
    exact (Grid.ofRouters_cases h).2.2
  | hierarchicalRing =>
    simp only [hfamily, hierarchicalGrid, bind_eq_ok, ite_throw_eq_ok, pure_eq_ok] at h
    obtain ⟨_, hg, -, -, rfl⟩ := h
    exact (Grid.ofRouters_cases hg).2.2
  | ring =>
    simp only [hfamily, ringRouters, bind_eq_ok, ite_throw_eq_ok, pure_eq_ok] at h
    obtain ⟨_, ⟨_, hrouters, -, -, rfl⟩, hg⟩ := h
    rw [← (concentratedRouters_cases hrouters).1]
    exact (Grid.ofRouters_cases hg).2.2
  | fullyConnected =>
    simp only [hfamily, bind_eq_ok] at h
    obtain ⟨_, hrouters, hg⟩ := h
    rw [← (concentratedRouters_cases hrouters).1]
    exact (Grid.ofRouters_cases hg).2.2
  | flattenedButterfly =>
    simp only [hfamily, bind_eq_ok] at h
    obtain ⟨_, hrouters, hg⟩ := h
    rw [← (concentratedRouters_cases hrouters).1]
    exact (Grid.ofRouters_cases hg).2.2

/-- An accepted grid has as many cells as there are routers. -/
theorem size_of_grid (h : c.grid = .ok g) : g.rows * g.cols = c.routers :=
  (grid_cases h).2

theorem grid_eq_layout (h : c.grid = .ok g) : g = c.layout := by
  obtain ⟨hrows, hsize⟩ := grid_cases h
  have hcols : g.cols = c.routers / c.rows := by
    rw [← hsize, ← hrows, Nat.mul_div_cancel_left _ (grid_pos h).1]
  rw [layout, ← hcols, ← hrows]

/-- No more routers are asked for than there are cpus, whose number is a word. -/
theorem routers_lt_bound (c : Configuration) : c.routers < Word.bound := by
  have hle : c.routers ≤ c.numCpus.toNat := by
    unfold routers
    split
    · exact Nat.le_refl _
    · exact Nat.le_refl _
    all_goals exact Nat.div_le_self _ _
  exact Nat.lt_of_le_of_lt hle c.numCpus.toNat_lt

/-- The cells of an accepted grid can be counted. -/
theorem size_eq_ok (h : c.grid = .ok g) : g.size = .ok (g.rows * g.cols) := by
  apply Word.mul_eq_ok
  rw [size_of_grid h]
  exact c.routers_lt_bound

end Configuration

/-- An accepted sizing is the grid of its configuration, with the placements that
    the family's rule makes on as many routers. -/
theorem Sizing.ofConfiguration_cases {c : Configuration} {endpoints : List Endpoint} {s : Sizing}
    (h : Sizing.ofConfiguration c endpoints = .ok s) :
    c.grid = .ok s.grid ∧
      c.placementRule.place endpoints (s.grid.rows * s.grid.cols) = .ok s.placements := by
  simp only [Sizing.ofConfiguration, bind_eq_ok, liftM_eq_ok, Grid.size_ok_iff, pure_eq_ok] at h
  obtain ⟨g, hgrid, _, ⟨-, rfl⟩, places, hplaces, _, -, rfl⟩ := h
  exact ⟨hgrid, hplaces⟩

/-- Routers that are counted can be listed. -/
theorem Sizing.routers_cases {s : Sizing} {n : Nat} (h : s.routers = .ok n) :
    n = s.grid.rows * s.grid.cols ∧ n * Router.bytes < Word.block ∧
      s.placements.length * ExternalLink.bytes < Word.block := by
  simp only [routers, bind_eq_ok, Grid.size_ok_iff, Word.length_ok_iff, pure_eq_ok] at h
  obtain ⟨_, ⟨-, rfl⟩, _, ⟨hrouters, rfl⟩, _, ⟨hlinks, rfl⟩, rfl⟩ := h
  exact ⟨rfl, hrouters, hlinks⟩

end Interconnect
