import Interconnect.Proofs.Synthesis

/-! # The rings of a hierarchical ring

    Which edges of the grid the half-rings and the central ring run over, in
    terms of rows and columns. With `g.cols / 2` for the middle:

    * a half-ring runs along both rows of its pair, and closes at the first and
      the last column of its half;
    * the central ring runs up and down the two middle columns between the second
      and the last but one row, and crosses between them in these two rows.

    The two kinds of ring share the middle columns of every row pair but the first
    and the last.
-/

namespace Interconnect

open Escape (Cycle Role Side)
open Wiring (firstColumn exists_firstColumn_add_iff halfWidth halfCell middleColumn spineCell)

/-- The rings on an accepted grid. -/
structure HierarchicalRings (g : Grid) (halves : List Cycle) (central : Cycle) : Prop where
  halves_ok : Wiring.halfRings g = .ok halves
  central_ok : Wiring.centralRing g = .ok central
  rows_even : g.rows % 2 = 0
  cols_even : g.cols % 2 = 0
  four_le_rows : 4 ≤ g.rows
  four_le_cols : 4 ≤ g.cols

/-- The wiring of a hierarchical ring, which numbers the central ring last. -/
def Wiring.ofRings (halves : List Cycle) (central : Cycle) : Wiring :=
  ⟨Wiring.hierarchicalProposals halves central, some (halves ++ [central])⟩

/-- A synthesized hierarchical ring is wired by its rings. -/
theorem Stages.hierarchicalRings {c : Configuration} {endpoints : List Endpoint} {t : Topology}
    {placements : List Placement} {wiring : Wiring} (s : Stages c endpoints t placements wiring)
    (hfamily : c.family = .hierarchicalRing) :
    ∃ halves central, HierarchicalRings t.grid halves central ∧
      wiring = Wiring.ofRings halves central := by
  obtain ⟨hrows, hcols, hfourRows, hfourCols⟩ :=
    Configuration.grid_of_hierarchicalRing hfamily s.grid
  have hwired := s.wired
  rw [hfamily] at hwired
  simp only [Family.wiring, bind_eq_ok, pure_eq_ok] at hwired
  obtain ⟨halves, hhalves, central, hcentral, rfl⟩ := hwired
  exact ⟨halves, central, ⟨hhalves, hcentral, hrows, hcols, hfourRows, hfourCols⟩, rfl⟩

namespace HierarchicalRings

variable {g : Grid} {halves : List Cycle} {central : Cycle} {c : Cycle} {key : Nat × Nat}

/-! ## Half-rings -/

/-- Each half-ring has its row pair and its side. -/
theorem half_cases (r : HierarchicalRings g halves central) (hc : c ∈ halves) :
    ∃ rowPair side, rowPair < g.rows / 2 ∧ c.role = .halfRing rowPair side ∧
      c.routers = Cycle.loop (halfCell g side (2 * rowPair)) (halfCell g side (2 * rowPair + 1))
        (g.cols / 2) := by
  obtain ⟨rowPair, side, hrow, hring⟩ := Wiring.exists_of_mem_halfRings r.halves_ok hc
  obtain ⟨hrole, hrouters⟩ := Wiring.halfRing_cases hring
  have hwidth : halfWidth g side = g.cols / 2 := by
    have heven := r.cols_even
    cases side with
    | left => rfl
    | right =>
      show g.cols - g.cols / 2 = g.cols / 2
      omega
  rw [hwidth] at hrouters
  exact ⟨rowPair, side, hrow, hrole, hrouters⟩

/-- Half-rings are off the escape channel. -/
theorem half_off_channel (r : HierarchicalRings g halves central) (hc : c ∈ halves) :
    c.role.isEscapeChannel = false := by
  obtain ⟨rowPair, side, -, hrole, -⟩ := r.half_cases hc
  rw [hrole]
  rfl

/-- Each row pair has a half-ring on each side. -/
theorem exists_half (r : HierarchicalRings g halves central) {rowPair : Nat}
    (hrow : rowPair < g.rows / 2) (side : Side) :
    ∃ c ∈ halves, c.role = .halfRing rowPair side := by
  have hroles := Wiring.halfRings_roles r.halves_ok
  have hmem : Role.halfRing rowPair side ∈ halves.map (·.role) := by
    rw [hroles, List.mem_append, List.mem_map, List.mem_map]
    cases side with
    | left => exact .inl ⟨rowPair, List.mem_range.mpr hrow, rfl⟩
    | right => exact .inr ⟨rowPair, List.mem_range.mpr hrow, rfl⟩
  exact List.mem_map.mp hmem

/-- The roles of the half-rings are distinct. -/
theorem nodup_half_roles (r : HierarchicalRings g halves central) :
    (halves.map (·.role)).Nodup := by
  rw [Wiring.halfRings_roles r.halves_ok, List.nodup_append]
  refine ⟨?_, ?_, ?_⟩
  · exact List.Nodup.map (fun a b hab => by injection hab) List.nodup_range
  · exact List.Nodup.map (fun a b hab => by injection hab) List.nodup_range
  · intro x hx y hy hxy
    obtain ⟨i, -, rfl⟩ := List.mem_map.mp hx
    obtain ⟨j, -, rfl⟩ := List.mem_map.mp hy
    injection hxy with _ hside
    cases hside

/-- There are as many half-rings as rows. -/
theorem length_halves (r : HierarchicalRings g halves central) : halves.length = g.rows := by
  have heven := r.rows_even
  have hlength := congrArg List.length (Wiring.halfRings_roles r.halves_ok)
  simp only [List.length_map, List.length_append, List.length_range] at hlength
  omega

/-- What no half-ring lists twice, and no two half-rings list both, is listed once. -/
theorem nodup_flatMap_halves (r : HierarchicalRings g halves central) {α : Type}
    {f : Cycle → List α} (hnodup : ∀ c, (f c).Nodup)
    (hunique : ∀ c ∈ halves, ∀ c' ∈ halves, ∀ x ∈ f c, x ∈ f c' → c = c') :
    (halves.flatMap f).Nodup := by
  rw [List.nodup_flatMap]
  refine ⟨fun c _ => hnodup c, ?_⟩
  have hdistinct : halves.Nodup := List.Nodup.of_map _ r.nodup_half_roles
  refine List.Pairwise.imp_of_mem ?_ hdistinct
  intro c c' hc hc' hne x hx hx'
  exact hne (hunique c hc c' hc' x hx hx')

/-- A half-ring visits the two rows of its pair on its own side of the middle. -/
theorem mem_half_routers (r : HierarchicalRings g halves central) (hc : c ∈ halves)
    {rowPair : Nat} {side : Side} (hrole : c.role = .halfRing rowPair side) {x : Nat} :
    x ∈ c.routers ↔ ∃ row col, row / 2 = rowPair ∧ col < g.cols ∧
      (side = .left ↔ col < g.cols / 2) ∧ x = g.cell row col := by
  obtain ⟨rowPair', side', -, hrole', hrouters⟩ := r.half_cases hc
  rw [hrole, Role.halfRing.injEq] at hrole'
  obtain ⟨rfl, rfl⟩ := hrole'
  rw [hrouters, Cycle.mem_loop]
  constructor
  · intro h
    obtain ⟨i, hi, hx⟩ := h
    obtain ⟨hcol, hside⟩ := (exists_firstColumn_add_iff r.cols_even).mp ⟨i, hi, rfl⟩
    rcases hx with rfl | rfl
    · exact ⟨_, _, by omega, hcol, hside, rfl⟩
    · exact ⟨_, _, by omega, hcol, hside, rfl⟩
  · intro h
    obtain ⟨row, col, hrow, hcol, hside, rfl⟩ := h
    obtain ⟨i, hi, rfl⟩ := (exists_firstColumn_add_iff r.cols_even).mpr ⟨hcol, hside⟩
    refine ⟨i, hi, ?_⟩
    rcases (show row = 2 * rowPair ∨ row = 2 * rowPair + 1 by omega) with rfl | rfl
    · exact .inl rfl
    · exact .inr rfl

/-- The edges of a half-ring, as it runs over them. -/
theorem half_keys_cases (r : HierarchicalRings g halves central) (hc : c ∈ halves)
    {rowPair : Nat} {side : Side} (hrole : c.role = .halfRing rowPair side) :
    key ∈ c.keys ↔
      (∃ i < g.cols / 2 - 1, key = g.across (2 * rowPair) (firstColumn g side + i) ∨
        key = g.across (2 * rowPair + 1) (firstColumn g side + i)) ∨
      key = g.upward (2 * rowPair) (firstColumn g side + (g.cols / 2 - 1)) ∨
      key = g.upward (2 * rowPair) (firstColumn g side + 0) := by
  have hfour := r.four_le_cols
  obtain ⟨rowPair', side', -, hrole', hrouters⟩ := r.half_cases hc
  rw [hrole, Role.halfRing.injEq] at hrole'
  obtain ⟨rfl, rfl⟩ := hrole'
  have hwidth : g.cols / 2 = g.cols / 2 - 1 + 1 := by omega
  rw [hwidth] at hrouters
  have hacross : ∀ row i, edgeKey (halfCell g side row i) (halfCell g side row (i + 1)) =
      g.across row (firstColumn g side + i) := by
    intro row i
    exact g.edgeKey_across row (firstColumn g side + i)
  have hupward : ∀ i, edgeKey (halfCell g side (2 * rowPair) i)
      (halfCell g side (2 * rowPair + 1) i) = g.upward (2 * rowPair) (firstColumn g side + i) := by
    intro i
    exact Grid.edgeKey_upward (by omega) (2 * rowPair) (firstColumn g side + i)
  rw [Cycle.mem_keys_of_loop hrouters]
  simp only [hacross, hupward]

/-- The edges of a half-ring: along both rows of its pair, and between them at the
    first and at the last column of its half. -/
theorem mem_half_keys (r : HierarchicalRings g halves central) (hc : c ∈ halves)
    {rowPair : Nat} {side : Side} (hrole : c.role = .halfRing rowPair side) :
    key ∈ c.keys ↔
      (∃ row col, row / 2 = rowPair ∧ col + 1 < g.cols ∧ (side = .left ↔ col < g.cols / 2) ∧
        col + 1 ≠ g.cols / 2 ∧ key = g.across row col) ∨
      ∃ col, col < g.cols ∧ (side = .left ↔ col < g.cols / 2) ∧
        (col = 0 ∨ col + 1 = g.cols / 2 ∨ col = g.cols / 2 ∨ col + 1 = g.cols) ∧
        key = g.upward (2 * rowPair) col := by
  have heven := r.cols_even
  have hfour := r.four_le_cols
  have hhalf : ∀ i < g.cols / 2, firstColumn g side + i < g.cols ∧
      (side = .left ↔ firstColumn g side + i < g.cols / 2) := by
    intro i hi
    exact (exists_firstColumn_add_iff heven).mp ⟨i, hi, rfl⟩
  rw [r.half_keys_cases hc hrole]
  constructor
  · intro h
    rcases h with ⟨i, hi, hkey⟩ | hkey | hkey
    · -- along one of the two rows, where the next column is still in the half
      obtain ⟨hcol, hside⟩ := hhalf i (by omega)
      obtain ⟨hnext, hnextSide⟩ := hhalf (i + 1) (by omega)
      have hmiddle : firstColumn g side + i + 1 ≠ g.cols / 2 := by
        intro hlast
        have hleft : side = .left := hside.mpr (by omega)
        have hlt := hnextSide.mp hleft
        omega
      rcases hkey with hkey | hkey
      · exact .inl ⟨2 * rowPair, _, by omega, hnext, hside, hmiddle, hkey⟩
      · exact .inl ⟨2 * rowPair + 1, _, by omega, hnext, hside, hmiddle, hkey⟩
    · -- between the rows, at the last column of the half
      obtain ⟨hcol, hside⟩ := hhalf (g.cols / 2 - 1) (by omega)
      refine .inr ⟨_, hcol, hside, ?_, hkey⟩
      cases side with
      | left => simp only [firstColumn]; omega
      | right => simp only [firstColumn]; omega
    · -- between the rows, at the first column of the half
      obtain ⟨hcol, hside⟩ := hhalf 0 (by omega)
      refine .inr ⟨_, hcol, hside, ?_, hkey⟩
      cases side with
      | left => simp [firstColumn]
      | right => simp [firstColumn]
  · intro h
    rcases h with ⟨row, col, hrow, hcol, hside, hmiddle, rfl⟩ | ⟨col, hcol, hside, hend, rfl⟩
    · obtain ⟨i, hi, rfl⟩ :=
        (exists_firstColumn_add_iff heven).mpr ⟨(by omega : col < g.cols), hside⟩
      have hlast : i < g.cols / 2 - 1 := by
        cases side with
        | left => simp only [firstColumn] at hmiddle; omega
        | right => simp only [firstColumn] at hcol; omega
      refine .inl ⟨i, hlast, ?_⟩
      rcases (show row = 2 * rowPair ∨ row = 2 * rowPair + 1 by omega) with rfl | rfl
      · exact .inl rfl
      · exact .inr rfl
    · obtain ⟨i, hi, rfl⟩ := (exists_firstColumn_add_iff heven).mpr ⟨hcol, hside⟩
      have hends : i = g.cols / 2 - 1 ∨ i = 0 := by
        cases side with
        | left => simp only [firstColumn] at hend; omega
        | right => simp only [firstColumn] at hend; omega
      rcases hends with rfl | rfl
      · exact .inr (.inl rfl)
      · exact .inr (.inr rfl)

/-- The edges of all half-rings. -/
theorem mem_halves_keys (r : HierarchicalRings g halves central) :
    (∃ c ∈ halves, key ∈ c.keys) ↔
      (∃ row col, row < g.rows ∧ col + 1 < g.cols ∧ col + 1 ≠ g.cols / 2 ∧
        key = g.across row col) ∨
      ∃ row col, row + 1 < g.rows ∧ row % 2 = 0 ∧ col < g.cols ∧
        (col = 0 ∨ col + 1 = g.cols / 2 ∨ col = g.cols / 2 ∨ col + 1 = g.cols) ∧
        key = g.upward row col := by
  have heven := r.rows_even
  -- every column lies on one side of the middle
  have hside : ∀ col, ∃ side : Side, side = .left ↔ col < g.cols / 2 := by
    intro col
    by_cases hlt : col < g.cols / 2
    · exact ⟨.left, by simpa using hlt⟩
    · exact ⟨.right, by simpa using hlt⟩
  constructor
  · intro h
    obtain ⟨c, hc, hkey⟩ := h
    obtain ⟨rowPair, side, hrow, hrole, -⟩ := r.half_cases hc
    rcases (r.mem_half_keys hc hrole).mp hkey with
      ⟨row, col, hpair, hcol, -, hmiddle, rfl⟩ | ⟨col, hcol, -, hend, rfl⟩
    · exact .inl ⟨row, col, by omega, hcol, hmiddle, rfl⟩
    · exact .inr ⟨2 * rowPair, col, by omega, by omega, hcol, hend, rfl⟩
  · intro h
    rcases h with ⟨row, col, hrow, hcol, hmiddle, rfl⟩ | ⟨row, col, hrow, hlow, hcol, hend, rfl⟩
    · obtain ⟨side, hs⟩ := hside col
      obtain ⟨c, hc, hrole⟩ := r.exists_half (show row / 2 < g.rows / 2 by omega) side
      exact ⟨c, hc, (r.mem_half_keys hc hrole).mpr
        (.inl ⟨row, col, rfl, hcol, hs, hmiddle, rfl⟩)⟩
    · obtain ⟨side, hs⟩ := hside col
      obtain ⟨c, hc, hrole⟩ := r.exists_half (show row / 2 < g.rows / 2 by omega) side
      have hpair : 2 * (row / 2) = row := by omega
      exact ⟨c, hc, (r.mem_half_keys hc hrole).mpr (.inr ⟨col, hcol, hs, hend, by rw [hpair]⟩)⟩

/-- Every router of the grid lies on a half-ring. -/
theorem exists_half_of_lt (r : HierarchicalRings g halves central) {x : Nat}
    (hx : x < g.rows * g.cols) : ∃ c ∈ halves, x ∈ c.routers := by
  have heven := r.rows_even
  obtain ⟨row, col, hrow, hcol, rfl⟩ := Grid.exists_cell hx
  have hpair : row / 2 < g.rows / 2 := by omega
  by_cases hleft : col < g.cols / 2
  · obtain ⟨c, hc, hrole⟩ := r.exists_half hpair .left
    exact ⟨c, hc, (r.mem_half_routers hc hrole).mpr ⟨row, col, rfl, hcol, by simp [hleft], rfl⟩⟩
  · obtain ⟨c, hc, hrole⟩ := r.exists_half hpair .right
    exact ⟨c, hc, (r.mem_half_routers hc hrole).mpr ⟨row, col, rfl, hcol, by simp [hleft], rfl⟩⟩

/-- A router lies on one half-ring only. -/
theorem half_unique (r : HierarchicalRings g halves central) {c' : Cycle} (hc : c ∈ halves)
    (hc' : c' ∈ halves) {x : Nat} (hx : x ∈ c.routers) (hx' : x ∈ c'.routers) : c = c' := by
  -- the cell of the router tells the row pair and the side, and so the role
  apply List.inj_on_of_nodup_map r.nodup_half_roles hc hc'
  obtain ⟨rowPair, side, -, hrole, -⟩ := r.half_cases hc
  obtain ⟨rowPair', side', -, hrole', -⟩ := r.half_cases hc'
  obtain ⟨row, col, hrow, hcol, hside, rfl⟩ := (r.mem_half_routers hc hrole).mp hx
  obtain ⟨row', col', hrow', hcol', hside', hsame⟩ := (r.mem_half_routers hc' hrole').mp hx'
  obtain ⟨rfl, rfl⟩ := (Grid.cell_inj hcol hcol').mp hsame
  have hsides : side = .left ↔ side' = .left := hside.trans hside'.symm
  have heq : side = side' := by
    cases side <;> cases side' <;> simp_all
  rw [hrole, hrole', ← hrow, ← hrow', heq]

/-! ## The central ring -/

theorem central_role (r : HierarchicalRings g halves central) : central.role = .central :=
  (Wiring.centralRing_cases r.central_ok).1

/-- The central ring is on the escape channel. -/
theorem central_on_channel (r : HierarchicalRings g halves central) :
    central.role.isEscapeChannel = true := by
  rw [r.central_role]
  rfl

theorem central_routers (r : HierarchicalRings g halves central) :
    central.routers = Cycle.loop (spineCell g (g.cols / 2 - 1)) (spineCell g (g.cols / 2))
      (g.rows - 3 + 1) := by
  have hfour := r.four_le_rows
  have hrows : g.rows - 2 = g.rows - 3 + 1 := by omega
  rw [(Wiring.centralRing_cases r.central_ok).2, hrows]

/-- The central ring visits both middle columns of every row but the outermost. -/
theorem mem_central_routers (r : HierarchicalRings g halves central) {x : Nat} :
    x ∈ central.routers ↔ ∃ row col, 1 ≤ row ∧ row + 1 < g.rows ∧
      (col + 1 = g.cols / 2 ∨ col = g.cols / 2) ∧ x = g.cell row col := by
  have hrows := r.four_le_rows
  have hcols := r.four_le_cols
  rw [r.central_routers, Cycle.mem_loop]
  constructor
  · intro h
    obtain ⟨i, hi, rfl | rfl⟩ := h
    · exact ⟨i + 1, g.cols / 2 - 1, by omega, by omega, .inl (by omega), rfl⟩
    · exact ⟨i + 1, g.cols / 2, by omega, by omega, .inr rfl, rfl⟩
  · intro h
    obtain ⟨row, col, hlow, hhigh, hcol, rfl⟩ := h
    have hrow : row - 1 + 1 = row := by omega
    refine ⟨row - 1, by omega, ?_⟩
    simp only [spineCell, hrow]
    rcases hcol with hcol | rfl
    · have hprev : g.cols / 2 - 1 = col := by omega
      exact .inl (by rw [hprev])
    · exact .inr rfl

/-- A half-ring shares with the central ring the routers of its rows, but for the
    outermost rows, in its own middle column. -/
theorem mem_shared_iff (r : HierarchicalRings g halves central) (hc : c ∈ halves)
    {rowPair : Nat} {side : Side} (hrole : c.role = .halfRing rowPair side) {x : Nat} :
    (x ∈ c.routers ∧ x ∈ central.routers) ↔
      ∃ row, row / 2 = rowPair ∧ 1 ≤ row ∧ row + 1 < g.rows ∧
        x = g.cell row (middleColumn g side) := by
  have hcols := r.four_le_cols
  have hmiddle : middleColumn g side < g.cols ∧
      (side = .left ↔ middleColumn g side < g.cols / 2) ∧
      (middleColumn g side + 1 = g.cols / 2 ∨ middleColumn g side = g.cols / 2) := by
    cases side with
    | left =>
      show g.cols / 2 - 1 < g.cols ∧ (Side.left = .left ↔ g.cols / 2 - 1 < g.cols / 2) ∧
        (g.cols / 2 - 1 + 1 = g.cols / 2 ∨ g.cols / 2 - 1 = g.cols / 2)
      exact ⟨by omega, iff_of_true rfl (by omega), .inl (by omega)⟩
    | right =>
      show g.cols / 2 < g.cols ∧ (Side.right = .left ↔ g.cols / 2 < g.cols / 2) ∧
        (g.cols / 2 + 1 = g.cols / 2 ∨ g.cols / 2 = g.cols / 2)
      exact ⟨by omega, by simp, .inr rfl⟩
  obtain ⟨hlt, hside, hspine⟩ := hmiddle
  rw [r.mem_half_routers hc hrole, r.mem_central_routers]
  constructor
  · intro h
    obtain ⟨⟨row, col, hrow, hcol, hcolSide, rfl⟩, row', col', hlow, hhigh, hcol', hsame⟩ := h
    obtain ⟨rfl, rfl⟩ := (Grid.cell_inj hcol (show col' < g.cols by omega)).mp hsame
    have hcolumn : col = middleColumn g side := by
      have hsame := hcolSide.symm.trans hside
      omega
    exact ⟨row, hrow, hlow, hhigh, by rw [hcolumn]⟩
  · intro h
    obtain ⟨row, hrow, hlow, hhigh, rfl⟩ := h
    exact ⟨⟨row, _, hrow, hlt, hside, rfl⟩, row, _, hlow, hhigh, hspine, rfl⟩

/-- Every half-ring shares a router with the central ring. -/
theorem exists_shared_router (r : HierarchicalRings g halves central) (hc : c ∈ halves) :
    ∃ x ∈ c.routers, x ∈ central.routers := by
  have hrows := r.four_le_rows
  have heven := r.rows_even
  obtain ⟨rowPair, side, hpair, hrole, -⟩ := r.half_cases hc
  -- of the first and of the last row pair only one row is on the central ring
  obtain ⟨row, hrow, hlow, hhigh⟩ : ∃ row, row / 2 = rowPair ∧ 1 ≤ row ∧ row + 1 < g.rows := by
    by_cases hfirst : rowPair = 0
    · exact ⟨1, by omega, by omega, by omega⟩
    · exact ⟨2 * rowPair, by omega, by omega, by omega⟩
  exact ⟨_, (r.mem_shared_iff hc hrole).mpr ⟨row, hrow, hlow, hhigh, rfl⟩⟩

theorem central_size (r : HierarchicalRings g halves central) :
    central.size = 2 * (g.rows - 2) := by
  have hfour := r.four_le_rows
  rw [Cycle.size, r.central_routers, Cycle.length_loop]
  omega

theorem edgeKey_spineCell_up (r : HierarchicalRings g halves central) (col i : Nat) :
    edgeKey (spineCell g col i) (spineCell g col (i + 1)) = g.upward (i + 1) col :=
  Grid.edgeKey_upward (by have := r.four_le_cols; omega) (i + 1) col

theorem edgeKey_spineCell_across (r : HierarchicalRings g halves central) (i : Nat) :
    edgeKey (spineCell g (g.cols / 2 - 1) i) (spineCell g (g.cols / 2) i) =
      g.across (i + 1) (g.cols / 2 - 1) := by
  have hfour := r.four_le_cols
  have hmid : g.cols / 2 = g.cols / 2 - 1 + 1 := by omega
  have hkey := g.edgeKey_across (i + 1) (g.cols / 2 - 1)
  rw [← hmid] at hkey
  exact hkey

/-- The edges of the central ring, as it runs over them. -/
theorem central_keys (r : HierarchicalRings g halves central) :
    central.keys =
      (List.range (g.rows - 3)).map (fun i => g.upward (i + 1) (g.cols / 2 - 1)) ++
        [g.across (g.rows - 3 + 1) (g.cols / 2 - 1)] ++
        (List.range (g.rows - 3)).reverse.map (fun i => g.upward (i + 1) (g.cols / 2)) ++
        [g.across 1 (g.cols / 2 - 1)] := by
  rw [Cycle.keys_of_loop r.central_routers]
  simp only [r.edgeKey_spineCell_up, r.edgeKey_spineCell_across]

theorem mem_central_keys (r : HierarchicalRings g halves central) :
    key ∈ central.keys ↔
      (∃ row, (row = 1 ∨ row = g.rows - 2) ∧ key = g.across row (g.cols / 2 - 1)) ∨
      ∃ row col, 1 ≤ row ∧ row ≤ g.rows - 3 ∧ (col + 1 = g.cols / 2 ∨ col = g.cols / 2) ∧
        key = g.upward row col := by
  have hrows := r.four_le_rows
  have hcols := r.four_le_cols
  rw [Cycle.mem_keys_of_loop r.central_routers]
  simp only [r.edgeKey_spineCell_up, r.edgeKey_spineCell_across]
  constructor
  · intro h
    rcases h with ⟨i, hi, rfl | rfl⟩ | rfl | rfl
    · exact .inr ⟨i + 1, _, by omega, by omega, .inl (by omega), rfl⟩
    · exact .inr ⟨i + 1, _, by omega, by omega, .inr rfl, rfl⟩
    · exact .inl ⟨_, .inr (by omega), rfl⟩
    · exact .inl ⟨_, .inl rfl, rfl⟩
  · intro h
    rcases h with ⟨row, rfl | rfl, rfl⟩ | ⟨row, col, hlow, hhigh, hcol, rfl⟩
    · exact .inr (.inr rfl)
    · have hlast : g.rows - 2 = g.rows - 3 + 1 := by omega
      exact .inr (.inl (by rw [hlast]))
    · refine .inl ⟨row - 1, by omega, ?_⟩
      have hrow : row - 1 + 1 = row := by omega
      rw [hrow]
      rcases hcol with hcol | rfl
      · have hprev : g.cols / 2 - 1 = col := by omega
        exact .inl (by rw [hprev])
      · exact .inr rfl

end HierarchicalRings

end Interconnect
