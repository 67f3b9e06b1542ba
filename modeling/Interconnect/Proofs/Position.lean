import Interconnect.Drawing
import Interconnect.Proofs.Grid

/-! # Neighbouring positions

    A port leads from a position to the next one on its side (`Port.Leads`), and
    the opposite port leads back. Two positions that a port leads between face each
    other through it (`Port.Leads.facing?_eq`).

    No two routers of a grid are drawn at one position (`Family.spot_inj`): a rank is
    the only one in its row and column, also where every odd row is folded back. Folded
    over two rows, the routers of a ring are drawn one next to the other all the way
    around (`Family.leads_around`).
-/

namespace Interconnect

namespace Position

/-- Two positions differ by one unit along one axis, and not at all along the other. -/
def Adjacent (p q : Position) : Prop :=
  (p.y = q.y ∧ (p.x + 1 = q.x ∨ q.x + 1 = p.x)) ∨ (p.x = q.x ∧ (p.y + 1 = q.y ∨ q.y + 1 = p.y))

/-- Two positions share a row or a column. -/
def Aligned (p q : Position) : Prop :=
  p.y = q.y ∨ p.x = q.x

variable {p q : Position}

theorem Adjacent.symm (h : p.Adjacent q) : q.Adjacent p := by
  unfold Adjacent at *
  omega

theorem Aligned.symm (h : p.Aligned q) : q.Aligned p :=
  h.imp Eq.symm Eq.symm

end Position

namespace Port

variable {p q r : Position} {port : Port}

/-! ## Ports between positions -/

theorem opposite_opposite (port : Port) : port.opposite.opposite = port := by
  cases port <;> rfl

/-- The other way round, the ports are the same two. -/
theorem facing?_swap (p q : Position) : facing? q p = (facing? p q).map Prod.swap := by
  unfold facing?
  -- within a row the columns decide, and otherwise the rows do within a column
  by_cases hrow : p.y = q.y
  · rcases Nat.lt_trichotomy p.x q.x with hlt | heq | hlt
    · simp [hrow, hlt, Nat.lt_asymm hlt]
    · simp [hrow, heq]
    · simp [hrow, hlt, Nat.lt_asymm hlt]
  · by_cases hcol : p.x = q.x
    · rcases Nat.lt_or_gt_of_ne hrow with hlt | hlt
      · simp [hrow, Ne.symm hrow, hcol, hlt, Nat.lt_asymm hlt]
      · simp [hrow, Ne.symm hrow, hcol, hlt, Nat.lt_asymm hlt]
    · simp [hrow, Ne.symm hrow, hcol, Ne.symm hcol]

/-- Distinct positions in one row or column face each other. -/
theorem exists_facing? (hne : p ≠ q) (hline : p.Aligned q) :
    ∃ ports, facing? p q = some ports := by
  rw [← Option.isSome_iff_exists]
  unfold facing?
  unfold Position.Aligned at hline
  obtain ⟨px, py⟩ := p
  obtain ⟨qx, qy⟩ := q
  rw [ne_eq, Position.mk.injEq] at hne
  dsimp only at hline ⊢
  split_ifs <;> first | rfl | omega

/-- The port leads from one position to the next one on its side. -/
def Leads (port : Port) (p q : Position) : Prop :=
  match port with
  | north => q.x = p.x ∧ q.y = p.y + 1
  | south => q.x = p.x ∧ p.y = q.y + 1
  | east => q.y = p.y ∧ q.x = p.x + 1
  | west => q.y = p.y ∧ p.x = q.x + 1

namespace Leads

theorem facing?_eq (h : port.Leads p q) : facing? p q = some (port, port.opposite) := by
  obtain ⟨px, py⟩ := p
  obtain ⟨qx, qy⟩ := q
  cases port with
  | north =>
    obtain ⟨rfl, rfl⟩ : qx = px ∧ qy = py + 1 := h
    simp [facing?, opposite]
  | south =>
    obtain ⟨rfl, rfl⟩ : qx = px ∧ py = qy + 1 := h
    simp [facing?, opposite]
  | east =>
    obtain ⟨rfl, rfl⟩ : qy = py ∧ qx = px + 1 := h
    simp [facing?, opposite]
  | west =>
    obtain ⟨rfl, rfl⟩ : qy = py ∧ px = qx + 1 := h
    simp [facing?, opposite]

/-- The opposite port leads back. -/
theorem back (h : port.Leads p q) : port.opposite.Leads q p := by
  cases port <;> simp only [Leads, opposite] at h ⊢ <;> omega

/-- A port leads to the position next to one. -/
theorem adjacent (h : port.Leads p q) : p.Adjacent q := by
  unfold Position.Adjacent
  cases port <;> simp only [Leads] at h <;> omega

/-- A port leads to one position only. -/
theorem target_unique (h : port.Leads p q) (h' : port.Leads p r) : q = r := by
  obtain ⟨qx, qy⟩ := q
  obtain ⟨rx, ry⟩ := r
  rw [Position.mk.injEq]
  cases port <;> simp only [Leads] at h h' <;> omega

/-- A port leads to a position from one other only. -/
theorem source_unique (h : port.Leads p r) (h' : port.Leads q r) : p = q :=
  h.back.target_unique h'.back

end Leads

end Port

/-- Between adjacent positions a port leads from either to the other. -/
theorem Position.Adjacent.exists_leads {p q : Position} (h : p.Adjacent q) : ∃ port : Port, port.Leads p q := by
  rcases h with ⟨hrow, hx | hx⟩ | ⟨hcol, hy | hy⟩
  · exact ⟨.east, hrow.symm, hx.symm⟩
  · exact ⟨.west, hrow.symm, hx.symm⟩
  · exact ⟨.north, hcol.symm, hy.symm⟩
  · exact ⟨.south, hcol.symm, hy.symm⟩

/-! ## Positions of cells -/

namespace Family

variable {family : Family} {g : Grid}

/-- Folded or not, every rank has a position of its own. -/
theorem spot_inj (hcols : 0 < g.cols) {a b : Nat} :
    family.spot g a = family.spot g b ↔ a = b := by
  constructor
  · intro h
    have ha := Nat.mod_add_div a g.cols
    have hb := Nat.mod_add_div b g.cols
    have halt := Nat.mod_lt a hcols
    have hblt := Nat.mod_lt b hcols
    -- the row is drawn as it is, and it decides whether the column is folded back
    have hrow : a / g.cols = b / g.cols := by
      have hy : ∀ r, (family.spot g r).y = r / g.cols := by
        intro r
        unfold spot
        split <;> rfl
      rw [← hy, ← hy, h]
    have hcol : a % g.cols = b % g.cols := by
      unfold spot at h
      rw [hrow] at h
      split at h
      · rw [Position.mk.injEq] at h
        omega
      · rw [Position.mk.injEq] at h
        exact h.1
    rw [← ha, ← hb, hrow, hcol]
  · intro h
    rw [h]

/-- All families but the ring draw a cell at its column and row. -/
theorem spot_cell (hfamily : family ≠ .ring) {row col : Nat} (hcol : col < g.cols) :
    family.spot g (g.cell row col) = ⟨col, row⟩ := by
  rw [spot, if_neg (fun h => hfamily h.1), Grid.cell_div hcol, Grid.cell_mod hcol]

theorem adjacent_across (hfamily : family ≠ .ring) {row col : Nat} (hcol : col + 1 < g.cols) :
    (family.spot g (g.cell row col)).Adjacent (family.spot g (g.cell row (col + 1))) := by
  rw [spot_cell hfamily (show col < g.cols by omega), spot_cell hfamily hcol]
  exact .inl ⟨rfl, .inl rfl⟩

theorem adjacent_upward (hfamily : family ≠ .ring) {row col : Nat} (hcol : col < g.cols) :
    (family.spot g (g.cell row col)).Adjacent (family.spot g (g.cell (row + 1) col)) := by
  rw [spot_cell hfamily hcol, spot_cell hfamily hcol]
  exact .inr ⟨rfl, .inl rfl⟩

/-- A ring draws its lower row from the left. -/
theorem spot_ring_lower {i : Nat} (hi : i < g.cols) : ring.spot g i = ⟨i, 0⟩ := by
  rw [spot, Nat.div_eq_of_lt hi, Nat.mod_eq_of_lt hi, if_neg (by decide)]

/-- A ring draws its upper row from the right. -/
theorem spot_ring_upper {i : Nat} (hi : i < g.cols) :
    ring.spot g (g.cols + i) = ⟨g.cols - 1 - i, 1⟩ := by
  have hrow : (g.cols + i) / g.cols = 1 := by
    rw [Nat.add_div_left _ (by omega), Nat.div_eq_of_lt hi]
  have hcol : (g.cols + i) % g.cols = i := by
    rw [Nat.add_mod_left, Nat.mod_eq_of_lt hi]
  rw [spot, hrow, hcol, if_pos (by decide)]

/-- The port by which a ring on two rows of equal length leads on: along the lower row, up
    at its end, back along the upper row, and down again. -/
def ringPort (cols i : Nat) : Port :=
  if i + 1 < cols then .east
  else if i + 1 = cols then .north
  else if i + 1 < 2 * cols then .west
  else .south

/-- On the two rows of a ring, this port leads from every router to the next one, and from
    the last router to the first. -/
theorem leads_around (hcols : 0 < g.cols) {i : Nat} (hi : i < 2 * g.cols) :
    (ringPort g.cols i).Leads (ring.spot g i) (ring.spot g ((i + 1) % (2 * g.cols))) := by
  unfold ringPort
  by_cases hlower : i < g.cols
  · rw [spot_ring_lower hlower, Nat.mod_eq_of_lt (show i + 1 < 2 * g.cols by omega)]
    by_cases hnext : i + 1 < g.cols
    · rw [spot_ring_lower hnext, if_pos hnext]
      exact ⟨rfl, rfl⟩
    · -- at the end of the lower row, up to the router that the upper row starts with
      have hturn : i + 1 = g.cols + 0 := by omega
      rw [if_neg hnext, if_pos (show i + 1 = g.cols from hturn), hturn, spot_ring_upper hcols]
      exact ⟨show g.cols - 1 - 0 = i by omega, rfl⟩
  · obtain ⟨j, rfl⟩ : ∃ j, i = g.cols + j := ⟨i - g.cols, by omega⟩
    rw [spot_ring_upper (show j < g.cols by omega), if_neg (by omega), if_neg (by omega)]
    by_cases hnext : j + 1 < g.cols
    · have hlt : g.cols + j + 1 < 2 * g.cols := by omega
      rw [Nat.mod_eq_of_lt hlt, if_pos hlt, Nat.add_assoc, spot_ring_upper hnext]
      exact ⟨rfl, show g.cols - 1 - j = g.cols - 1 - (j + 1) + 1 by omega⟩
    · -- at the end of the upper row, down to the first router
      have hlast : g.cols + j + 1 = 2 * g.cols := by omega
      rw [hlast, Nat.mod_self, spot_ring_lower hcols, if_neg (Nat.lt_irrefl _)]
      exact ⟨show 0 = g.cols - 1 - j by omega, rfl⟩

/-- The ports of a ring in the order of its routers. -/
theorem map_ringPort {cols : Nat} (hcols : 0 < cols) :
    (List.range (2 * cols)).map (ringPort cols) =
      List.replicate (cols - 1) .east ++ [.north] ++ List.replicate (cols - 1) .west ++
        [.south] := by
  obtain ⟨k, rfl⟩ : ∃ k, cols = k + 1 := ⟨cols - 1, by omega⟩
  -- along a row, all routers but the last one have the same port
  have hrow : ∀ (first : Nat) (port : Port), (∀ i < k, ringPort (k + 1) (first + i) = port) →
      (List.range k).map (fun i => ringPort (k + 1) (first + i)) = List.replicate k port := by
    intro first port hports
    rw [List.eq_replicate_iff]
    refine ⟨by simp, ?_⟩
    intro x hx
    obtain ⟨i, hi, rfl⟩ := List.mem_map.mp hx
    exact hports i (List.mem_range.mp hi)
  have heast := hrow 0 .east fun i hi => if_pos (by omega)
  have hwest := hrow (k + 1) .west fun i hi => by
    rw [ringPort, if_neg (by omega), if_neg (by omega), if_pos (by omega)]
  have hnorth : ringPort (k + 1) k = .north := by
    rw [ringPort, if_neg (by omega), if_pos rfl]
  have hsouth : ringPort (k + 1) (k + 1 + k) = .south := by
    rw [ringPort, if_neg (by omega), if_neg (by omega), if_neg (by omega)]
  simp only [Nat.zero_add] at heast
  rw [Nat.two_mul, List.range_add, List.range_succ]
  simp only [List.map_append, List.map_map, List.map_singleton, Function.comp_def, heast, hwest,
    hnorth, hsouth, Nat.add_sub_cancel, List.append_assoc]

end Family

end Interconnect
