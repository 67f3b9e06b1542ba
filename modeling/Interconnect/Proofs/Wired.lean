import Interconnect.Proofs.Sizing
import Interconnect.Proofs.Wiring

/-! # Every accepted grid can be wired

    On a grid whose ranks are words, no family fails to propose its edges, and no
    router is proposed to itself. A lattice walks the cells of the grid; a ring family
    lays its cycles, which needs the extent that its grid was accepted with: every
    cycle is long enough and visits distinct routers. `Configuration.exists_wiring`
    puts the families together.
-/

namespace Interconnect

open Escape (Cycle Role Side)

/-! ## Cycles -/

theorem Escape.Cycle.exists_ofRouters {routers : List Nat} (role : Role)
    (hlength : 3 ≤ routers.length) (hnodup : routers.Nodup) :
    ∃ c, Cycle.ofRouters role routers = .ok c := by
  unfold Cycle.ofRouters
  rw [dif_neg (by omega)]
  have hnone : Escape.firstRepeat? ∅ routers = none :=
    Escape.firstRepeat?_eq_none_iff.mpr ⟨hnodup, fun r _ => Std.HashSet.not_mem_empty⟩
  split
  · next r hrepeat => exact absurd (hnone.symm.trans hrepeat) (by simp)
  · exact ⟨_, rfl⟩

/-- A loop repeats no router if its two lines do not. -/
theorem Escape.Cycle.nodup_loop {out back : Nat → Nat} {n : Nat}
    (hout : ∀ i < n, ∀ j < n, out i = out j → i = j)
    (hback : ∀ i < n, ∀ j < n, back i = back j → i = j)
    (hapart : ∀ i < n, ∀ j < n, out i ≠ back j) : (Cycle.loop out back n).Nodup := by
  have hline : ∀ line : Nat → Nat, (∀ i < n, ∀ j < n, line i = line j → i = j) →
      ((List.range n).map line).Nodup := by
    intro line hline
    apply List.Nodup.map_on _ List.nodup_range
    intro i hi j hj
    exact hline i (List.mem_range.mp hi) j (List.mem_range.mp hj)
  rw [Cycle.loop, List.map_reverse]
  refine List.Nodup.append (hline out hout) (List.nodup_reverse.mpr (hline back hback)) ?_
  intro x hx hx'
  obtain ⟨i, hi, rfl⟩ := List.mem_map.mp hx
  obtain ⟨j, hj, hsame⟩ := List.mem_map.mp (List.mem_reverse.mp hx')
  exact hapart i (List.mem_range.mp hi) j (List.mem_range.mp hj) hsame.symm

/-! ## The rings of a grid -/

namespace Grid

variable {g : Grid}

/-- A cell of a grid whose ranks are words has a rank. -/
theorem rank_eq_ok (hsize : g.rows * g.cols < Word.bound) {row col : Nat} (hrow : row < g.rows)
    (hcol : col < g.cols) : g.rank row col = .ok (g.cell row col) := by
  have hlt := cell_lt hrow hcol
  have hstart : row * g.cols ≤ g.cell row col := Nat.le_add_left _ _
  exact rank_ok_iff.mpr ⟨by omega, by omega, rfl⟩

theorem rows_lt_bound (hsize : g.rows * g.cols < Word.bound) (hcols : 0 < g.cols) :
    g.rows < Word.bound :=
  Nat.lt_of_le_of_lt (Nat.le_mul_of_pos_right _ hcols) hsize

theorem cols_lt_bound (hsize : g.rows * g.cols < Word.bound) (hrows : 0 < g.rows) :
    g.cols < Word.bound :=
  Nat.lt_of_le_of_lt (Nat.le_mul_of_pos_left _ hrows) hsize

end Grid

namespace Wiring

variable {g : Grid}

theorem exists_halfRing (hsize : g.rows * g.cols < Word.bound) (hcols : 4 ≤ g.cols)
    {rowPair : Nat} (hrow : rowPair < g.rows / 2) (side : Side) :
    ∃ c, halfRing g rowPair side = .ok c := by
  have hbound := Grid.rows_lt_bound hsize (by omega)
  have hwidth : 2 ≤ halfWidth g side := by
    cases side with
    | left => simp only [halfWidth]; omega
    | right => simp only [halfWidth]; omega
  have hcolumns : ∀ col ∈ halfColumns g side, col < g.cols := by
    intro col hcol
    rw [halfColumns_eq] at hcol
    obtain ⟨i, hi, rfl⟩ := List.mem_map.mp hcol
    exact firstColumn_add_lt (List.mem_range.mp hi)
  have hranks : ∀ row < g.rows, ∀ col ∈ halfColumns g side,
      ∃ k, (liftM (g.rank row col) : Except SynthesisError Nat) = .ok k := by
    intro row hlt col hcol
    exact ⟨_, liftM_eq_ok.mpr (Grid.rank_eq_ok hsize hlt (hcolumns col hcol))⟩
  obtain ⟨out, hout⟩ := exists_mapM (hranks (2 * rowPair) (by omega))
  obtain ⟨back, hback⟩ := exists_mapM fun col hcol =>
    hranks (2 * rowPair + 1) (by omega) col (List.mem_reverse.mp hcol)
  have hrouters := halfRing_routers hout hback
  -- the two rows of the pair have no cell in common
  have hnodup : (out ++ back).Nodup := by
    rw [hrouters]
    apply Cycle.nodup_loop
    · intro i hi j hj hsame
      have := (Grid.cell_inj (firstColumn_add_lt hi) (firstColumn_add_lt hj)).mp hsame
      omega
    · intro i hi j hj hsame
      have := (Grid.cell_inj (firstColumn_add_lt hi) (firstColumn_add_lt hj)).mp hsame
      omega
    · intro i hi j hj hsame
      have := (Grid.cell_inj (firstColumn_add_lt hi) (firstColumn_add_lt hj)).mp hsame
      omega
  have hlength : 3 ≤ (out ++ back).length := by
    rw [hrouters, Cycle.length_loop]
    omega
  obtain ⟨c, hc⟩ := Cycle.exists_ofRouters (.halfRing rowPair side) hlength hnodup
  refine ⟨c, ?_⟩
  simp only [halfRing, bind_eq_ok, liftM_eq_ok]
  exact ⟨_, Word.mul_eq_ok (by omega), _, Word.add_eq_ok (by omega), out, hout, back, hback, hc⟩

theorem exists_halfRings (hsize : g.rows * g.cols < Word.bound) (hcols : 4 ≤ g.cols) :
    ∃ halves, halfRings g = .ok halves := by
  have hside : ∀ side, ∃ rings, (List.range (g.rows / 2)).mapM (halfRing g · side) = .ok rings := by
    intro side
    apply exists_mapM
    intro rowPair hrow
    exact exists_halfRing hsize hcols (List.mem_range.mp hrow) side
  obtain ⟨lefts, hlefts⟩ := hside .left
  obtain ⟨rights, hrights⟩ := hside .right
  refine ⟨lefts ++ rights, ?_⟩
  simp only [halfRings, bind_eq_ok, pure_eq_ok]
  exact ⟨lefts, hlefts, rights, hrights, rfl⟩

theorem exists_centralRing (hsize : g.rows * g.cols < Word.bound) (hrows : 4 ≤ g.rows)
    (hcols : 4 ≤ g.cols) : ∃ c, centralRing g = .ok c := by
  obtain ⟨rows, hinterior⟩ : ∃ rows, interiorRows g = .ok rows := by
    unfold interiorRows
    rw [Word.sub_eq_ok (by omega)]
    exact ⟨_, rfl⟩
  have hlt : ∀ row ∈ rows, row < g.rows := by
    intro row hrow
    rw [interiorRows_cases hinterior] at hrow
    obtain ⟨i, hi, rfl⟩ := List.mem_map.mp hrow
    have := List.mem_range.mp hi
    omega
  obtain ⟨up, hup⟩ : ∃ up, rows.mapM (fun row => do g.rank row (← Word.sub (g.cols / 2) 1)) =
      (.ok up : Except SynthesisError (List Nat)) := by
    apply exists_mapM
    intro row hrow
    refine ⟨g.cell row (g.cols / 2 - 1), ?_⟩
    simp only [bind_eq_ok, liftM_eq_ok]
    exact ⟨_, Word.sub_eq_ok (by omega), Grid.rank_eq_ok hsize (hlt row hrow) (by omega)⟩
  obtain ⟨down, hdown⟩ : ∃ down, rows.reverse.mapM (fun row => liftM (g.rank row (g.cols / 2))) =
      (.ok down : Except SynthesisError (List Nat)) := by
    apply exists_mapM
    intro row hrow
    exact ⟨_, liftM_eq_ok.mpr
      (Grid.rank_eq_ok hsize (hlt row (List.mem_reverse.mp hrow)) (by omega))⟩
  have hrouters := centralRing_routers hinterior hup hdown
  -- every interior row is passed once in each of the two columns
  have hnodup : (up ++ down).Nodup := by
    rw [hrouters]
    apply Cycle.nodup_loop
    · intro i hi j hj hsame
      have := (Grid.cell_inj (by omega) (by omega)).mp hsame
      omega
    · intro i hi j hj hsame
      have := (Grid.cell_inj (by omega) (by omega)).mp hsame
      omega
    · intro i hi j hj hsame
      have := (Grid.cell_inj (by omega) (by omega)).mp hsame
      omega
  have hlength : 3 ≤ (up ++ down).length := by
    rw [hrouters, Cycle.length_loop]
    omega
  obtain ⟨c, hc⟩ := Cycle.exists_ofRouters .central hlength hnodup
  refine ⟨c, ?_⟩
  simp only [centralRing, bind_eq_ok, liftM_eq_ok]
  exact ⟨rows, hinterior, up, hup, down, hdown, hc⟩

theorem ringProposals_distinct {ring : Cycle} {p : Proposal} (hp : p ∈ ringProposals ring) :
    p.source ≠ p.target := by
  obtain ⟨⟨a, b⟩, hedge, rfl⟩ := List.mem_map.mp hp
  exact Cycle.ne_of_mem_edges hedge

/-- The ends of a proposed edge are different routers of a ring. -/
theorem hierarchicalProposals_distinct {halves : List Cycle} {central : Cycle} {p : Proposal}
    (hp : p ∈ hierarchicalProposals halves central) : p.source ≠ p.target := by
  obtain ⟨c, -, a, b, hedge, hends⟩ := exists_of_mem_hierarchicalProposals hp
  have hne := Cycle.ne_of_mem_edges hedge
  rcases edgeKey_cases a b with hkey | hkey
  · rw [hkey, Prod.mk.injEq] at hends
    rw [← hends.1, ← hends.2]
    exact hne
  · rw [hkey, Prod.mk.injEq] at hends
    rw [← hends.1, ← hends.2]
    exact hne.symm

end Wiring

namespace Wiring

variable {g : Grid}

/-! ## Lattices -/

/-- Cells that can each propose their edges can do so one after the other. -/
theorem exists_overCells {proposals : Nat → Nat → Checked (List Proposal)}
    (h : ∀ row < g.rows, ∀ col < g.cols, ∃ here, proposals row col = .ok here) :
    ∃ ps, overCells g proposals = .ok ps := by
  obtain ⟨lists, hlists⟩ : ∃ lists, g.cells.mapM (fun cell => proposals cell.1 cell.2) =
      .ok lists := by
    apply exists_mapM
    rintro ⟨row, col⟩ hcell
    obtain ⟨hrow, hcol⟩ := Grid.mem_cells.mp hcell
    exact h row hrow col hcol
  refine ⟨lists.flatten, ?_⟩
  simp only [overCells, bind_eq_ok, pure_eq_ok]
  exact ⟨lists, hlists, rfl⟩

theorem exists_mesh (hsize : g.rows * g.cols < Word.bound) : ∃ ps, mesh g = .ok ps := by
  apply exists_overCells
  intro row hrow col hcol
  have hrows := Grid.rows_lt_bound hsize (by omega)
  have hcols := Grid.cols_lt_bound hsize (by omega)
  have hhere := Grid.rank_eq_ok hsize hrow hcol
  have hright := Word.add_eq_ok (show col + 1 < Word.bound by omega)
  have hup := Word.add_eq_ok (show row + 1 < Word.bound by omega)
  -- a neighbour is asked for its rank only where the grid goes on
  by_cases hnextCol : col + 1 < g.cols
  · by_cases hnextRow : row + 1 < g.rows
    · simp [hhere, hright, hup, hnextCol, hnextRow, Grid.rank_eq_ok hsize hrow hnextCol,
        Grid.rank_eq_ok hsize hnextRow hcol, ok_bind]
    · simp [hhere, hright, hup, hnextCol, hnextRow, Grid.rank_eq_ok hsize hrow hnextCol, ok_bind]
  · by_cases hnextRow : row + 1 < g.rows
    · simp [hhere, hright, hup, hnextCol, hnextRow, Grid.rank_eq_ok hsize hnextRow hcol, ok_bind]
    · simp [hhere, hright, hup, hnextCol, hnextRow, ok_bind]

theorem around_eq_ok {n start step : Nat} (hn : 0 < n) (hsum : start + step < Word.bound) :
    around n start step = .ok ((start + step) % n) := by
  simp only [around, bind_eq_ok]
  exact ⟨_, Word.add_eq_ok hsum, Word.rem_eq_ok (by omega)⟩

theorem mem_steps {n x : Nat} : x ∈ steps n ↔ 1 ≤ x ∧ x < n :=
  mem_placesAfter (i := 0)

theorem exists_flattenedButterfly (hfits : g.rows * g.cols < Word.block) :
    ∃ ps, flattenedButterfly g = .ok ps := by
  have hsize : g.rows * g.cols < Word.bound := Nat.lt_of_lt_of_le hfits (by decide)
  apply exists_overCells
  intro row hrow col hcol
  -- a sum of two places is a word
  have hrows : g.rows < Word.block := Nat.lt_of_le_of_lt (Nat.le_mul_of_pos_right _ (by omega)) hfits
  have hcols : g.cols < Word.block := Nat.lt_of_le_of_lt (Nat.le_mul_of_pos_left _ (by omega)) hfits
  have hdouble : 2 * Word.block ≤ Word.bound := by decide
  obtain ⟨alongRow, hacross⟩ : ∃ alongRow, (steps g.cols).mapM (fun x => do
      return (⟨g.cell row col, ← g.rank row (← around g.cols col x), .row⟩ : Proposal)) =
      (.ok alongRow : Checked (List Proposal)) := by
    apply exists_mapM
    intro x hx
    obtain ⟨-, hlt⟩ := mem_steps.mp hx
    simp only [bind_eq_ok, pure_eq_ok]
    exact ⟨_, _, around_eq_ok (by omega) (by omega), _,
      Grid.rank_eq_ok hsize hrow (Nat.mod_lt _ (by omega)), rfl⟩
  obtain ⟨alongColumn, hupward⟩ : ∃ alongColumn, (steps g.rows).mapM (fun y => do
      return (⟨g.cell row col, ← g.rank (← around g.rows row y) col, .column⟩ : Proposal)) =
      (.ok alongColumn : Checked (List Proposal)) := by
    apply exists_mapM
    intro y hy
    obtain ⟨-, hlt⟩ := mem_steps.mp hy
    simp only [bind_eq_ok, pure_eq_ok]
    exact ⟨_, _, around_eq_ok (by omega) (by omega), _,
      Grid.rank_eq_ok hsize (Nat.mod_lt _ (by omega)) hcol, rfl⟩
  refine ⟨alongRow ++ alongColumn, ?_⟩
  simp only [bind_eq_ok, pure_eq_ok]
  exact ⟨_, Grid.rank_eq_ok hsize hrow hcol, alongRow, hacross, alongColumn, hupward, rfl⟩

/-! ## Distinct ends -/

theorem MeshProposal.distinct {p : Proposal} (hp : MeshProposal g p) : p.source ≠ p.target := by
  intro hsame
  cases hp with
  | along hrow hcol =>
    have := (Grid.cell_inj (by omega) hcol).mp hsame
    omega
  | upward hrow hcol =>
    have := (Grid.cell_inj hcol hcol).mp hsame
    omega

theorem butterflyCell_distinct {row col : Nat} (hrow : row < g.rows) (hcol : col < g.cols) :
    ∀ p ∈ butterflyCell g row col, p.source ≠ p.target := by
  intro p hp hsame
  rcases (mem_butterflyCell hrow hcol).mp hp with ⟨x, hx, hne, rfl⟩ | ⟨y, -, hne, rfl⟩
  · exact hne ((Grid.cell_inj hcol hx).mp hsame).2.symm
  · exact hne ((Grid.cell_inj hcol hcol).mp hsame).1.symm

theorem complete_distinct {n : Nat} : ∀ p ∈ complete n, p.source ≠ p.target := by
  intro p hp
  obtain ⟨source, -, target, -, hne, rfl⟩ := mem_complete.mp hp
  exact hne.symm

end Wiring

/-! ## All families -/

variable {c : Configuration} {g : Grid}

/-- A ring's grid is wired by one cycle. -/
theorem exists_wiring_of_ring (hfamily : c.family = .ring) (hgrid : c.grid = .ok g)
    (hsize : g.rows * g.cols < Word.bound) :
    ∃ w, Family.ring.wiring g = .ok w ∧ ∀ p ∈ w.proposals, p.source ≠ p.target := by
  obtain ⟨hrows, hcols⟩ := Configuration.grid_of_ring hfamily hgrid
  have hlength : 3 ≤ (List.range (g.rows * g.cols)).length := by
    rw [List.length_range, hrows]
    omega
  obtain ⟨ring, hring⟩ := Cycle.exists_ofRouters .ring hlength List.nodup_range
  refine ⟨⟨Wiring.ringProposals ring, some [ring]⟩, ?_, fun p hp => Wiring.ringProposals_distinct hp⟩
  simp only [Family.wiring, bind_eq_ok, liftM_eq_ok, pure_eq_ok]
  exact ⟨_, Word.mul_eq_ok hsize, ring, hring, rfl⟩

/-- A hierarchical ring's grid is wired by its half-rings and its central ring. -/
theorem exists_wiring_of_hierarchicalRing (hfamily : c.family = .hierarchicalRing)
    (hgrid : c.grid = .ok g) (hsize : g.rows * g.cols < Word.bound) :
    ∃ w, Family.hierarchicalRing.wiring g = .ok w ∧ ∀ p ∈ w.proposals, p.source ≠ p.target := by
  obtain ⟨-, -, hrows, hcols⟩ := Configuration.grid_of_hierarchicalRing hfamily hgrid
  obtain ⟨halves, hhalves⟩ := Wiring.exists_halfRings hsize hcols
  obtain ⟨central, hcentral⟩ := Wiring.exists_centralRing hsize hrows hcols
  refine ⟨⟨Wiring.hierarchicalProposals halves central, some (halves ++ [central])⟩, ?_,
    fun p hp => Wiring.hierarchicalProposals_distinct hp⟩
  simp only [Family.wiring, bind_eq_ok, pure_eq_ok]
  exact ⟨halves, hhalves, central, hcentral, rfl⟩

/-- A family wires every grid that its configuration asks for. -/
theorem Configuration.exists_wiring (hgrid : c.grid = .ok g)
    (hfits : g.rows * g.cols < Word.block) :
    ∃ w, c.family.wiring g = .ok w ∧ ∀ p ∈ w.proposals, p.source ≠ p.target := by
  have hsize : g.rows * g.cols < Word.bound := Nat.lt_of_lt_of_le hfits (by decide)
  have hwords : g.size = .ok (g.rows * g.cols) := Word.mul_eq_ok hsize
  cases hfamily : c.family with
  | mesh =>
    obtain ⟨ps, hps⟩ := Wiring.exists_mesh hsize
    refine ⟨⟨ps, none⟩, ?_, ?_⟩
    · simp only [Family.wiring, bind_eq_ok, liftM_eq_ok, pure_eq_ok]
      exact ⟨ps, hps, rfl⟩
    · rw [Wiring.mesh_cases hps]
      exact fun p hp => (Wiring.mem_meshCells_iff.mp hp).distinct
  | ring => exact exists_wiring_of_ring hfamily hgrid hsize
  | fullyConnected =>
    refine ⟨⟨Wiring.complete (g.rows * g.cols), none⟩, ?_, Wiring.complete_distinct⟩
    simp only [Family.wiring, bind_eq_ok, liftM_eq_ok, pure_eq_ok]
    exact ⟨_, hwords, rfl⟩
  | flattenedButterfly =>
    obtain ⟨ps, hps⟩ := Wiring.exists_flattenedButterfly hfits
    refine ⟨⟨ps, none⟩, ?_, ?_⟩
    · simp only [Family.wiring, bind_eq_ok, liftM_eq_ok, pure_eq_ok]
      exact ⟨ps, hps, rfl⟩
    · rw [Wiring.flattenedButterfly_cases hps]
      exact Wiring.forall_flatMap_cells fun _ _ => Wiring.butterflyCell_distinct
  | hierarchicalRing => exact exists_wiring_of_hierarchicalRing hfamily hgrid hsize

end Interconnect
