import Interconnect.Wiring.Lattice
import Mathlib.Algebra.BigOperators.Ring.List
import Mathlib.Algebra.Ring.Nat
import Mathlib.Data.List.Nodup
import Mathlib.Data.Nat.Choose.Basic

/-! # Places along a line

    A router that is joined to all others of its line names them going around: first
    the places after its own, up to the end of the line, and then those before it
    (`placesAround_eq`). Only the places after its own make edges that no other router
    of the line has named before, and of these there are `n.choose 2` on a line of `n`
    (`sum_length_placesAfter`).
-/

namespace Interconnect.Wiring

variable {n i j : Nat}

/-! ## Places after one -/

/-- The places after place `i` of `n`, in ascending order. -/
def placesAfter (n i : Nat) : List Nat :=
  (List.range n).drop (i + 1)

theorem mem_placesAfter : j ∈ placesAfter n i ↔ i < j ∧ j < n := by
  simp only [placesAfter, List.range_eq_range', List.drop_range', List.mem_range']
  constructor
  · intro h
    obtain ⟨k, hk, rfl⟩ := h
    omega
  · intro h
    exact ⟨j - (i + 1), by omega, by omega⟩

theorem nodup_placesAfter : (placesAfter n i).Nodup :=
  List.nodup_range.sublist (List.drop_sublist _ _)

@[simp] theorem length_placesAfter : (placesAfter n i).length = n - (i + 1) := by
  simp [placesAfter]

/-- Every two places of a line are counted at the first of them. -/
theorem sum_length_placesAfter (n : Nat) :
    ((List.range n).map fun i => (placesAfter n i).length).sum = n.choose 2 := by
  simp only [length_placesAfter]
  induction n with
  | zero => rfl
  | succ n ih =>
    -- the first place has all others after it, and those are a line of `n`
    rw [List.range_succ_eq_map, List.map_cons, List.map_map, List.sum_cons, Nat.choose_succ_succ,
      Nat.choose_one_right, ← ih]
    congr 2
    apply List.map_congr_left
    intro i _
    show n + 1 - (i + 1 + 1) = n - (i + 1)
    omega

/-- All places of a line but the last one have a next one. -/
theorem sum_range_next (n : Nat) :
    ((List.range n).map fun i => if i + 1 < n then 1 else 0).sum = n - 1 := by
  cases n with
  | zero => rfl
  | succ n =>
    have hbefore : ((List.range n).map fun i => if i + 1 < n + 1 then 1 else 0) =
        (List.range n).map fun _ => 1 := by
      apply List.map_congr_left
      intro i hi
      simpa using hi
    rw [List.range_succ, List.map_append, List.sum_append, hbefore, List.map_const',
      List.sum_replicate_nat]
    simp

theorem filter_placesAfter (n i : Nat) :
    ((placesAfter n i).filter fun j => i < j) = placesAfter n i := by
  rw [List.filter_eq_self]
  intro j hj
  simpa using (mem_placesAfter.mp hj).1

/-- Among all places in ascending order, those after one come last. -/
theorem filter_range_lt (n i : Nat) :
    ((List.range n).filter fun j => i < j) = placesAfter n i := by
  have hbefore : (((List.range n).take (i + 1)).filter fun j => i < j) = [] := by
    rw [List.filter_eq_nil_iff]
    intro j hj
    rw [List.take_range, List.mem_range] at hj
    simp
    omega
  calc ((List.range n).filter fun j => i < j)
      = ((List.range n).take (i + 1) ++ placesAfter n i).filter fun j => i < j := by
        rw [placesAfter, List.take_append_drop]
    _ = placesAfter n i := by rw [List.filter_append, hbefore, filter_placesAfter, List.nil_append]

/-! ## Places around one -/

/-- The other places of `n`, going around from place `i`. -/
def placesAround (n i : Nat) : List Nat :=
  (steps n).map fun step => (i + step) % n

@[simp] theorem length_placesAround : (placesAround n i).length = n - 1 := by
  simp [placesAround, steps]

theorem steps_succ (n : Nat) : steps (n + 1) = (List.range n).map (· + 1) := by
  rw [steps, List.range_succ_eq_map, List.drop_one, List.tail_cons]

/-- Going around, the places before one come after the end of the line. -/
theorem placesAround_eq (hi : i < n) : placesAround n i = placesAfter n i ++ List.range i := by
  obtain ⟨k, rfl⟩ := Nat.exists_eq_add_of_lt hi
  have hafter : placesAfter (i + k + 1) i = (List.range k).map fun j => i + (j + 1) := by
    rw [placesAfter, List.range_eq_range', List.drop_range', List.range'_eq_map_range,
      Nat.add_right_comm, Nat.add_sub_cancel_left]
    apply List.map_congr_left
    intro j _
    omega
  -- the first `k` steps lead up to the end of the line
  rw [placesAround, hafter, show i + k + 1 = k + i + 1 by omega, steps_succ, List.range_add,
    List.map_append, List.map_append, List.map_map, List.map_map, List.map_map]
  congr 1
  · apply List.map_congr_left
    intro j hj
    have hlt : j < k := List.mem_range.mp hj
    show (i + (j + 1)) % (k + i + 1) = i + (j + 1)
    exact Nat.mod_eq_of_lt (by omega)
  · -- beyond it, the line starts again
    conv_rhs => rw [← List.map_id (List.range i)]
    apply List.map_congr_left
    intro j hj
    have hlt : j < i := List.mem_range.mp hj
    show (i + (k + j + 1)) % (k + i + 1) = j
    rw [show i + (k + j + 1) = j + (k + i + 1) by omega, Nat.add_mod_right]
    exact Nat.mod_eq_of_lt (by omega)

theorem mem_placesAround (hi : i < n) : j ∈ placesAround n i ↔ j < n ∧ j ≠ i := by
  rw [placesAround_eq hi, List.mem_append, mem_placesAfter, List.mem_range]
  omega

theorem nodup_placesAround (hi : i < n) : (placesAround n i).Nodup := by
  rw [placesAround_eq hi]
  refine nodup_placesAfter.append List.nodup_range ?_
  intro j hafter hbefore
  exact Nat.lt_asymm (mem_placesAfter.mp hafter).1 (List.mem_range.mp hbefore)

/-- Going around, the places after one keep their order. -/
theorem filter_placesAround (hi : i < n) :
    ((placesAround n i).filter fun j => i < j) = placesAfter n i := by
  have hbefore : ((List.range i).filter fun j => i < j) = [] := by
    rw [List.filter_eq_nil_iff]
    intro j hj
    simpa using Nat.le_of_lt (List.mem_range.mp hj)
  rw [placesAround_eq hi, List.filter_append, filter_placesAfter, hbefore, List.append_nil]

example : placesAround 5 2 = [3, 4, 0, 1] := by decide

end Interconnect.Wiring
