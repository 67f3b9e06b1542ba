import Interconnect.Proofs.Escape.Cycle
import Mathlib.Data.List.Perm.Subperm

/-! # Climbs around a cycle

    A climb runs over the edges of a cycle, either way round, so that their numbers
    rise. Routers are given by their positions here. Edge `i` lies between position
    `i` and the next one, and the last edge between the last position and position 0.

    A climb that has gone on from a position can only go on, since the edge behind it
    has a lower number. So there are four kinds of climbs (`Climb.course`), and two
    facts are read off them:

    * a climb comes back to a position only by a whole lap from position 0
      (`Course.nodup_iff`);
    * climbs lead to the positions ahead, to position 0 and to the position right
      behind, and to no other one (`exists_climb_iff`).
-/

namespace Interconnect.Escape

variable {n least i p p' q : Nat} {ordinals track : List Nat}

/-! ## Steps -/

/-- Edge `i` of a cycle of `n` leads from one position to another, on or back. -/
def Crosses (n i p q : Nat) : Prop :=
  i < n ∧ ((p = i ∧ q = (i + 1) % n) ∨ (p = (i + 1) % n ∧ q = i))

/-- What a step can do: go on, go back, or pass the edge that closes the cycle. -/
theorem Crosses.cases (h : Crosses n i p q) :
    i < n ∧ ((p = i ∧ q = i + 1 ∧ i + 1 < n) ∨ (p = i ∧ q = 0 ∧ i + 1 = n) ∨
      (p = i + 1 ∧ q = i ∧ i + 1 < n) ∨ (p = 0 ∧ q = i ∧ i + 1 = n)) := by
  obtain ⟨hi, h⟩ := h
  rw [Cycle.succ_mod hi] at h
  split at h <;> omega

theorem Crosses.lt (h : Crosses n i p q) : p < n ∧ q < n := by
  have := h.cases
  omega

/-- The edge at a position leads between the positions of its routers. -/
theorem Cycle.exists_crosses {c : Cycle} {i a b : Nat} (h : c.keys[i]? = some (edgeKey a b)) :
    ∃ p q, c.routers[p]? = some a ∧ c.routers[q]? = some b ∧ Crosses c.size i p q := by
  obtain ⟨x, y, hx, hy, hkey⟩ := Cycle.keys_getElem?_eq_some_iff.mp h
  have hi : i < c.size := (List.getElem?_eq_some_iff.mp hx).1
  rcases edgeKey_eq_iff.mp hkey with ⟨rfl, rfl⟩ | ⟨rfl, rfl⟩
  · exact ⟨i, (i + 1) % c.size, hx, hy, hi, .inl ⟨rfl, rfl⟩⟩
  · exact ⟨(i + 1) % c.size, i, hy, hx, hi, .inr ⟨rfl, rfl⟩⟩

theorem Crosses.key {c : Cycle} {i a b : Nat} (h : Crosses c.size i p q)
    (ha : c.routers[p]? = some a) (hb : c.routers[q]? = some b) :
    c.keys[i]? = some (edgeKey a b) := by
  rcases h.2 with ⟨rfl, rfl⟩ | ⟨rfl, rfl⟩
  · exact Cycle.keys_getElem?_eq_some_iff.mpr ⟨a, b, ha, hb, rfl⟩
  · exact Cycle.keys_getElem?_eq_some_iff.mpr ⟨b, a, hb, ha, edgeKey_comm b a⟩

/-! ## Climbs -/

/-- The climbs on a cycle of `n`: from one position to another, over edges with
    rising numbers from `least` on, by way of the positions of a track. -/
inductive Climb (n : Nat) : Nat → Nat → Nat → List Nat → List Nat → Prop where
  | /-- To stay at a position. -/
    stay (least p : Nat) : Climb n least p p [] []
  | /-- To cross an edge, and then only edges with higher numbers. -/
    cross {least i p p' q : Nat} {ordinals track : List Nat} (hleast : least ≤ i)
      (hcross : Crosses n i p p') (hrest : Climb n (i + 1) p' q ordinals track) :
      Climb n least p q (i :: ordinals) (p' :: track)

/-- A climb may be asked for lower numbers than it has. -/
theorem Climb.mono {least' : Nat} (h : Climb n least p q ordinals track) (hle : least' ≤ least) :
    Climb n least' p q ordinals track := by
  cases h with
  | stay => exact .stay least' p
  | cross hleast hcross hrest => exact .cross (Nat.le_trans hle hleast) hcross hrest

/-- The numbers of a climb rise, from the least one on. -/
theorem Climb.rising (h : Climb n least p q ordinals track) :
    ordinals.Pairwise (· < ·) ∧ ∀ i ∈ ordinals, least ≤ i := by
  induction h with
  | stay => simp
  | @cross least i p p' q ordinals track hleast hcross hrest ih =>
    obtain ⟨hrising, hlater⟩ := ih
    constructor
    · exact List.pairwise_cons.mpr ⟨hlater, hrising⟩
    · intro j hj
      rcases List.mem_cons.mp hj with rfl | hj
      · exact hleast
      · have hafter := hlater j hj
        omega

/-! ## Courses -/

/-- What a climb on a cycle of `n` can be. -/
inductive Course (n : Nat) : Nat → Nat → List Nat → List Nat → Prop where
  | /-- On from position to position, at most until the cycle closes. -/
    onward {p k : Nat} (hk : p + k ≤ n) :
      Course n p ((p + k) % n) (List.range' p k) ((List.range' (p + 1) k).map (· % n))
  | /-- To the position right behind. -/
    back (q : Nat) : Course n (q + 1) q [q] [q]
  | /-- Back over the edge that closes the cycle. -/
    closing : Course n 0 (n - 1) [n - 1] [n - 1]
  | /-- Back to position 0, and then back over the edge that closes the cycle. -/
    backAndClosing : Course n 1 (n - 1) [0, n - 1] [0, n - 1]

/-- No edge has a number as large as the cycle. -/
theorem Climb.of_top (h : Climb n n p q ordinals track) :
    q = p ∧ ordinals = [] ∧ track = [] := by
  cases h with
  | stay => exact ⟨rfl, rfl, rfl⟩
  | cross hleast hcross hrest =>
    have hlt := hcross.1
    omega

/-- With the edge in front of it behind the numbers asked for, a climb can only pass
    the edge that closes the cycle. -/
theorem Climb.of_lt (h : Climb n least p q ordinals track) (hp : p < least) :
    (q = p ∧ ordinals = [] ∧ track = []) ∨
      (p = 0 ∧ q = n - 1 ∧ ordinals = [n - 1] ∧ track = [n - 1]) := by
  cases h with
  | stay => exact .inl ⟨rfl, rfl, rfl⟩
  | @cross _ i _ p' _ ordinals track hleast hcross hrest =>
    have hcases := hcross.cases
    have hlast : i + 1 = n ∧ p = 0 ∧ p' = n - 1 ∧ i = n - 1 := by omega
    obtain ⟨hn, rfl, rfl, rfl⟩ := hlast
    rw [hn] at hrest
    obtain ⟨rfl, rfl, rfl⟩ := hrest.of_top
    exact .inr ⟨rfl, rfl, rfl, rfl⟩

/-- From the edge in front of it, a climb goes on, unless it turns at position 0. -/
theorem Climb.of_eq (h : Climb n p p q ordinals track) (hp : p < n) :
    (∃ k, p + k ≤ n ∧ q = (p + k) % n ∧ ordinals = List.range' p k ∧
        track = (List.range' (p + 1) k).map (· % n)) ∨
      (p = 0 ∧ q = n - 1 ∧ ordinals = [n - 1] ∧ track = [n - 1]) := by
  -- by induction on the edges still to cross
  induction ordinals generalizing p track with
  | nil =>
    cases h
    exact .inl ⟨0, by omega, (Nat.mod_eq_of_lt hp).symm, rfl, rfl⟩
  | cons i ordinals ih =>
    cases h with
    | @cross _ _ _ p' _ _ track hleast hcross hrest =>
      obtain ⟨hi, hcases⟩ := hcross.cases
      rcases hcases with ⟨rfl, rfl, hnext⟩ | ⟨rfl, rfl, hlast⟩ | ⟨rfl, rfl, -⟩ | ⟨rfl, rfl, hlast⟩
      · -- on to the next position, where the climb is again at the edge in front of it
        rcases ih hrest hnext with ⟨k, hk, rfl, rfl, rfl⟩ | ⟨hzero, -⟩
        · refine .inl ⟨k + 1, by omega, ?_, ?_, ?_⟩
          · rw [Nat.add_right_comm, Nat.add_assoc]
          · rw [List.range'_succ]
          · rw [List.range'_succ, List.map_cons, Nat.mod_eq_of_lt hnext]
        · omega
      · -- on over the edge that closes the cycle, and no further
        rw [hlast] at hrest
        obtain ⟨rfl, rfl, rfl⟩ := hrest.of_top
        refine .inl ⟨1, by omega, ?_, rfl, ?_⟩
        · rw [hlast, Nat.mod_self]
        · rw [List.range'_one, List.map_singleton, hlast, Nat.mod_self]
      · omega
      · -- back over the edge that closes the cycle
        rw [hlast] at hrest
        obtain ⟨rfl, rfl, rfl⟩ := hrest.of_top
        have hnumber : q = n - 1 := by omega
        subst hnumber
        exact .inr ⟨rfl, rfl, rfl, rfl⟩

/-- Every climb takes one of the courses. -/
theorem Climb.course (h : Climb n least p q ordinals track) (hp : p < n) :
    Course n p q ordinals track := by
  have honward : ∀ {p q ordinals track}, Climb n p p q ordinals track → p < n →
      Course n p q ordinals track := by
    intro p q ordinals track h hp
    rcases h.of_eq hp with ⟨k, hk, rfl, rfl, rfl⟩ | ⟨rfl, rfl, rfl, rfl⟩
    · exact .onward hk
    · exact .closing
  cases h with
  | stay => exact honward (.stay p p) hp
  | @cross _ i _ p' _ ordinals track hleast hcross hrest =>
    obtain ⟨hi, hcases⟩ := hcross.cases
    -- the first edge decides: after a step back, only the closing edge is left
    rcases hcases with ⟨rfl, -⟩ | ⟨rfl, -⟩ | ⟨rfl, rfl, hnext⟩ | ⟨rfl, rfl, hlast⟩
    · exact honward (.cross (Nat.le_refl p) hcross hrest) hp
    · exact honward (.cross (Nat.le_refl p) hcross hrest) hp
    · rcases hrest.of_lt (Nat.lt_succ_self p') with ⟨rfl, rfl, rfl⟩ | ⟨rfl, rfl, rfl, rfl⟩
      · exact .back q
      · exact .backAndClosing
    · rw [hlast] at hrest
      obtain ⟨rfl, rfl, rfl⟩ := hrest.of_top
      have hnumber : q = n - 1 := by omega
      subst hnumber
      exact .closing

/-! ## Positions come by -/

/-- The positions from one on, until the cycle closes, are distinct if they are not those
    of a whole lap. -/
theorem nodup_onward_iff {k : Nat} (hk : p + k ≤ n) (hn : 0 < n) :
    ((List.range' p (k + 1)).map (· % n)).Nodup ↔ k < n := by
  constructor
  · -- a whole lap has one position too many
    intro hnodup
    have hsub : (List.range' p (k + 1)).map (· % n) ⊆ List.range n := by
      intro x hx
      obtain ⟨j, -, rfl⟩ := List.mem_map.mp hx
      exact List.mem_range.mpr (Nat.mod_lt j hn)
    have hlength := (hnodup.subperm hsub).length_le
    rw [List.length_map, List.length_range', List.length_range] at hlength
    exact hlength
  · intro hlt
    apply List.Nodup.map_on _ List.nodup_range'
    intro x hx y hy hsame
    rw [List.mem_range'_1] at hx hy
    -- only the last position can be that of the closed cycle
    have hmod : ∀ z, p ≤ z ∧ z < p + (k + 1) → z % n = if z = n then 0 else z := by
      intro z hz
      split
      · next heq => rw [heq, Nat.mod_self]
      · exact Nat.mod_eq_of_lt (by omega)
    rw [hmod x hx, hmod y hy] at hsame
    split at hsame <;> split at hsame <;> omega

/-- A course is at most one lap, and comes back to a position only as a whole one. -/
theorem Course.nodup_iff (h : Course n p q ordinals track) (hn : 3 ≤ n) (hp : p < n) :
    ordinals.length ≤ n ∧ ((p :: track).Nodup ↔ ordinals.length < n) := by
  cases h with
  | @onward _ k hk =>
    have htrack : p :: (List.range' (p + 1) k).map (· % n) =
        (List.range' p (k + 1)).map (· % n) := by
      rw [List.range'_succ, List.map_cons, Nat.mod_eq_of_lt hp]
    rw [List.length_range', htrack]
    exact ⟨by omega, nodup_onward_iff hk (by omega)⟩
  | back q =>
    have hnodup : [q + 1, q].Nodup := by simp
    rw [List.length_singleton]
    exact ⟨by omega, iff_of_true hnodup (by omega)⟩
  | closing =>
    have hne : 0 ≠ n - 1 := by omega
    have hnodup : [0, n - 1].Nodup := by simp [hne]
    rw [List.length_singleton]
    exact ⟨by omega, iff_of_true hnodup (by omega)⟩
  | backAndClosing =>
    have hne : 1 ≠ n - 1 ∧ 0 ≠ n - 1 := by omega
    have hnodup : [1, 0, n - 1].Nodup := by simp [hne]
    show 2 ≤ n ∧ ([1, 0, n - 1].Nodup ↔ 2 < n)
    exact ⟨by omega, iff_of_true hnodup (by omega)⟩

/-- A course of a whole lap starts and ends at position 0, and passes all edges in order. -/
theorem Course.of_lap (h : Course n p q ordinals track) (hn : 3 ≤ n) (hlap : ordinals.length = n) :
    p = 0 ∧ q = 0 ∧ ordinals = List.range n := by
  cases h with
  | @onward _ k hk =>
    rw [List.length_range'] at hlap
    have hp : p = 0 := by omega
    rw [hlap, hp, Nat.zero_add, Nat.mod_self, List.range_eq_range']
    exact ⟨rfl, rfl, rfl⟩
  | back q =>
    -- one step back is no lap, for a cycle has at least three edges
    rw [List.length_singleton] at hlap
    omega
  | closing =>
    rw [List.length_singleton] at hlap
    omega
  | backAndClosing =>
    have htwo : 2 = n := hlap
    omega

/-! ## Where climbs lead -/

/-- A climb goes on as far as the cycle closes. -/
theorem climb_onward {k : Nat} (hk : p + k ≤ n) (hp : p < n) :
    Climb n p p ((p + k) % n) (List.range' p k) ((List.range' (p + 1) k).map (· % n)) := by
  induction k generalizing p with
  | zero =>
    rw [Nat.add_zero, Nat.mod_eq_of_lt hp]
    exact .stay p p
  | succ k ih =>
    rw [List.range'_succ, List.range'_succ, List.map_cons]
    refine .cross (Nat.le_refl p) ⟨hp, .inl ⟨rfl, rfl⟩⟩ ?_
    by_cases hlast : p + 1 = n
    · -- the cycle closes with this edge
      have hzero : k = 0 := by omega
      subst hzero
      rw [hlast, Nat.mod_self]
      exact .stay n 0
    · have hnext : p + 1 < n := by omega
      have hrest := ih (show p + 1 + k ≤ n by omega) hnext
      rw [Nat.mod_eq_of_lt hnext, Nat.add_comm k 1, ← Nat.add_assoc]
      exact hrest

/-- Between two positions there is a climb if the second one is ahead, is position 0,
    or is right behind the first one. -/
theorem exists_climb_iff (hp : p < n) (hq : q < n) (hne : p ≠ q) :
    (∃ ordinals track, Climb n 0 p q ordinals track) ↔ p < q ∨ q = 0 ∨ q + 1 = p := by
  constructor
  · intro h
    obtain ⟨ordinals, track, hclimb⟩ := h
    have hcourse := hclimb.course hp
    cases hcourse with
    | @onward _ k hk =>
      by_cases hlap : p + k = n
      · rw [hlap, Nat.mod_self]
        omega
      · rw [Nat.mod_eq_of_lt (by omega)] at hne ⊢
        omega
    | back => omega
    | closing => omega
    | backAndClosing => omega
  · intro h
    rcases h with hahead | rfl | rfl
    · have hclimb := climb_onward (show p + (q - p) ≤ n by omega) hp
      have hend : (p + (q - p)) % n = q := by
        rw [Nat.add_sub_cancel' (Nat.le_of_lt hahead), Nat.mod_eq_of_lt hq]
      rw [hend] at hclimb
      exact ⟨_, _, hclimb.mono (Nat.zero_le p)⟩
    · have hclimb := climb_onward (show p + (n - p) ≤ n by omega) hp
      have hend : (p + (n - p)) % n = 0 := by
        rw [Nat.add_sub_cancel' (Nat.le_of_lt hp), Nat.mod_self]
      rw [hend] at hclimb
      exact ⟨_, _, hclimb.mono (Nat.zero_le p)⟩
    · have hstep : Crosses n q (q + 1) q := ⟨hq, .inr ⟨(Nat.mod_eq_of_lt hp).symm, rfl⟩⟩
      exact ⟨_, _, .cross (Nat.zero_le q) hstep (.stay (q + 1) q)⟩

end Interconnect.Escape
