import Interconnect.Proofs.Escape.Cycle
import Mathlib.Data.List.Count

/-! # Which routers make a cycle

    A list of routers is a cycle exactly if it has at least three entries and repeats none
    (`exists_ofRouters_iff`). A list that is too short is refused for its length, whatever
    else is wrong with it, and any other for the router that comes a second time first
    (`ofRouters_eq_error_iff`).

    What is accepted closes: every router is left by one edge and entered by another one,
    so that it lies on two edges, and no two edges join the same routers.
    `ofRouters_tour` is the main statement.
-/

namespace Interconnect.Escape

/-! ## Repetitions -/

/-- A router is repeated, and no router before it is. -/
def RepeatsFirst (routers : List Nat) (r : Nat) : Prop :=
  ∃ before after, routers = before ++ r :: after ∧ before.Nodup ∧ r ∈ before

theorem firstRepeat?_eq_some_iff {seen : Std.HashSet Nat} {routers : List Nat} {r : Nat} :
    firstRepeat? seen routers = some r ↔ ∃ before after, routers = before ++ r :: after ∧
      before.Nodup ∧ (∀ x ∈ before, x ∉ seen) ∧ (r ∈ before ∨ r ∈ seen) := by
  induction routers generalizing seen with
  | nil => simp [firstRepeat?]
  | cons x rest ih =>
    by_cases hx : x ∈ seen
    · simp only [firstRepeat?, hx, if_true, Option.some.injEq]
      constructor
      · rintro rfl
        exact ⟨[], rest, rfl, List.nodup_nil, by simp, .inr hx⟩
      · rintro ⟨before, after, hsplit, -, hunseen, -⟩
        -- the first router was seen, so that none comes before the repeated one
        rcases before with _ | ⟨y, before⟩
        · exact (List.cons.inj hsplit).1
        · obtain ⟨rfl, -⟩ := List.cons.inj hsplit
          exact absurd hx (hunseen x List.mem_cons_self)
    · -- the first router is new, and counts as seen for those behind it
      simp only [firstRepeat?, hx, if_false, ih, Std.HashSet.mem_insert, beq_iff_eq, not_or]
      constructor
      · rintro ⟨before, after, rfl, hnodup, hunseen, hr⟩
        refine ⟨x :: before, after, rfl, ?_, ?_, ?_⟩
        · exact List.nodup_cons.mpr ⟨fun hmem => (hunseen x hmem).1 rfl, hnodup⟩
        · rintro y (_ | ⟨_, hy⟩)
          · exact hx
          · exact (hunseen y hy).2
        · rcases hr with hr | rfl | hr
          · exact .inl (List.mem_cons_of_mem x hr)
          · exact .inl List.mem_cons_self
          · exact .inr hr
      · rintro ⟨before, after, hsplit, hnodup, hunseen, hr⟩
        rcases before with _ | ⟨y, before⟩
        · obtain ⟨rfl, -⟩ := List.cons.inj hsplit
          exact absurd (hr.resolve_left List.not_mem_nil) hx
        · obtain ⟨rfl, rfl⟩ := List.cons.inj hsplit
          obtain ⟨hfirst, hnodup⟩ := List.nodup_cons.mp hnodup
          refine ⟨before, after, rfl, hnodup, ?_, ?_⟩
          · intro y hy
            exact ⟨fun hxy => hfirst (hxy ▸ hy), hunseen y (List.mem_cons_of_mem x hy)⟩
          · rcases hr with hr | hr
            · rcases List.mem_cons.mp hr with rfl | hr
              · exact .inr (.inl rfl)
              · exact .inl hr
            · exact .inr (.inr hr)

theorem firstRepeat?_empty_eq_some_iff {routers : List Nat} {r : Nat} :
    firstRepeat? ∅ routers = some r ↔ RepeatsFirst routers r := by
  simp [firstRepeat?_eq_some_iff, RepeatsFirst]

namespace Cycle

variable {role : Role} {routers : List Nat} {c : Cycle}

/-! ## Acceptance -/

theorem exists_ofRouters_iff :
    (∃ c, ofRouters role routers = .ok c) ↔ 3 ≤ routers.length ∧ routers.Nodup := by
  constructor
  · rintro ⟨c, hc⟩
    obtain ⟨-, rfl⟩ := ofRouters_cases hc
    exact ⟨c.three_le, c.nodup⟩
  · rintro ⟨hlength, hnodup⟩
    unfold ofRouters
    rw [dif_neg (by omega)]
    have hnone : firstRepeat? ∅ routers = none :=
      firstRepeat?_eq_none_iff.mpr ⟨hnodup, fun r _ => Std.HashSet.not_mem_empty⟩
    split
    · next r hrepeat => cases hnone.symm.trans hrepeat
    · exact ⟨_, rfl⟩

theorem ofRouters_eq_error_iff {error : SynthesisError} :
    ofRouters role routers = .error error ↔
      (routers.length < 3 ∧ error = .ringTooSmall routers.length) ∨
        (3 ≤ routers.length ∧ ∃ r, RepeatsFirst routers r ∧ error = .duplicateRouter r) := by
  unfold ofRouters
  by_cases hshort : routers.length < 3
  · simp [hshort, Nat.not_le_of_lt hshort, eq_comm]
  · have hlength : 3 ≤ routers.length := by omega
    rw [dif_neg hshort]
    simp only [← firstRepeat?_empty_eq_some_iff, hshort, false_and, hlength, true_and, false_or]
    split
    · next r hrepeat => simp [hrepeat, eq_comm]
    · next hnone => simp [hnone]

/-! ## Edges at a router -/

theorem map_fst_edges (c : Cycle) : c.edges.map (·.1) = c.routers := by
  rw [edges_eq_zip_rotate]
  exact List.map_fst_zip (by rw [List.length_rotate])

theorem map_snd_edges (c : Cycle) : c.edges.map (·.2) = c.routers.rotate 1 := by
  rw [edges_eq_zip_rotate]
  exact List.map_snd_zip (by rw [List.length_rotate])

/-- Edges between different routers touch a router as often as they leave and enter it. -/
theorem countP_touching {edges : List (Nat × Nat)} (hne : ∀ e ∈ edges, e.1 ≠ e.2) (r : Nat) :
    (edges.countP fun e => e.1 = r ∨ e.2 = r) =
      (edges.map (·.1)).count r + (edges.map (·.2)).count r := by
  induction edges with
  | nil => rfl
  | cons e edges ih =>
    have hends : e.1 ≠ e.2 := hne e List.mem_cons_self
    rw [List.countP_cons, ih fun f hf => hne f (List.mem_cons_of_mem e hf), List.map_cons,
      List.map_cons, List.count_cons, List.count_cons]
    by_cases hleft : e.1 = r
    · have hentered : e.2 ≠ r := fun h => hends (hleft.trans h.symm)
      simp only [hleft, hentered, beq_iff_eq, true_or, decide_true, if_true, if_false]
      omega
    · simp only [hleft, beq_iff_eq, false_or, decide_eq_true_eq, if_false]
      omega

/-- Every router of a cycle lies on two of its edges. -/
theorem countP_edges {r : Nat} (hr : r ∈ c.routers) :
    (c.edges.countP fun e => e.1 = r ∨ e.2 = r) = 2 := by
  rw [countP_touching fun e he => ne_of_mem_edges he, map_fst_edges, map_snd_edges,
    List.count_eq_one_of_mem c.nodup hr,
    List.count_eq_one_of_mem (List.nodup_rotate.mpr c.nodup) (List.mem_rotate.mpr hr)]

/-! ## Main statement -/

/-- What a cycle of a role through a list of routers says. -/
structure Tour (c : Cycle) (role : Role) (routers : List Nat) : Prop where
  role_eq : c.role = role
  routers_eq : c.routers = routers
  /-- The edges lead from each router to the next one, and from the last to the first. -/
  edges_length : c.edges.length = routers.length
  edges : ∀ i a b, c.edges[i]? = some (a, b) ↔
    routers[i]? = some a ∧ routers[(i + 1) % routers.length]? = some b
  no_loop : ∀ a b, (a, b) ∈ c.edges → a ≠ b
  /-- No two edges join the same routers, whichever way round. -/
  once : ∀ (i j : Nat) (a b a' b' : Nat), c.edges[i]? = some (a, b) → c.edges[j]? = some (a', b') →
    (a = a' ∧ b = b') ∨ (a = b' ∧ b = a') → i = j
  two : ∀ r ∈ routers, (c.edges.countP fun e => e.1 = r ∨ e.2 = r) = 2
  ordinal : ∀ r i, c.ordinal? r = some i ↔ routers[i]? = some r

theorem tour (c : Cycle) : c.Tour c.role c.routers where
  role_eq := rfl
  routers_eq := rfl
  edges_length := c.length_edges
  edges := fun _ _ _ => edges_getElem?_eq_some_iff
  no_loop := fun _ _ => ne_of_mem_edges
  once := by
    intro i j a b a' b' hi hj hsame
    -- the keys of the edges forget which way round they are, and are all different
    have hkey : ∀ {k x y : Nat}, c.edges[k]? = some (x, y) → c.keys[k]? = some (edgeKey x y) := by
      intro k x y hk
      rw [keys, List.getElem?_map, hk, Option.map_some]
    have hlt : i < c.keys.length := (List.getElem?_eq_some_iff.mp (hkey hi)).1
    apply (List.getElem?_inj hlt c.nodup_keys).mp
    rw [hkey hi, hkey hj, edgeKey_eq_iff.mpr hsame]
  two := fun _ => countP_edges
  ordinal := fun _ _ => ordinal?_eq_some_iff

/-- **Cycles**: any list of at least three routers, none of them repeated, is a cycle of any
    role, and no other list is. -/
theorem ofRouters_tour (role : Role) (routers : List Nat) :
    ((∃ c, ofRouters role routers = .ok c) ↔ 3 ≤ routers.length ∧ routers.Nodup) ∧
      (∀ error, ofRouters role routers = .error error ↔
        (routers.length < 3 ∧ error = .ringTooSmall routers.length) ∨
          (3 ≤ routers.length ∧ ∃ r, RepeatsFirst routers r ∧ error = .duplicateRouter r)) ∧
      ∀ c, ofRouters role routers = .ok c → c.Tour role routers := by
  refine ⟨exists_ofRouters_iff, fun error => ofRouters_eq_error_iff, ?_⟩
  intro c hc
  obtain ⟨rfl, rfl⟩ := ofRouters_cases hc
  exact c.tour

/-- Of two repeated routers, the one that is met again first is reported; a list that is too
    short is not searched. -/
theorem ofRouters_tour_square :
    (∃ c, ofRouters .ring [0, 1, 5, 4] = .ok c ∧ c.Tour .ring [0, 1, 5, 4]) ∧
      ofRouters .central [0, 1, 2, 1, 0] = .error (.duplicateRouter 1) ∧
      ofRouters .ring [3, 3] = .error (.ringTooSmall 2) := by
  obtain ⟨haccepted, -, htour⟩ := ofRouters_tour .ring [0, 1, 5, 4]
  obtain ⟨-, hrepeated, -⟩ := ofRouters_tour .central [0, 1, 2, 1, 0]
  obtain ⟨-, hshort, -⟩ := ofRouters_tour .ring [3, 3]
  obtain ⟨c, hc⟩ := haccepted.mpr (by decide)
  refine ⟨⟨c, hc, htour c hc⟩, ?_, ?_⟩
  · exact (hrepeated _).mpr (.inr ⟨by decide, 1, ⟨[0, 1, 2], [0], rfl, by decide, by decide⟩, rfl⟩)
  · exact (hshort _).mpr (.inl ⟨by decide, rfl⟩)

end Cycle

end Interconnect.Escape
