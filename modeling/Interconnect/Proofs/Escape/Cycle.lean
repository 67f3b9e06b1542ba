import Interconnect.Escape.Plan
import Mathlib.Data.List.Rotate

/-! # Edges along a cycle

    Edge `i` of a cycle leads from its router `i` to the next one, and the last
    edge closes the cycle (`edges_getElem?_eq_some_iff`). A cycle of at least
    three routers runs over no edge twice (`nodup_keys`), so an edge has one
    position on it.

    The rings of a grid all go out along one line and come back along another;
    `edges_of_loop` lists the edges of such a cycle.
-/

namespace Interconnect.Escape.Cycle

variable {c : Cycle}

theorem size_pos (c : Cycle) : 0 < c.size := by
  have := c.three_le
  unfold size
  omega

/-- The position after position `i` on a cycle of `n`. -/
theorem succ_mod {i n : Nat} (h : i < n) : (i + 1) % n = if i + 1 = n then 0 else i + 1 := by
  split
  · next heq => rw [heq, Nat.mod_self]
  · exact Nat.mod_eq_of_lt (by omega)

/-- The position before one is `n - 1` positions further on. -/
theorem succ_mod_eq_iff {n a b : Nat} (ha : a < n) (hb : b < n) :
    (b + 1) % n = a ↔ b = (a + (n - 1)) % n := by
  constructor
  · rintro rfl
    rw [Nat.mod_add_mod, Nat.add_assoc, show 1 + (n - 1) = n by omega, Nat.add_mod_right,
      Nat.mod_eq_of_lt hb]
  · rintro rfl
    rw [Nat.mod_add_mod, Nat.add_assoc, show n - 1 + 1 = n by omega, Nat.add_mod_right,
      Nat.mod_eq_of_lt ha]

/-- A router has one position on a cycle. -/
theorem position_unique {i j r : Nat} (hi : c.routers[i]? = some r) (hj : c.routers[j]? = some r) :
    i = j := by
  have hlt : i < c.routers.length := (List.getElem?_eq_some_iff.mp hi).1
  exact (List.getElem?_inj hlt c.nodup).mp (hi.trans hj.symm)

/-! ## Edges by position -/

/-- The edges of a cycle, whichever way round each of them. -/
def keys (c : Cycle) : List (Nat × Nat) :=
  c.edges.map fun (a, b) => edgeKey a b

theorem edges_eq_zip_rotate (c : Cycle) : c.edges = c.routers.zip (c.routers.rotate 1) := by
  have hle : 1 ≤ c.routers.length := c.size_pos
  rw [edges, List.rotate_eq_drop_append_take hle]

@[simp] theorem length_edges (c : Cycle) : c.edges.length = c.size := by
  rw [edges_eq_zip_rotate, List.length_zip, List.length_rotate, Nat.min_self, size]

@[simp] theorem length_keys (c : Cycle) : c.keys.length = c.size := by
  rw [keys, List.length_map, length_edges]

theorem edges_getElem?_eq_some_iff {i a b : Nat} :
    c.edges[i]? = some (a, b) ↔
      c.routers[i]? = some a ∧ c.routers[(i + 1) % c.size]? = some b := by
  rw [edges_eq_zip_rotate, List.getElem?_zip_eq_some]
  apply and_congr_right
  intro ha
  rw [List.getElem?_rotate (List.getElem?_eq_some_iff.mp ha).1, size]

theorem keys_getElem?_eq_some_iff {i : Nat} {key : Nat × Nat} :
    c.keys[i]? = some key ↔
      ∃ a b, c.routers[i]? = some a ∧ c.routers[(i + 1) % c.size]? = some b ∧
        edgeKey a b = key := by
  rw [keys, List.getElem?_map, Option.map_eq_some_iff]
  constructor
  · intro h
    obtain ⟨⟨a, b⟩, hedge, hkey⟩ := h
    obtain ⟨ha, hb⟩ := edges_getElem?_eq_some_iff.mp hedge
    exact ⟨a, b, ha, hb, hkey⟩
  · intro h
    obtain ⟨a, b, ha, hb, hkey⟩ := h
    exact ⟨(a, b), edges_getElem?_eq_some_iff.mpr ⟨ha, hb⟩, hkey⟩

/-- A cycle runs over each of its edges once. -/
theorem nodup_keys (c : Cycle) : c.keys.Nodup := by
  rw [List.nodup_iff_getElem?_ne_getElem?]
  intro i j hij hj hsame
  rw [length_keys] at hj
  obtain ⟨key, hkey⟩ : ∃ key, c.keys[j]? = some key :=
    ⟨_, List.getElem?_eq_getElem (by rwa [length_keys])⟩
  obtain ⟨a, b, ha, hb, hab⟩ := keys_getElem?_eq_some_iff.mp (hsame.trans hkey)
  obtain ⟨a', b', ha', hb', hab'⟩ := keys_getElem?_eq_some_iff.mp hkey
  rcases edgeKey_eq_iff.mp (hab.trans hab'.symm) with ⟨rfl, -⟩ | ⟨rfl, rfl⟩
  · exact absurd (position_unique ha ha') (by omega)
  · -- two edges in opposite directions would make a cycle of two routers
    have hthree : 3 ≤ c.size := c.three_le
    have hnext := position_unique ha hb'
    have hprev := position_unique hb ha'
    rw [succ_mod hj] at hnext
    rw [succ_mod (show i < c.size by omega)] at hprev
    split at hnext <;> split at hprev <;> omega

/-! ## Consecutive routers -/

/-- Two routers follow each other on a cycle, in either order. -/
def Consecutive (c : Cycle) (a b : Nat) : Prop :=
  ∃ i,
    (c.routers[i]? = some a ∧ c.routers[(i + 1) % c.size]? = some b) ∨
    (c.routers[i]? = some b ∧ c.routers[(i + 1) % c.size]? = some a)

/-- Edge `i` of a cycle joins two routers, in either order. -/
def JoinsAt (c : Cycle) (a b i : Nat) : Prop :=
  (c.routers[i]? = some a ∧ c.routers[(i + 1) % c.size]? = some b) ∨
    (c.routers[i]? = some b ∧ c.routers[(i + 1) % c.size]? = some a)

theorem keys_getElem?_iff_joinsAt {a b i : Nat} :
    c.keys[i]? = some (edgeKey a b) ↔ c.JoinsAt a b i := by
  rw [keys_getElem?_eq_some_iff]
  constructor
  · intro h
    obtain ⟨x, y, hx, hy, hkey⟩ := h
    rcases edgeKey_eq_iff.mp hkey with ⟨rfl, rfl⟩ | ⟨rfl, rfl⟩
    · exact .inl ⟨hx, hy⟩
    · exact .inr ⟨hx, hy⟩
  · intro h
    rcases h with ⟨ha, hb⟩ | ⟨hb, ha⟩
    · exact ⟨a, b, ha, hb, rfl⟩
    · exact ⟨b, a, hb, ha, edgeKey_comm b a⟩

theorem mem_keys_iff {a b : Nat} : edgeKey a b ∈ c.keys ↔ c.Consecutive a b := by
  rw [List.mem_iff_getElem?]
  exact exists_congr fun i => keys_getElem?_iff_joinsAt

theorem Consecutive.mem {a b : Nat} (h : c.Consecutive a b) : a ∈ c.routers ∧ b ∈ c.routers := by
  obtain ⟨i, ⟨h1, h2⟩ | ⟨h1, h2⟩⟩ := h
  · exact ⟨List.mem_of_getElem? h1, List.mem_of_getElem? h2⟩
  · exact ⟨List.mem_of_getElem? h2, List.mem_of_getElem? h1⟩

/-- A router of a cycle is joined to the next one. -/
theorem exists_key_of_mem (c : Cycle) {a : Nat} (h : a ∈ c.routers) :
    ∃ b, edgeKey a b ∈ c.keys := by
  obtain ⟨i, hi⟩ := List.mem_iff_getElem?.mp h
  have hlt : (i + 1) % c.size < c.routers.length := Nat.mod_lt _ c.size_pos
  exact ⟨_, mem_keys_iff.mpr ⟨i, .inl ⟨hi, List.getElem?_eq_getElem hlt⟩⟩⟩

theorem mem_of_mem_edges {a b : Nat} (h : (a, b) ∈ c.edges) :
    a ∈ c.routers ∧ b ∈ c.routers := by
  have hkey : edgeKey a b ∈ c.keys := List.mem_map_of_mem (f := fun (a, b) => edgeKey a b) h
  exact (mem_keys_iff.mp hkey).mem

/-- On a cycle that visits routers in the order of their ranks, edges lead from one
    rank to the next. -/
theorem edges_of_range {n : Nat} (hrouters : c.routers = List.range n) :
    c.edges = (List.range n).map fun i => (i, (i + 1) % n) := by
  have hsize : c.size = n := by rw [size, hrouters, List.length_range]
  apply List.ext_getElem?
  intro i
  rw [List.getElem?_map]
  by_cases hi : i < n
  · have hnext : (i + 1) % n < n := Nat.mod_lt _ (by omega)
    rw [List.getElem?_range hi, Option.map_some, edges_getElem?_eq_some_iff, hsize, hrouters]
    exact ⟨List.getElem?_range hi, List.getElem?_range hnext⟩
  · rw [List.getElem?_eq_none (by rw [length_edges]; omega),
      List.getElem?_eq_none (by rw [List.length_range]; omega), Option.map_none]

theorem eq_succ_of_mem_edges {n a b : Nat} (hrouters : c.routers = List.range n)
    (h : (a, b) ∈ c.edges) : a < n ∧ b = (a + 1) % n := by
  rw [edges_of_range hrouters] at h
  obtain ⟨i, hi, heq⟩ := List.mem_map.mp h
  obtain ⟨rfl, rfl⟩ := Prod.mk.inj heq
  exact ⟨List.mem_range.mp hi, rfl⟩

/-- On such a cycle, an edge has the rank of its first router as its position. -/
theorem edges_getElem?_of_mem {n a b : Nat} (hrouters : c.routers = List.range n)
    (h : (a, b) ∈ c.edges) : c.edges[a]? = some (a, b) := by
  obtain ⟨hlt, rfl⟩ := eq_succ_of_mem_edges hrouters h
  rw [edges_of_range hrouters, List.getElem?_map, List.getElem?_range hlt, Option.map_some]

/-- The next router is another one. -/
theorem ne_of_mem_edges {a b : Nat} (h : (a, b) ∈ c.edges) : a ≠ b := by
  obtain ⟨i, hi⟩ := List.mem_iff_getElem?.mp h
  obtain ⟨ha, hb⟩ := edges_getElem?_eq_some_iff.mp hi
  intro hsame
  rw [← hsame] at hb
  have hthree : 3 ≤ c.size := c.three_le
  have hlt : i < c.size := (List.getElem?_eq_some_iff.mp ha).1
  have hnext := position_unique ha hb
  rw [succ_mod hlt] at hnext
  split at hnext <;> omega

/-! ## Ordinals -/

section ordinals

variable {α : Type} [BEq α] [LawfulBEq α] {xs : List α} {x : α}

/-- In a list without repetitions, an entry is found where it stands. -/
theorem findIdx?_eq_some_iff_of_nodup (hnodup : xs.Nodup) {i : Nat} :
    xs.findIdx? (· == x) = some i ↔ xs[i]? = some x := by
  rw [List.findIdx?_eq_some_iff_getElem]
  constructor
  · intro h
    obtain ⟨hi, hx, -⟩ := h
    rw [List.getElem?_eq_getElem hi, beq_iff_eq.mp hx]
  · intro h
    obtain ⟨hi, hx⟩ := List.getElem?_eq_some_iff.mp h
    refine ⟨hi, beq_iff_eq.mpr hx, fun j hji hj => ?_⟩
    -- an earlier position would repeat the entry
    have hlt : j < xs.length := by omega
    have hsame : xs[j]? = xs[i]? := by
      rw [h, List.getElem?_eq_getElem hlt, beq_iff_eq.mp hj]
    exact absurd ((List.getElem?_inj hlt hnodup).mp hsame) (by omega)

theorem findIdx?_eq_none_iff_not_mem : xs.findIdx? (· == x) = none ↔ x ∉ xs := by
  rw [List.findIdx?_eq_none_iff]
  constructor
  · intro h hmem
    simpa using h x hmem
  · intro h y hy
    exact beq_false_of_ne fun heq => h (heq ▸ hy)

end ordinals

/-- The position of an edge along the cycle. -/
def edgeOrdinal? (c : Cycle) (key : Nat × Nat) : Option Nat :=
  c.keys.findIdx? (· == key)

theorem edgeOrdinal?_eq_some_iff {key : Nat × Nat} {i : Nat} :
    c.edgeOrdinal? key = some i ↔ c.keys[i]? = some key :=
  findIdx?_eq_some_iff_of_nodup c.nodup_keys

theorem edgeOrdinal?_eq_none_iff {key : Nat × Nat} : c.edgeOrdinal? key = none ↔ key ∉ c.keys :=
  findIdx?_eq_none_iff_not_mem

theorem ordinal?_eq_some_iff {r i : Nat} : c.ordinal? r = some i ↔ c.routers[i]? = some r :=
  findIdx?_eq_some_iff_of_nodup c.nodup

theorem ordinal?_eq_none_iff {r : Nat} : c.ordinal? r = none ↔ r ∉ c.routers :=
  findIdx?_eq_none_iff_not_mem

/-! ## Loops -/

/-- Out along one line of `n` routers, and back along another. -/
def loop (out back : Nat → Nat) (n : Nat) : List Nat :=
  (List.range n).map out ++ (List.range n).reverse.map back

/-- The edges of a loop: out, across, back, and across again to close it. -/
theorem edges_of_loop {out back : Nat → Nat} {n : Nat} (h : c.routers = loop out back (n + 1)) :
    c.edges =
      (List.range n).map (fun i => (out i, out (i + 1))) ++ [(out n, back n)] ++
        (List.range n).reverse.map (fun i => (back (i + 1), back i)) ++ [(back 0, out 0)] := by
  -- each line without its last and without its first router
  have hlast : (List.range (n + 1)).map out = (List.range n).map out ++ [out n] := by
    rw [List.range_succ, List.map_append, List.map_singleton]
  have hfirst : (List.range (n + 1)).map out =
      out 0 :: (List.range n).map (fun i => out (i + 1)) := by
    rw [List.range_succ_eq_map, List.map_cons, List.map_map]
    rfl
  have hlast' : (List.range (n + 1)).reverse.map back =
      back n :: (List.range n).reverse.map back := by
    rw [List.range_succ, List.reverse_append, List.reverse_singleton, List.singleton_append,
      List.map_cons]
  have hfirst' : (List.range (n + 1)).reverse.map back =
      (List.range n).reverse.map (fun i => back (i + 1)) ++ [back 0] := by
    rw [List.range_succ_eq_map, List.reverse_cons, List.map_append, List.map_singleton,
      ← List.map_reverse, List.map_map]
    rfl
  -- the cycle and the cycle moved on by one, cut at the same places
  have hhere : c.routers = (List.range n).map out ++ [out n] ++
      (List.range n).reverse.map (fun i => back (i + 1)) ++ [back 0] := by
    rw [h, loop, hlast, hfirst', ← List.append_assoc]
  have hnext : c.routers.drop 1 ++ c.routers.take 1 =
      (List.range n).map (fun i => out (i + 1)) ++ [back n] ++
        (List.range n).reverse.map back ++ [out 0] := by
    rw [h, loop, hfirst, hlast']
    simp
  rw [edges, hnext, hhere, List.zip_append (by simp), List.zip_append (by simp),
    List.zip_append (by simp), List.zip_map', List.zip_map']
  rfl

theorem keys_of_loop {out back : Nat → Nat} {n : Nat} (h : c.routers = loop out back (n + 1)) :
    c.keys =
      (List.range n).map (fun i => edgeKey (out i) (out (i + 1))) ++ [edgeKey (out n) (back n)] ++
        (List.range n).reverse.map (fun i => edgeKey (back i) (back (i + 1))) ++
          [edgeKey (out 0) (back 0)] := by
  rw [keys, edges_of_loop h]
  simp only [List.map_append, List.map_map, List.map_singleton, Function.comp_def,
    edgeKey_comm (back _) (back _), edgeKey_comm (back 0) (out 0)]

theorem mem_keys_of_loop {out back : Nat → Nat} {n : Nat} {key : Nat × Nat}
    (h : c.routers = loop out back (n + 1)) :
    key ∈ c.keys ↔
      (∃ i < n, key = edgeKey (out i) (out (i + 1)) ∨ key = edgeKey (back i) (back (i + 1))) ∨
        key = edgeKey (out n) (back n) ∨ key = edgeKey (out 0) (back 0) := by
  rw [keys_of_loop h]
  simp only [List.mem_append, List.mem_map, List.mem_reverse, List.mem_range, List.mem_singleton]
  constructor
  · intro hkey
    rcases hkey with ((⟨i, hi, rfl⟩ | hacross) | ⟨i, hi, rfl⟩) | hclose
    · exact .inl ⟨i, hi, .inl rfl⟩
    · exact .inr (.inl hacross)
    · exact .inl ⟨i, hi, .inr rfl⟩
    · exact .inr (.inr hclose)
  · intro hkey
    rcases hkey with ⟨i, hi, rfl | rfl⟩ | hacross | hclose
    · exact .inl (.inl (.inl ⟨i, hi, rfl⟩))
    · exact .inl (.inr ⟨i, hi, rfl⟩)
    · exact .inl (.inl (.inr hacross))
    · exact .inr hclose

/-- The routers of a loop are those of its two lines. -/
theorem mem_loop {out back : Nat → Nat} {n r : Nat} :
    r ∈ loop out back n ↔ ∃ i < n, r = out i ∨ r = back i := by
  simp only [loop, List.mem_append, List.mem_map, List.mem_reverse, List.mem_range]
  constructor
  · intro h
    rcases h with ⟨i, hi, rfl⟩ | ⟨i, hi, rfl⟩
    · exact ⟨i, hi, .inl rfl⟩
    · exact ⟨i, hi, .inr rfl⟩
  · intro h
    obtain ⟨i, hi, rfl | rfl⟩ := h
    · exact .inl ⟨i, hi, rfl⟩
    · exact .inr ⟨i, hi, rfl⟩

example : loop (· + 0) (· + 4) 4 = [0, 1, 2, 3, 7, 6, 5, 4] := by decide

@[simp] theorem length_loop (out back : Nat → Nat) (n : Nat) :
    (loop out back n).length = 2 * n := by
  simp only [loop, List.length_append, List.length_map, List.length_reverse, List.length_range]
  omega

/-! ## Construction -/

/-- An accepted cycle has the role and the routers that it was asked for. -/
theorem ofRouters_cases {role : Role} {routers : List Nat} (h : ofRouters role routers = .ok c) :
    c.role = role ∧ c.routers = routers := by
  unfold ofRouters at h
  split at h
  · cases h
  · split at h
    · cases h
    · cases h
      exact ⟨rfl, rfl⟩

end Interconnect.Escape.Cycle
