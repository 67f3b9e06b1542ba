import Interconnect.Placement
import Interconnect.Proofs.Checked

/-! # Where endpoints are placed

    The placements of both rules in closed form, and what they have in common:
    every endpoint is placed once (`place_perm`), on one of the routers
    (`router_lt_of_place`).
-/

namespace Interconnect.Placement

variable {endpoints : List Endpoint} {routers directories : Nat} {places : List Placement}

/-! ## Places by position -/

/-- Endpoints with routers that depend on their positions in the list. -/
def placeEach (place : Nat → Nat) (group : List Endpoint) : List Placement :=
  group.zipIdx.map fun (e, i) => ⟨e, place i⟩

theorem map_endpoint_placeEach (place : Nat → Nat) (group : List Endpoint) :
    (placeEach place group).map (·.endpoint) = group := by
  rw [placeEach, List.map_map]
  exact List.zipIdx_map_fst 0 group

theorem map_router_placeEach (place : Nat → Nat) (group : List Endpoint) :
    (placeEach place group).map (·.router) = (List.range group.length).map place := by
  rw [placeEach, List.map_map, List.range_eq_range', ← List.zipIdx_map_snd 0 group, List.map_map]
  rfl

theorem mem_of_mem_placeEach {place : Nat → Nat} {group : List Endpoint} {p : Placement}
    (h : p ∈ placeEach place group) : p.endpoint ∈ group := by
  rw [← map_endpoint_placeEach place group]
  exact List.mem_map_of_mem h

theorem exists_of_mem_placeEach {place : Nat → Nat} {group : List Endpoint} {p : Placement}
    (h : p ∈ placeEach place group) : ∃ i < group.length, p.router = place i := by
  have hrouter := List.mem_map_of_mem (f := Placement.router) h
  rw [map_router_placeEach] at hrouter
  obtain ⟨i, hi, heq⟩ := List.mem_map.mp hrouter
  exact ⟨i, List.mem_range.mp hi, heq.symm⟩

/-! ## Both rules in closed form -/

/-- A dealt endpoint goes round; those after the last full round go to router 0. -/
theorem stripe_cases (h : stripe endpoints routers = .ok places) :
    (∀ e ∈ endpoints.drop (endpoints.length / routers * routers), e.kind = .dma) ∧
      places = placeEach
        (fun i => if i < endpoints.length / routers * routers then i % routers else 0)
        endpoints := by
  simp only [stripe, bind_eq_ok, liftM_eq_ok, Word.div_ok_iff, Word.mul_ok_iff,
    Word.drop_ok_iff] at h
  obtain ⟨_, ⟨-, rfl⟩, _, ⟨-, rfl⟩, _, ⟨-, rfl⟩, h⟩ := h
  split at h
  · cases throw_eq_ok.mp h
  · next hfind =>
    constructor
    · intro e he
      have hno := List.find?_eq_none.mp hfind e he
      simpa using hno
    · refine eq_map_of_mapM ?_ h
      rintro ⟨e, i⟩ p hp
      simp only [ite_eq_ok, bind_eq_ok, liftM_eq_ok, Word.rem_ok_iff, pure_eq_ok] at hp
      rcases hp with ⟨hlt, _, ⟨-, rfl⟩, rfl⟩ | ⟨hge, rfl⟩
      · simp only [if_pos hlt]
      · simp only [if_neg hge]

/-- Directories are spread evenly, or all at router 0 if none are configured. -/
theorem directoryStride_ok_iff {stride : Nat} :
    directoryStride directories routers = .ok stride ↔ stride = routers / directories := by
  unfold directoryStride
  by_cases hnone : directories = 0
  · simp [hnone, eq_comm]
  · simp [hnone, Word.div_ok_iff]

theorem strideFits_ok_iff {present stride : Nat} (h : strideFits present stride routers = .ok true) :
    ∀ i < present, i * stride < routers := by
  intro i hi
  unfold strideFits at h
  have hpresent : present ≠ 0 := by omega
  rw [if_neg hpresent] at h
  by_cases hstride : stride = 0
  · simp [hstride, pure_eq_ok] at h
  · rw [if_neg hstride] at h
    simp only [bind_eq_ok, Word.sub_ok_iff, Word.mul_ok_iff, pure_eq_ok, decide_eq_true_eq] at h
    obtain ⟨_, ⟨-, rfl⟩, _, ⟨-, rfl⟩, hlast⟩ := h
    -- no place is beyond that of the last one present
    have hle : i * stride ≤ (present - 1) * stride := Nat.mul_le_mul_right _ (by omega)
    omega

/-- Where there are directories that fit, they are apart. -/
theorem stride_pos_of_strideFits {present stride : Nat}
    (h : strideFits present stride routers = .ok true) (hpresent : present ≠ 0) : 0 < stride := by
  unfold strideFits at h
  rw [if_neg hpresent] at h
  by_cases hstride : stride = 0
  · simp [hstride, pure_eq_ok] at h
  · exact Nat.pos_of_ne_zero hstride

/-- The caches of a population, in order. -/
def cachesOf (endpoints : List Endpoint) : List Endpoint :=
  endpoints.filter fun e => e.kind.isCache

/-- The directories of a population, in order. -/
def directoriesOf (endpoints : List Endpoint) : List Endpoint :=
  endpoints.filter fun e => e.kind = .directory

/-- The DMA engines of a population, in order. -/
def dmasOf (endpoints : List Endpoint) : List Endpoint :=
  endpoints.filter fun e => e.kind = .dma

theorem isCache_of_mem {e : Endpoint} (h : e ∈ cachesOf endpoints) : e.kind.isCache = true :=
  (List.mem_filter.mp h).2

theorem eq_directory_of_mem {e : Endpoint} (h : e ∈ directoriesOf endpoints) :
    e.kind = .directory :=
  of_decide_eq_true (List.mem_filter.mp h).2

theorem eq_dma_of_mem {e : Endpoint} (h : e ∈ dmasOf endpoints) : e.kind = .dma :=
  of_decide_eq_true (List.mem_filter.mp h).2

/-- Concentration places the caches, the directories and the DMA engines, group
    after group and each of them in order. -/
theorem concentrate_cases (h : concentrate endpoints routers directories = .ok places) :
    (cachesOf endpoints).length % routers = 0 ∧
      strideFits (directoriesOf endpoints).length (routers / directories) routers = .ok true ∧
      places =
        placeEach (· / ((cachesOf endpoints).length / routers)) (cachesOf endpoints) ++
        placeEach (· * (routers / directories)) (directoriesOf endpoints) ++
        placeEach (fun _ => 0) (dmasOf endpoints) := by
  simp only [concentrate, bind_eq_ok, liftM_eq_ok, Word.rem_ok_iff, ite_throw_eq_ok,
    ite_else_throw_eq_ok, directoryStride_ok_iff, Word.div_ok_iff, pure_eq_ok] at h
  obtain ⟨_, ⟨-, rfl⟩, heven, -, _, rfl, _, hfits, rfl, _, ⟨-, rfl⟩, cachePlaces, hcaches,
    dirPlaces, hdirs, rfl⟩ := h
  refine ⟨not_not.mp heven, hfits, ?_⟩
  have hcacheMap : cachePlaces =
      placeEach (· / ((cachesOf endpoints).length / routers)) (cachesOf endpoints) := by
    refine eq_map_of_mapM ?_ hcaches
    intro x p hp
    simp only [bind_eq_ok, liftM_eq_ok, Word.div_ok_iff, pure_eq_ok] at hp
    obtain ⟨_, ⟨-, rfl⟩, rfl⟩ := hp
    rfl
  have hdirMap : dirPlaces =
      placeEach (· * (routers / directories)) (directoriesOf endpoints) := by
    refine eq_map_of_mapM ?_ hdirs
    intro x p hp
    simp only [bind_eq_ok, liftM_eq_ok, Word.mul_ok_iff, pure_eq_ok] at hp
    obtain ⟨_, ⟨-, rfl⟩, rfl⟩ := hp
    rfl
  have hdmaMap : ((dmasOf endpoints).map fun e => (⟨e, 0⟩ : Placement)) =
      placeEach (fun _ => 0) (dmasOf endpoints) := by
    conv_lhs => rw [← List.zipIdx_map_fst 0 (dmasOf endpoints), List.map_map]
    rfl
  rw [hcacheMap, hdirMap, ← hdmaMap]
  rfl

/-- Without their routers, the places are the three groups one after the other. -/
theorem endpoints_of_concentrate (h : concentrate endpoints routers directories = .ok places) :
    places.map (·.endpoint) =
      cachesOf endpoints ++ directoriesOf endpoints ++ dmasOf endpoints := by
  obtain ⟨-, -, rfl⟩ := concentrate_cases h
  rw [List.map_append, List.map_append, map_endpoint_placeEach, map_endpoint_placeEach,
    map_endpoint_placeEach]

/-- The three groups together are the population. -/
theorem groups_perm (endpoints : List Endpoint) :
    (cachesOf endpoints ++ directoriesOf endpoints ++ dmasOf endpoints).Perm endpoints := by
  -- what is no cache is a directory or a DMA engine
  have hrest : (directoriesOf endpoints ++ dmasOf endpoints).Perm
      (endpoints.filter fun e => !e.kind.isCache) := by
    have hdirs : directoriesOf endpoints =
        (endpoints.filter fun e => !e.kind.isCache).filter fun e => e.kind = .directory := by
      rw [List.filter_filter]
      apply List.filter_congr
      intro e _
      cases e.kind <;> rfl
    have hdmas : dmasOf endpoints =
        (endpoints.filter fun e => !e.kind.isCache).filter fun e => !decide (e.kind = .directory) := by
      rw [List.filter_filter]
      apply List.filter_congr
      intro e _
      cases e.kind <;> rfl
    rw [hdirs, hdmas]
    exact List.filter_append_perm _ _
  rw [List.append_assoc]
  exact (hrest.append_left _).trans (List.filter_append_perm _ _)

namespace Rule

variable {rule : Rule}

theorem routers_pos_of_place (h : rule.place endpoints routers = .ok places) : 0 < routers := by
  unfold place at h
  rw [ite_error_eq_ok] at h
  exact Nat.pos_of_ne_zero h.1

/-- Every endpoint is placed, as often as it is given. -/
theorem place_perm (h : rule.place endpoints routers = .ok places) :
    (places.map (·.endpoint)).Perm endpoints := by
  unfold place at h
  rw [ite_error_eq_ok] at h
  cases rule with
  | stripe =>
    obtain ⟨-, rfl⟩ := stripe_cases h.2
    exact .of_eq (map_endpoint_placeEach _ endpoints)
  | concentrate directories =>
    rw [endpoints_of_concentrate h.2]
    exact groups_perm endpoints

theorem length_of_place (h : rule.place endpoints routers = .ok places) :
    places.length = endpoints.length := by
  have hlen := (place_perm h).length_eq
  rwa [List.length_map] at hlen

/-- Endpoints are placed on existing routers only. -/
theorem router_lt_of_place (h : rule.place endpoints routers = .ok places) :
    ∀ p ∈ places, p.router < routers := by
  have hpos := routers_pos_of_place h
  unfold place at h
  rw [ite_error_eq_ok] at h
  intro p hp
  cases rule with
  | stripe =>
    obtain ⟨-, rfl⟩ := stripe_cases h.2
    obtain ⟨i, -, hrouter⟩ := exists_of_mem_placeEach hp
    rw [hrouter]
    split
    · exact Nat.mod_lt _ hpos
    · exact hpos
  | concentrate directories =>
    obtain ⟨heven, hfits, rfl⟩ := concentrate_cases h.2
    rcases List.mem_append.mp hp with hp | hp
    · rcases List.mem_append.mp hp with hp | hp
      · -- `routers` shares of equal size hold all caches
        obtain ⟨i, hi, hrouter⟩ := exists_of_mem_placeEach hp
        rw [hrouter]
        apply Nat.div_lt_of_lt_mul
        rwa [Nat.div_mul_cancel (Nat.dvd_of_mod_eq_zero heven)]
      · obtain ⟨i, hi, hrouter⟩ := exists_of_mem_placeEach hp
        rw [hrouter]
        exact strideFits_ok_iff hfits i hi
    · obtain ⟨i, -, hrouter⟩ := exists_of_mem_placeEach hp
      rw [hrouter]
      exact hpos

end Rule

end Interconnect.Placement
