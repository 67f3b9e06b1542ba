import Interconnect.Proofs.Placement.Outcome
import Mathlib.Data.List.Nodup

/-! # Concentrating endpoints

    Concentration places the three kinds of endpoints group after group. Caches fill the
    routers one after the other, each with the same number of consecutive caches; directories
    stand apart at a fixed stride, so that no two of them share a router.

    `concentrate_shares` is the main statement: when a population can be concentrated, and
    what every router gets.
-/

namespace Interconnect.Placement

variable {endpoints : List Endpoint} {routers directories : Nat} {places : List Placement}

/-! ## Shares -/

/-- The entries at consecutive positions are a part of the list. -/
theorem filter_zipIdx_between {α : Type} (xs : List α) (start first length : Nat) :
    ((xs.zipIdx start).filter fun x =>
        start + first ≤ x.2 ∧ x.2 < start + first + length).map Prod.fst =
      (xs.drop first).take length := by
  induction xs generalizing start first length with
  | nil => simp
  | cons x xs ih =>
    rw [List.zipIdx_cons, List.filter_cons]
    cases first with
    | succ first =>
      have hbefore : ¬ (start + (first + 1) ≤ start ∧ start < start + (first + 1) + length) := by
        omega
      -- the part begins behind this entry
      rw [if_neg fun hin => hbefore (of_decide_eq_true hin), List.drop_succ_cons,
        ← ih (start + 1) first length]
      congr 1
      apply List.filter_congr
      intro y _
      simp only [decide_eq_decide]
      omega
    | zero =>
      rw [List.drop_zero]
      cases length with
      | zero =>
        rw [if_neg (by simp), List.take_zero, List.map_eq_nil_iff, List.filter_eq_nil_iff]
        intro y _
        simp only [decide_eq_true_eq]
        omega
      | succ length =>
        rw [if_pos (by simp), List.take_succ_cons, List.map_cons]
        congr 1
        rw [← List.drop_zero (l := xs), ← ih (start + 1) 0 length]
        congr 1
        apply List.filter_congr
        intro y hy
        have hle := List.le_snd_of_mem_zipIdx hy
        simp only [decide_eq_decide]
        omega

/-- Shares of equal length are the parts of the list one after the other. -/
theorem filter_zipIdx_share {α : Type} (xs : List α) {share : Nat} (hshare : 0 < share) (r : Nat) :
    (xs.zipIdx.filter fun x => x.2 / share = r).map Prod.fst = (xs.drop (r * share)).take share := by
  rw [← filter_zipIdx_between xs 0]
  congr 1
  apply List.filter_congr
  intro x _
  rw [decide_eq_decide, Nat.div_eq_iff hshare]
  omega

/-! ## Concentrated endpoints -/

/-- How many caches every router gets. -/
def cacheShare (endpoints : List Endpoint) (routers : Nat) : Nat :=
  (cachesOf endpoints).length / routers

/-- The caches at a router. -/
def cachesAt (places : List Placement) (router : Nat) : List Endpoint :=
  (places.filter fun p => p.endpoint.kind.isCache ∧ p.router = router).map (·.endpoint)

/-- The placements of directories. -/
def directoryPlaces (places : List Placement) : List Placement :=
  places.filter fun p => p.endpoint.kind = .directory

/-- Endpoints that were concentrated on routers. -/
structure Concentrated (endpoints : List Endpoint) (routers directories : Nat)
    (places : List Placement) : Prop where
  /-- All caches, then all directories, then all DMA engines, each group in order. -/
  order : places.map (·.endpoint) =
    cachesOf endpoints ++ directoriesOf endpoints ++ dmasOf endpoints
  perm : (places.map (·.endpoint)).Perm endpoints
  /-- The caches at a router are consecutive. -/
  share : ∀ r < routers, cachesAt places r =
    ((cachesOf endpoints).drop (r * cacheShare endpoints routers)).take (cacheShare endpoints routers)
  length_share : ∀ r < routers, (cachesAt places r).length = cacheShare endpoints routers
  /-- Every directory is at its multiple of the stride. -/
  strided : directoryPlaces places = (directoriesOf endpoints).zipIdx.map fun (e, j) =>
    ⟨e, j * (routers / directories)⟩
  /-- No two directories share a router. -/
  apart : ((directoryPlaces places).map (·.router)).Nodup
  dma : ∀ p ∈ places, p.endpoint.kind = .dma → p.router = 0
  router_lt : ∀ p ∈ places, p.router < routers

/-! ## Groups -/

section groups

variable {place : Nat → Nat} {group : List Endpoint} {q : Endpoint.Kind → Bool}

theorem filter_placeEach_of_forall (h : ∀ e ∈ group, q e.kind = true) :
    (placeEach place group).filter (fun p => q p.endpoint.kind) = placeEach place group :=
  List.filter_eq_self.mpr fun _ hp => h _ (mem_of_mem_placeEach hp)

theorem filter_placeEach_of_forall_not (h : ∀ e ∈ group, q e.kind = false) :
    (placeEach place group).filter (fun p => q p.endpoint.kind) = [] := by
  rw [List.filter_eq_nil_iff]
  intro p hp
  rw [h _ (mem_of_mem_placeEach hp)]
  exact Bool.false_ne_true

end groups

/-- Of the three groups of places, every kind of endpoint picks its own. -/
theorem filter_concentrate (h : concentrate endpoints routers directories = .ok places) :
    (places.filter fun p => p.endpoint.kind.isCache) =
        placeEach (· / cacheShare endpoints routers) (cachesOf endpoints) ∧
      directoryPlaces places =
        placeEach (· * (routers / directories)) (directoriesOf endpoints) ∧
      (places.filter fun p => p.endpoint.kind = .dma) =
        placeEach (fun _ => 0) (dmasOf endpoints) := by
  have hcache : ∀ e ∈ cachesOf endpoints,
      decide (e.kind = .directory) = false ∧ decide (e.kind = .dma) = false := by
    intro e he
    have hkind := isCache_of_mem he
    constructor <;> refine decide_eq_false fun heq => ?_ <;> rw [heq] at hkind <;> cases hkind
  obtain ⟨-, -, rfl⟩ := concentrate_cases h
  simp only [directoryPlaces, List.filter_append]
  refine ⟨?_, ?_, ?_⟩
  · rw [filter_placeEach_of_forall (q := Endpoint.Kind.isCache) fun e he => isCache_of_mem he,
      filter_placeEach_of_forall_not (q := Endpoint.Kind.isCache) fun e he => by
        rw [eq_directory_of_mem he]; rfl,
      filter_placeEach_of_forall_not (q := Endpoint.Kind.isCache) fun e he => by
        rw [eq_dma_of_mem he]; rfl,
      List.append_nil, List.append_nil]
    rfl
  · rw [filter_placeEach_of_forall_not (q := (· = .directory)) fun e he => (hcache e he).1,
      filter_placeEach_of_forall (q := (· = .directory)) fun e he => by
        rw [eq_directory_of_mem he]; rfl,
      filter_placeEach_of_forall_not (q := (· = .directory)) fun e he => by
        rw [eq_dma_of_mem he]; rfl,
      List.nil_append, List.append_nil]
  · rw [filter_placeEach_of_forall_not (q := (· = .dma)) fun e he => (hcache e he).2,
      filter_placeEach_of_forall_not (q := (· = .dma)) fun e he => by
        rw [eq_directory_of_mem he]; rfl,
      filter_placeEach_of_forall (q := (· = .dma)) fun e he => by
        rw [eq_dma_of_mem he]; rfl,
      List.nil_append, List.nil_append]

/-- The caches at a router are its share of them. -/
theorem cachesAt_of_concentrate (h : concentrate endpoints routers directories = .ok places)
    (r : Nat) : cachesAt places r =
      ((cachesOf endpoints).drop (r * cacheShare endpoints routers)).take
        (cacheShare endpoints routers) := by
  obtain ⟨hcaches, -, -⟩ := filter_concentrate h
  obtain ⟨heven, -, -⟩ := concentrate_cases h
  have hsplit : (places.filter fun p => p.endpoint.kind.isCache ∧ p.router = r) =
      (places.filter fun p => p.endpoint.kind.isCache).filter fun p => p.router = r := by
    rw [List.filter_filter]
    apply List.filter_congr
    intro p _
    rw [Bool.decide_and, Bool.decide_eq_true, Bool.and_comm]
  rw [cachesAt, hsplit, hcaches]
  by_cases hshare : cacheShare endpoints routers = 0
  · -- shares are empty only where there are no caches
    have hall : routers * cacheShare endpoints routers = (cachesOf endpoints).length :=
      Nat.mul_div_cancel' (Nat.dvd_of_mod_eq_zero heven)
    rw [hshare, Nat.mul_zero, eq_comm, List.length_eq_zero_iff] at hall
    rw [hall, List.drop_nil, List.take_nil]
    rfl
  · rw [← filter_zipIdx_share _ (Nat.pos_of_ne_zero hshare), placeEach, List.filter_map, List.map_map]
    rfl

theorem concentrated_of_place (h : Rule.place (.concentrate directories) endpoints routers = .ok places) :
    Concentrated endpoints routers directories places := by
  have hconcentrate : concentrate endpoints routers directories = .ok places :=
    (ite_error_eq_ok.mp h).2
  obtain ⟨heven, hfits, -⟩ := concentrate_cases hconcentrate
  obtain ⟨-, hdirectories, hdmas⟩ := filter_concentrate hconcentrate
  have hshare := cachesAt_of_concentrate hconcentrate
  exact {
    order := endpoints_of_concentrate hconcentrate
    perm := Rule.place_perm h
    share := fun r _ => hshare r
    length_share := by
      intro r hr
      rw [hshare, List.length_take, List.length_drop, Nat.min_eq_left]
      have hall : routers * cacheShare endpoints routers = (cachesOf endpoints).length :=
        Nat.mul_div_cancel' (Nat.dvd_of_mod_eq_zero heven)
      have hle : (r + 1) * cacheShare endpoints routers ≤ routers * cacheShare endpoints routers :=
        Nat.mul_le_mul_right _ hr
      rw [Nat.succ_mul] at hle
      omega
    strided := hdirectories
    apart := by
      rw [hdirectories, map_router_placeEach]
      by_cases hnone : (directoriesOf endpoints).length = 0
      · rw [hnone]
        exact List.nodup_nil
      · have hstride := stride_pos_of_strideFits hfits hnone
        exact List.nodup_range.map fun i j hij => Nat.eq_of_mul_eq_mul_right hstride hij
    dma := by
      intro p hp hkind
      have hmem : p ∈ places.filter fun p => p.endpoint.kind = .dma :=
        List.mem_filter.mpr ⟨hp, decide_eq_true hkind⟩
      rw [hdmas] at hmem
      obtain ⟨-, -, hrouter⟩ := exists_of_mem_placeEach hmem
      exact hrouter
    router_lt := Rule.router_lt_of_place h }

/-! ## Main statement -/

/-- **Concentration** of at most `2 ^ 32` endpoints succeeds exactly if every router can have
    an equal share of the caches, there are no more directories than caches, and these fit at
    the stride that the configured number of them sets. -/
theorem concentrate_shares {endpoints : List Endpoint} {routers : Nat} (directories : Nat)
    (hrouters : 0 < routers) (hlength : endpoints.length ≤ 2 ^ 32) :
    let caches := (cachesOf endpoints).length
    let present := (directoriesOf endpoints).length
    ((∃ places, Rule.place (.concentrate directories) endpoints routers = .ok places) ↔
        routers ∣ caches ∧ present ≤ caches ∧
          (present = 0 ∨ (1 ≤ directories ∧ directories ≤ routers ∧
            (present - 1) * (routers / directories) < routers))) ∧
      (∀ error, Rule.place (.concentrate directories) endpoints routers = .error error ↔
        Check.firstRefusal? (shareChecks endpoints routers directories) = some error) ∧
      ∀ places, Rule.place (.concentrate directories) endpoints routers = .ok places →
        Concentrated endpoints routers directories places := by
  have hplace : Rule.place (.concentrate directories) endpoints routers =
      concentrate endpoints routers directories := if_neg (by omega)
  have hgoverned := concentrate_governed hrouters fun hdvd hle =>
    directory_places_lt hlength hdvd hle directories
  refine ⟨?_, fun error => ?_, fun places h => concentrated_of_place h⟩
  · rw [hplace, hgoverned.exists_ok_iff]
    simp [shareChecks]
  · rw [hplace, hgoverned.eq_error_iff]

/-- Endpoints of all kinds, in no order. -/
def mixedEndpoints : List Endpoint :=
  [⟨7, .dma⟩, ⟨3, .l2Cache⟩, ⟨4, .l1Cache⟩, ⟨9, .directory⟩, ⟨1, .l1Cache⟩, ⟨0, .directory⟩,
    ⟨2, .l2Cache⟩]

/-- Four routers share four caches of either level, in order; three cannot. -/
theorem concentrate_shares_mixed :
    (∃ places, Rule.place (.concentrate 2) mixedEndpoints 4 = .ok places ∧
      Concentrated mixedEndpoints 4 2 places ∧ cachesAt places 2 = [⟨1, .l1Cache⟩]) ∧
    Rule.place (.concentrate 2) mixedEndpoints 3 = .error (.unevenCaches 4 3) := by
  have hlength : mixedEndpoints.length ≤ 2 ^ 32 := by decide
  obtain ⟨hok, -, hconcentrated⟩ := concentrate_shares 2 (show 0 < 4 by decide) hlength
  obtain ⟨-, herror, -⟩ := concentrate_shares 2 (show 0 < 3 by decide) hlength
  obtain ⟨places, hplaces⟩ := hok.mpr (by decide)
  have hplaced := hconcentrated places hplaces
  exact ⟨⟨places, hplaces, hplaced, hplaced.share 2 (by decide)⟩, (herror _).mpr (by decide)⟩

end Interconnect.Placement
