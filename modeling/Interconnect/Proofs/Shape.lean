import Interconnect.Command.Shape
import Interconnect.Proofs.Outcome

/-! # Shapes and the population that comes with them

    A shape asks for a directory at every router. With a cache for every cpu, this population
    can be placed on any grid that the shape is accepted with:

    * dealt out, caches and directories fill two rounds, so that only DMA engines are left over;
    * concentrated, every router has its share of the caches, and directories stand on all
      routers, at a stride of one.

    `Shape.synthesize_apply` is the main statement: it is the sizing alone that decides, as long
    as the network is not too large to be held.
-/

namespace Interconnect

open Placement (cachesOf directoriesOf)

/-! ## The usual population -/

namespace Endpoint

variable {caches directories dmas : Nat}

theorem map_kind_population (caches directories dmas : Nat) :
    (population caches directories dmas).map (·.kind) =
      List.replicate caches Kind.l1Cache ++ List.replicate directories .directory ++
        List.replicate dmas .dma := by
  rw [population, List.map_map]
  exact List.zipIdx_map_fst 0 _

theorem length_population : (population caches directories dmas).length =
    caches + directories + dmas := by
  rw [← List.length_map (f := Endpoint.kind), map_kind_population, List.length_append,
    List.length_append, List.length_replicate, List.length_replicate, List.length_replicate]

theorem length_cachesOf_population :
    (cachesOf (population caches directories dmas)).length = caches := by
  have hcount : (cachesOf (population caches directories dmas)).length =
      ((population caches directories dmas).map (·.kind)).countP Kind.isCache := by
    rw [List.countP_map, List.countP_eq_length_filter]
    rfl
  rw [hcount, map_kind_population]
  simp [List.countP_replicate, Kind.isCache]

theorem length_directoriesOf_population :
    (directoriesOf (population caches directories dmas)).length = directories := by
  have hcount : (directoriesOf (population caches directories dmas)).length =
      ((population caches directories dmas).map (·.kind)).countP (· = .directory) := by
    rw [List.countP_map, List.countP_eq_length_filter]
    rfl
  rw [hcount, map_kind_population]
  simp [List.countP_replicate]

/-- Behind the caches and the directories, there are DMA engines only. -/
theorem eq_dma_of_mem_drop_population {n : Nat} (hn : caches + directories ≤ n) {e : Endpoint}
    (he : e ∈ (population caches directories dmas).drop n) : e.kind = .dma := by
  have hkind := List.mem_map_of_mem (f := Endpoint.kind) he
  have hfront : (List.replicate caches Kind.l1Cache ++
      List.replicate directories Kind.directory).length ≤ n := by simpa using hn
  rw [List.map_drop, map_kind_population, List.drop_append, List.drop_eq_nil_of_le hfront,
    List.nil_append] at hkind
  exact List.eq_of_mem_replicate (List.mem_of_mem_drop hkind)

theorem populate_ok_iff {endpoints : List Endpoint} :
    populate caches directories dmas = .ok endpoints ↔
      (caches + directories + dmas) * bytes < Word.block ∧
        endpoints = population caches directories dmas := by
  simp only [populate, bind_eq_ok, Word.length_ok_iff, pure_eq_ok]
  constructor
  · intro h
    obtain ⟨_, ⟨hlt, -⟩, rfl⟩ := h
    exact ⟨hlt, rfl⟩
  · intro h
    exact ⟨_, ⟨h.1, rfl⟩, h.2.symm⟩

end Endpoint

namespace Placement

/-- Dealt out, caches and directories fill two rounds. -/
theorem leftoverChecks_population {routers : Nat} (dmas : Nat) (h : 0 < routers) :
    ∀ check ∈ leftoverChecks (Endpoint.population routers routers dmas) routers, check.holds := by
  rw [leftoverChecks, List.forall_mem_map]
  intro e he
  refine decide_eq_true (Endpoint.eq_dma_of_mem_drop_population ?_ he)
  have hrounds : 2 ≤ (routers + routers + dmas) / routers := by
    rw [Nat.le_div_iff_mul_le h]
    omega
  rw [Endpoint.length_population]
  calc routers + routers = 2 * routers := (Nat.two_mul routers).symm
    _ ≤ (routers + routers + dmas) / routers * routers := Nat.mul_le_mul_right routers hrounds

/-- Concentrated, equal shares of the caches have one directory each. -/
theorem shareChecks_population {caches routers : Nat} (dmas : Nat) (hcaches : 0 < caches)
    (hdvd : routers ∣ caches) :
    ∀ check ∈ shareChecks (Endpoint.population caches routers dmas) routers routers,
      check.holds := by
  have hpos : 0 < routers := Nat.pos_of_dvd_of_pos hdvd hcaches
  have hle : routers ≤ caches := Nat.le_of_dvd hcaches hdvd
  have hlast : (routers - 1) * (routers / routers) < routers := by
    rw [Nat.div_self hpos, Nat.mul_one]
    omega
  simp only [shareChecks, Endpoint.length_cachesOf_population,
    Endpoint.length_directoriesOf_population, List.forall_mem_cons, List.not_mem_nil,
    false_implies, implies_true, and_true, decide_eq_true_eq]
  exact ⟨hdvd, hle, .inr ⟨hpos, Nat.le_refl _, hlast⟩⟩

end Placement

/-! ## Sizings -/

/-- A refusal of the placement of endpoints. -/
def SynthesisError.IsPlacement : SynthesisError → Prop
  | unevenCaches .. | tooManyDirectories .. | invalidDirectoryStride .. | unexpectedLeftover .. => True
  | _ => False

/-- A refusal of a network that is too large for a list or for a graph. -/
def SynthesisError.IsOverflow : SynthesisError → Prop
  | fault .capacityOverflow | fault .nodeOverflow | fault .edgeOverflow => True
  | _ => False

namespace Configuration

variable {c : Configuration}

/-- No check of a grid is about endpoints or about size. -/
theorem refusal_of_mem_gridChecks :
    ∀ k ∈ c.gridChecks, ¬ k.refusal.IsPlacement ∧ ¬ k.refusal.IsOverflow := by
  unfold gridChecks
  cases c.family <;>
    simp [Grid.rowChecks, extentChecks, concentrationChecks, SynthesisError.IsPlacement,
      SynthesisError.IsOverflow]

/-- All limits are about size. -/
theorem refusal_of_mem_limits {endpoints : List Endpoint} :
    ∀ k ∈ c.limits endpoints, ¬ k.refusal.IsPlacement ∧ k.refusal.IsOverflow := by
  simp [limits, listLimits, graphLimits, SynthesisError.IsPlacement, SynthesisError.IsOverflow]

end Configuration

theorem Grid.rowChecks_iff {rows routers : Nat} (h : 0 < routers) :
    (∀ k ∈ rowChecks rows routers, k.holds) ↔ 0 < rows ∧ rows ∣ routers := by
  have hle : rows ∣ routers → rows ≤ routers := Nat.le_of_dvd h
  simp only [rowChecks, List.forall_mem_cons, List.not_mem_nil, false_implies, implies_true,
    and_true, decide_eq_true_eq]
  constructor
  · intro hchecks
    exact ⟨hchecks.1.1, hchecks.2⟩
  · intro hrows
    exact ⟨⟨hrows.1, hle hrows.2⟩, hrows.2⟩

theorem Configuration.concentrationChecks_iff {c : Configuration} :
    (∀ k ∈ c.concentrationChecks, k.holds) ↔
      0 < c.numCpus.toNat ∧ 0 < c.concentrationFactor.toNat ∧
        c.concentrationFactor.toNat ∣ c.numCpus.toNat := by
  simp only [concentrationChecks, List.forall_mem_cons, List.not_mem_nil, false_implies,
    implies_true, and_true, decide_eq_true_eq]
  constructor
  · intro hchecks
    obtain ⟨⟨hpos, hdvd⟩, hrouters⟩ := hchecks
    exact ⟨Nat.lt_of_lt_of_le hrouters (Nat.div_le_self _ _), hpos, hdvd⟩
  · intro hsizes
    obtain ⟨hcpus, hpos, hdvd⟩ := hsizes
    exact ⟨⟨hpos, hdvd⟩, Nat.div_pos (Nat.le_of_dvd hcpus hdvd) hpos⟩

theorem Configuration.extentChecks_iff {rows cols : Nat} :
    (∀ k ∈ extentChecks rows cols, k.holds) ↔ (2 ∣ rows ∧ 2 ∣ cols) ∧ 4 ≤ rows ∧ 4 ≤ cols := by
  simp only [extentChecks, List.forall_mem_cons, List.not_mem_nil, false_implies, implies_true,
    and_true, decide_eq_true_eq]

/-- What a family that concentrates its cpus on a grid is checked for. -/
theorem Configuration.concentratedChecks_iff {c : Configuration} {rows : Nat} :
    (∀ k ∈ c.concentrationChecks ++
        Grid.rowChecks rows (c.numCpus.toNat / c.concentrationFactor.toNat), k.holds) ↔
      0 < c.numCpus.toNat ∧ 0 < c.concentrationFactor.toNat ∧
        c.concentrationFactor.toNat ∣ c.numCpus.toNat ∧
        0 < rows ∧ rows ∣ c.numCpus.toNat / c.concentrationFactor.toNat := by
  rw [List.forall_mem_append, concentrationChecks_iff, and_assoc, and_assoc]
  refine and_congr_right fun hcpus => and_congr_right fun hpos => and_congr_right fun hdvd => ?_
  exact Grid.rowChecks_iff (Nat.div_pos (Nat.le_of_dvd hcpus hdvd) hpos)

namespace Shape

/-- A sizing that can be built. -/
def Valid : Shape → Prop
  | mesh cpus rows => 0 < cpus.toNat ∧ 0 < rows.toNat ∧ rows.toNat ∣ cpus.toNat
  | ring cpus k =>
    0 < k.toNat ∧ k.toNat ∣ cpus.toNat ∧
      2 ∣ cpus.toNat / k.toNat ∧ 4 ≤ cpus.toNat / k.toNat
  | full cpus rows k | flattenedButterfly cpus rows k =>
    0 < cpus.toNat ∧ 0 < k.toNat ∧ k.toNat ∣ cpus.toNat ∧
      0 < rows.toNat ∧ rows.toNat ∣ cpus.toNat / k.toNat
  | hierarchicalRing cpus rows =>
    rows.toNat ∣ cpus.toNat ∧ 2 ∣ rows.toNat ∧ 4 ≤ rows.toNat ∧
      2 ∣ cpus.toNat / rows.toNat ∧ 4 ≤ cpus.toNat / rows.toNat

instance : DecidablePred Valid
  | mesh .. => inferInstanceAs (Decidable (_ ∧ _))
  | ring .. => inferInstanceAs (Decidable (_ ∧ _))
  | full .. => inferInstanceAs (Decidable (_ ∧ _))
  | flattenedButterfly .. => inferInstanceAs (Decidable (_ ∧ _))
  | hierarchicalRing .. => inferInstanceAs (Decidable (_ ∧ _))

variable (s : Shape) (c : Configuration)

/-- The checks of a shape's grid hold exactly if its sizing is valid. -/
theorem gridChecks_iff : (∀ check ∈ (s.apply c).gridChecks, check.holds) ↔ s.Valid := by
  cases s with
  | mesh cpus rows =>
    show (∀ check ∈ ⟨0 < cpus.toNat, .noRouters⟩ :: Grid.rowChecks rows.toNat cpus.toNat,
      check.holds) ↔ _
    rw [List.forall_mem_cons, decide_eq_true_iff]
    exact and_congr_right Grid.rowChecks_iff
  | ring cpus k =>
    show (∀ check ∈ ((ring cpus k).apply c).concentrationChecks ++
      [⟨2 ∣ cpus.toNat / k.toNat, .oddRouterCount (cpus.toNat / k.toNat)⟩,
        ⟨4 ≤ cpus.toNat / k.toNat, .ringTooSmall (cpus.toNat / k.toNat)⟩], check.holds) ↔ _
    rw [List.forall_mem_append, Configuration.concentrationChecks_iff, List.forall_mem_cons,
      List.forall_mem_singleton, decide_eq_true_iff, decide_eq_true_iff]
    constructor
    · intro h
      obtain ⟨⟨-, hpos, hdvd⟩, heven, hfour⟩ := h
      exact ⟨hpos, hdvd, heven, hfour⟩
    · intro h
      obtain ⟨hpos, hdvd, heven, hfour⟩ := h
      have hle : cpus.toNat / k.toNat ≤ cpus.toNat := Nat.div_le_self _ _
      have hcpus : 0 < cpus.toNat := by omega
      exact ⟨⟨hcpus, hpos, hdvd⟩, heven, hfour⟩
  | full cpus rows k => exact Configuration.concentratedChecks_iff
  | flattenedButterfly cpus rows k => exact Configuration.concentratedChecks_iff
  | hierarchicalRing cpus rows =>
    show (∀ check ∈ (⟨0 < cpus.toNat, .noRouters⟩ :: Grid.rowChecks rows.toNat cpus.toNat) ++
      Configuration.extentChecks rows.toNat (cpus.toNat / rows.toNat), check.holds) ↔ _
    rw [List.forall_mem_append, List.forall_mem_cons, decide_eq_true_iff,
      and_congr_right Grid.rowChecks_iff, Configuration.extentChecks_iff]
    constructor
    · intro h
      obtain ⟨⟨-, -, hdvd⟩, ⟨hrows, hcols⟩, hrows', hcols'⟩ := h
      exact ⟨hdvd, hrows, hrows', hcols, hcols'⟩
    · intro h
      obtain ⟨hdvd, hrows, hrows', hcols, hcols'⟩ := h
      have hle : cpus.toNat / rows.toNat ≤ cpus.toNat := Nat.div_le_self _ _
      have hcpus : 0 < cpus.toNat := by omega
      have hpos : 0 < rows.toNat := by omega
      exact ⟨⟨hcpus, hpos, hdvd⟩, ⟨hrows, hcols⟩, hrows', hcols'⟩

theorem routers_eq : (s.apply c).routers = s.cpus.toNat / s.concentration.toNat := by
  cases s with
  | mesh cpus rows => exact (Nat.div_one _).symm
  | hierarchicalRing cpus rows => exact (Nat.div_one _).symm
  | ring cpus k => rfl
  | full cpus rows k => rfl
  | flattenedButterfly cpus rows k => rfl

/-- A shape asks for a directory at every router. -/
theorem numDirs_eq (h : s.concentration ≠ 0) : (s.apply c).numDirs.toNat = (s.apply c).routers := by
  have hdirs : (s.apply c).numDirs = s.cpus / s.concentration := if_neg h
  rw [hdirs, UInt64.toNat_div, routers_eq]

/-- Directories stand on neighbouring routers, if there are routers at all. -/
theorem stride_le_one : (s.apply c).routers / (s.apply c).numDirs.toNat ≤ 1 := by
  by_cases hzero : s.concentration = 0
  · have hnone : (s.apply c).routers = 0 := by
      rw [routers_eq, hzero]
      exact Nat.div_zero _
    rw [hnone, Nat.zero_div]
    exact Nat.zero_le 1
  · rw [s.numDirs_eq c hzero]
    exact Nat.div_le_of_le_mul (Nat.le_of_eq (Nat.mul_one _).symm)

/-- The endpoints that come with a shape: a cache for every cpu, the directories that it asks
    for, and DMA engines. -/
def population (dmas : Nat) : List Endpoint :=
  Endpoint.population (s.apply c).numCpus.toNat (s.apply c).numDirs.toNat dmas

theorem fits {dmas : Nat}
    (h : ((s.apply c).numCpus.toNat + (s.apply c).numDirs.toNat + dmas) * Endpoint.bytes <
      Word.block) :
    (s.apply c).Fits (s.population c dmas) := by
  have hbound : Word.block < Word.bound := by decide
  simp only [Endpoint.bytes] at h
  constructor
  · rw [population, Endpoint.length_population]
    omega
  · intro _ _
    rw [population, Endpoint.length_directoriesOf_population]
    have hle := Nat.mul_le_mul_left (s.apply c).numDirs.toNat (s.stride_le_one c)
    omega

variable {s} in
theorem Valid.concentrates (h : s.Valid) :
    0 < s.cpus.toNat ∧ 0 < s.concentration.toNat ∧ s.concentration.toNat ∣ s.cpus.toNat := by
  cases s with
  | mesh cpus rows => exact ⟨h.1, Nat.one_pos, Nat.one_dvd _⟩
  | ring cpus k =>
    obtain ⟨hpos, hdvd, -, hfour⟩ := h
    have hle : cpus.toNat / k.toNat ≤ cpus.toNat := Nat.div_le_self _ _
    exact ⟨by show 0 < cpus.toNat; omega, hpos, hdvd⟩
  | full cpus rows k => exact ⟨h.1, h.2.1, h.2.2.1⟩
  | flattenedButterfly cpus rows k => exact ⟨h.1, h.2.1, h.2.2.1⟩
  | hierarchicalRing cpus rows =>
    obtain ⟨-, -, -, -, hfour⟩ := h
    have hle : cpus.toNat / rows.toNat ≤ cpus.toNat := Nat.div_le_self _ _
    exact ⟨by show 0 < cpus.toNat; omega, Nat.one_pos, Nat.one_dvd _⟩

/-- On a grid that is accepted, the population of the shape passes all checks. -/
theorem placementChecks_hold (dmas : Nat) (h : s.Valid) :
    ∀ check ∈ (s.apply c).placementChecks (s.population c dmas), check.holds := by
  obtain ⟨hcpus, hpos, hdvd⟩ := h.concentrates
  have hzero : s.concentration ≠ 0 := by
    rintro heq
    rw [heq] at hpos
    exact Nat.lt_irrefl 0 hpos
  have hdirs := s.numDirs_eq c hzero
  have hrouters := s.routers_eq c
  have hdvdRouters : (s.apply c).routers ∣ s.cpus.toNat := hrouters ▸ Nat.div_dvd_of_dvd hdvd
  have hposRouters : 0 < (s.apply c).routers := Nat.pos_of_dvd_of_pos hdvdRouters hcpus
  have hshare := Placement.shareChecks_population dmas hcpus hdvdRouters
  unfold Configuration.placementChecks population
  rw [hdirs]
  cases s with
  | mesh cpus rows => exact Placement.leftoverChecks_population dmas hposRouters
  | hierarchicalRing cpus rows => exact Placement.leftoverChecks_population dmas hposRouters
  | ring cpus k => exact hshare
  | full cpus rows k => exact hshare
  | flattenedButterfly cpus rows k => exact hshare

/-- The checks of a shape and its population are those of the grid. -/
theorem checks_iff (dmas : Nat) :
    (∀ check ∈ (s.apply c).checks (s.population c dmas), check.holds) ↔ s.Valid := by
  rw [Configuration.checks, List.forall_mem_append, s.gridChecks_iff c]
  exact ⟨fun h => h.1, fun h => ⟨h, s.placementChecks_hold c dmas h⟩⟩

/-- A synthesis that is refused is so for the grid, or else for its limits. -/
theorem refusal_cases {dmas : Nat} {e : SynthesisError}
    (h : Check.firstRefusal? ((s.apply c).checks (s.population c dmas) ++
      (s.apply c).limits (s.population c dmas)) = some e) :
    (¬ s.Valid ∧ ∃ k ∈ (s.apply c).gridChecks, k.refusal = e) ∨
      (s.Valid ∧ ∃ k ∈ (s.apply c).limits (s.population c dmas), k.refusal = e) := by
  rw [Check.firstRefusal?_append, Option.or_eq_some_iff] at h
  rcases h with hcheck | ⟨hchecks, hlimit⟩
  · have hinvalid : ¬ s.Valid := by
      rw [← s.checks_iff c dmas, ← Check.firstRefusal?_eq_none_iff, hcheck]
      exact Option.some_ne_none e
    refine .inl ⟨hinvalid, ?_⟩
    -- the checks of the grid are the first ones, and not all of them hold
    rw [Configuration.checks, Check.firstRefusal?_append, Option.or_eq_some_iff] at hcheck
    rcases hcheck with hgrid | ⟨hgrid, -⟩
    · exact Check.exists_of_firstRefusal? hgrid
    · rw [Check.firstRefusal?_eq_none_iff, s.gridChecks_iff c] at hgrid
      exact absurd hgrid hinvalid
  · rw [Check.firstRefusal?_eq_none_iff, s.checks_iff c dmas] at hchecks
    exact .inr ⟨hchecks, Check.exists_of_firstRefusal? hlimit⟩

end Shape

/-! ## Main statement -/

/-- **Shapes** with the population that comes with them: where this can be listed, no endpoint
    is a reason to refuse the synthesis, and it succeeds exactly if the sizing is valid and the
    network is not too large for its lists and its graph. A valid sizing is refused for nothing
    else than its size. -/
theorem Shape.synthesize_apply (s : Shape) (c : Configuration) (dmas : UInt64) :
    let count := (s.apply c).numCpus.toNat + (s.apply c).numDirs.toNat + dmas.toNat
    let population := Endpoint.populate (s.apply c).numCpus.toNat (s.apply c).numDirs.toNat
      dmas.toNat
    ((∃ endpoints, population = .ok endpoints) ↔ count * Endpoint.bytes < Word.block) ∧
    ∀ endpoints, population = .ok endpoints →
      (∀ e, synthesize (s.apply c) endpoints = .error e → ¬ e.IsPlacement) ∧
      ((∃ t, synthesize (s.apply c) endpoints = .ok t) ↔
        s.Valid ∧ count * ExternalLink.bytes < Word.block ∧
          (s.apply c).routers ≤ Graph.room ∧ (s.apply c).edges ≤ Graph.room) ∧
      ∀ e, synthesize (s.apply c) endpoints = .error e →
        (s.Valid ↔ e.IsOverflow) := by
  refine ⟨?_, fun endpoints h => ?_⟩
  · simp only [Endpoint.populate_ok_iff, exists_and_left, exists_eq, and_true]
  · obtain ⟨hlisted, rfl⟩ := Endpoint.populate_ok_iff.mp h
    have hgoverned := (s.fits c hlisted).synthesize_governed
    have hcases : ∀ e, synthesize (s.apply c) (s.population c dmas.toNat) = .error e → _ :=
      fun e he => s.refusal_cases c (hgoverned.eq_error_iff.mp he)
    refine ⟨fun e he hplacement => ?_, ?_, fun e he => ?_⟩
    · rcases hcases e he with ⟨-, k, hk, rfl⟩ | ⟨-, k, hk, rfl⟩
      · exact (Configuration.refusal_of_mem_gridChecks k hk).1 hplacement
      · exact (Configuration.refusal_of_mem_limits k hk).1 hplacement
    · show (∃ t, synthesize (s.apply c) (s.population c dmas.toNat) = .ok t) ↔ _
      rw [hgoverned.exists_ok_iff, List.forall_mem_append, s.checks_iff c,
        Configuration.limits_iff, population, Endpoint.length_population]
    · rcases hcases e he with ⟨hinvalid, k, hk, rfl⟩ | ⟨hvalid, k, hk, rfl⟩
      · exact iff_of_false hinvalid (Configuration.refusal_of_mem_gridChecks k hk).2
      · exact iff_of_true hvalid (Configuration.refusal_of_mem_limits k hk).2

/-- Eight routers for sixteen cpus are built over four rows, also with DMA engines; a ring of
    three routers is not built. -/
theorem Shape.synthesize_apply_eight :
    (∃ t, synthesize ((full 16 4 2).apply {}) (Endpoint.population 16 8 3) = .ok t) ∧
      ¬ ∃ t, synthesize ((ring 6 2).apply {}) (Endpoint.population 6 3 3) = .ok t := by
  obtain ⟨-, hfull⟩ := Shape.synthesize_apply (full 16 4 2) {} 3
  obtain ⟨-, hring⟩ := Shape.synthesize_apply (ring 6 2) {} 3
  constructor
  · exact (hfull _ rfl).2.1.mpr (by decide)
  · intro h
    have hvalid := ((hring _ rfl).2.1.mp h).1
    exact absurd hvalid (by decide)

/-- Valid sizings need not be built: no list holds `2 ^ 63` DMA engines for a single router, and
    no graph the edges between any two of 92683 routers. -/
theorem Shape.valid_unbuilt :
    ((mesh 1 1).Valid ∧
      ¬ ∃ endpoints t, Endpoint.populate ((mesh 1 1).apply {}).numCpus.toNat
          ((mesh 1 1).apply {}).numDirs.toNat (9223372036854775808 : UInt64).toNat = .ok endpoints ∧
        synthesize ((mesh 1 1).apply {}) endpoints = .ok t) ∧
    (full 92683 1 1).Valid ∧
      ∀ endpoints, ¬ ∃ t, synthesize ((full 92683 1 1).apply {}) endpoints = .ok t := by
  refine ⟨⟨by decide, ?_⟩, by decide, ?_⟩
  · rintro ⟨endpoints, t, hlisted, -⟩
    have hlt := (Endpoint.populate_ok_iff.mp hlisted).1
    exact absurd hlt (by decide)
  · rintro endpoints ⟨t, h⟩
    exact absurd (synthesize_edges_le h) (by decide)

end Interconnect
