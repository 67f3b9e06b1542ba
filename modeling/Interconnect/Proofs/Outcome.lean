import Interconnect.Proofs.EdgeCount
import Interconnect.Proofs.Placement.Outcome

/-! # What a synthesis comes to

    A synthesis makes the checks of its family in a fixed order, those of the grid
    before those of the placement. It succeeds exactly if all of them hold, and is
    refused for the first that does not (`synthesize_outcome`).

    The checks are stated on the request alone, and each step of a synthesis is shown
    to be governed by its own. Behind the last check, only the size of the network can
    fail it: its lists must be held by memory, and its graph must have indices left. These
    limits are stated like the checks, and behind them (`Configuration.Fits.synthesize_governed`).
-/

namespace Interconnect

open Check (Governs)

/-! ## The checks of a request -/

/-- Rows of equal length, and no more of them than routers. -/
def Grid.rowChecks (rows routers : Nat) : List Check :=
  [⟨1 ≤ rows ∧ rows ≤ routers, .invalidRowCount rows routers⟩,
    ⟨rows ∣ routers, .unevenGrid rows routers⟩]

namespace Configuration

/-- There are routers, and each of them is shared by equally many cpus. -/
def concentrationChecks (c : Configuration) : List Check :=
  let cpus := c.numCpus.toNat
  let concentration := c.concentrationFactor.toNat
  [⟨0 < concentration ∧ concentration ∣ cpus, .concentrationMismatch cpus concentration⟩,
    ⟨0 < cpus / concentration, .noRouters⟩]

/-- The rows and the columns of a hierarchical ring are even in number, and then at
    least four. -/
def extentChecks (rows cols : Nat) : List Check :=
  [⟨2 ∣ rows ∧ 2 ∣ cols, .oddGrid rows cols⟩, ⟨4 ≤ rows ∧ 4 ≤ cols, .gridTooSmall rows cols⟩]

/-- The checks of the grid. -/
def gridChecks (c : Configuration) : List Check :=
  let rows := c.meshRows.toNat
  match c.family with
  | .mesh => ⟨0 < c.routers, .noRouters⟩ :: Grid.rowChecks rows c.routers
  | .hierarchicalRing =>
    ⟨0 < c.routers, .noRouters⟩ :: Grid.rowChecks rows c.routers ++
      extentChecks rows (c.routers / rows)
  | .ring =>
    c.concentrationChecks ++
      [⟨2 ∣ c.routers, .oddRouterCount c.routers⟩, ⟨4 ≤ c.routers, .ringTooSmall c.routers⟩]
  | .fullyConnected | .flattenedButterfly =>
    c.concentrationChecks ++ Grid.rowChecks rows c.routers

/-- The checks of the placement. -/
def placementChecks (c : Configuration) (endpoints : List Endpoint) : List Check :=
  match c.family with
  | .mesh | .hierarchicalRing => Placement.leftoverChecks endpoints c.routers
  | .ring | .fullyConnected | .flattenedButterfly =>
    Placement.shareChecks endpoints c.routers c.numDirs.toNat

/-- All checks of a request, in the order in which they are made. -/
def checks (c : Configuration) (endpoints : List Endpoint) : List Check :=
  c.gridChecks ++ c.placementChecks endpoints

/-- What the lists of placements, of routers and of external links can hold. -/
def listLimits (c : Configuration) (endpoints : List Endpoint) : List Check :=
  [⟨endpoints.length * Placement.bytes < Word.block, .fault .capacityOverflow⟩,
    ⟨c.routers * Router.bytes < Word.block, .fault .capacityOverflow⟩,
    ⟨endpoints.length * ExternalLink.bytes < Word.block, .fault .capacityOverflow⟩]

/-- What a graph has room for. -/
def graphLimits (c : Configuration) : List Check :=
  [⟨c.routers ≤ Graph.room, .fault .nodeOverflow⟩, ⟨c.edges ≤ Graph.room, .fault .edgeOverflow⟩]

/-- How large a network can be, behind all checks. -/
def limits (c : Configuration) (endpoints : List Endpoint) : List Check :=
  c.listLimits endpoints ++ c.graphLimits

end Configuration

/-! ## Grids -/

theorem Grid.ofRouters_governed (rows routers : Nat) :
    Governs (⟨0 < routers, .noRouters⟩ :: rowChecks rows routers) (ofRouters rows routers) := by
  refine .guard (by simp; omega) fun hrouters => ?_
  refine .guard (by simp; omega) fun hrows => ?_
  have hpos : rows ≠ 0 := by
    have := (of_decide_eq_true hrows).1
    omega
  refine .step (liftM_eq_ok.mpr (Word.rem_eq_ok hpos)) ?_
  refine .guard (by simp [Nat.dvd_iff_mod_eq_zero]) fun _ => ?_
  exact .step (liftM_eq_ok.mpr (Word.div_eq_ok hpos)) ⟨_, rfl⟩

namespace Configuration

variable {c : Configuration} {g : Grid}

theorem concentratedRouters_governed (c : Configuration) :
    Governs c.concentrationChecks c.concentratedRouters := by
  unfold concentratedRouters concentrationChecks
  by_cases hnone : c.concentrationFactor.toNat = 0
  · simp only [if_pos hnone]
    exact .refusal (by simp [hnone])
  · simp only [if_neg hnone]
    refine .step (liftM_eq_ok.mpr (Word.rem_eq_ok hnone)) ?_
    refine .guard (by simp [Nat.dvd_iff_mod_eq_zero]; omega) fun _ => ?_
    refine .step (liftM_eq_ok.mpr (Word.div_eq_ok hnone)) ?_
    exact .guard (by simp [Nat.pos_iff_ne_zero]) fun _ => ⟨_, rfl⟩

theorem ringRouters_governed (c : Configuration) :
    Governs (c.concentrationChecks ++
      [⟨2 ∣ c.numCpus.toNat / c.concentrationFactor.toNat,
          .oddRouterCount (c.numCpus.toNat / c.concentrationFactor.toNat)⟩,
        ⟨4 ≤ c.numCpus.toNat / c.concentrationFactor.toNat,
          .ringTooSmall (c.numCpus.toNat / c.concentrationFactor.toNat)⟩])
      c.ringRouters := by
  unfold ringRouters
  refine (concentratedRouters_governed c).bind fun routers hrouters => ?_
  rw [(concentratedRouters_cases hrouters).1]
  refine .guard (by simp [Nat.dvd_iff_mod_eq_zero]) fun _ => ?_
  exact .guard (by simp) fun _ => ⟨_, rfl⟩

/-- The grid of a hierarchical ring, whose columns are those of a mesh. -/
theorem hierarchicalGrid_governed (c : Configuration) :
    Governs (⟨0 < c.numCpus.toNat, .noRouters⟩ :: Grid.rowChecks c.meshRows.toNat c.numCpus.toNat ++
      extentChecks c.meshRows.toNat (c.numCpus.toNat / c.meshRows.toNat)) c.hierarchicalGrid := by
  unfold hierarchicalGrid
  refine (Grid.ofRouters_governed _ _).bind fun g hg => ?_
  obtain ⟨hpos, -, hrows, hsize⟩ := Grid.ofRouters_cases hg
  have hcols : g.cols = c.numCpus.toNat / c.meshRows.toNat := by
    rw [← hsize, ← hrows, Nat.mul_div_cancel_left _ hpos]
  rw [hrows, hcols]
  refine .guard (by simp [Nat.dvd_iff_mod_eq_zero]) fun _ => ?_
  exact .guard (by simp [leastExtent]) fun _ => ⟨_, rfl⟩

/-- The grid of a family that only concentrates its cpus. -/
theorem concentratedGrid_governed (c : Configuration) :
    Governs (c.concentrationChecks ++
        Grid.rowChecks c.meshRows.toNat (c.numCpus.toNat / c.concentrationFactor.toNat))
      (c.concentratedRouters >>= Grid.ofRouters c.meshRows.toNat) := by
  refine (concentratedRouters_governed c).bind fun routers hrouters => ?_
  obtain ⟨rfl, hpos⟩ := concentratedRouters_cases hrouters
  exact (Grid.ofRouters_governed _ _).of_cons (decide_eq_true hpos)

theorem grid_governed (c : Configuration) : Governs c.gridChecks c.grid := by
  unfold gridChecks grid routers
  cases c.family with
  | mesh => exact Grid.ofRouters_governed _ _
  | hierarchicalRing => exact hierarchicalGrid_governed c
  | ring =>
    -- a ring that passes its own checks can be laid over two rows
    dsimp only
    rw [← List.append_nil (_ ++ _)]
    refine (ringRouters_governed c).bind fun routers hrouters => ?_
    obtain ⟨heven, hfour⟩ := ringRouters_cases hrouters
    rw [Check.governs_nil_iff, (Grid.ofRouters_governed _ _).exists_ok_iff]
    have hdvd : 2 ∣ routers := Nat.dvd_of_mod_eq_zero heven
    simp [Grid.rowChecks, ringRows, hdvd]
    omega
  | fullyConnected => exact concentratedGrid_governed c
  | flattenedButterfly => exact concentratedGrid_governed c

end Configuration

/-! ## Lists and graphs -/

theorem Word.length_governed (bytes n : Nat) :
    Governs [⟨n * bytes < block, .fault .capacityOverflow⟩]
      (liftM (length bytes n) : Except SynthesisError Nat) := by
  by_cases h : n * bytes < block
  · rw [length_eq_ok h]
    exact Governs.cons (decide_eq_true h) ⟨n, rfl⟩
  · rw [length, if_neg h]
    exact Check.governs_error (decide_eq_false h)

theorem Topology.indexed_governed (t : Topology) :
    Governs [⟨t.routers.length ≤ Graph.room, .fault .nodeOverflow⟩,
      ⟨t.edges.length ≤ Graph.room, .fault .edgeOverflow⟩]
      (liftM t.indexed : Except SynthesisError Topology) := by
  unfold indexed
  by_cases hrouters : Graph.room < t.routers.length
  · rw [if_pos hrouters]
    exact Check.governs_error (decide_eq_false (Nat.not_le.mpr hrouters))
  · rw [if_neg hrouters]
    refine Governs.cons (decide_eq_true (Nat.not_lt.mp hrouters)) ?_
    by_cases hedges : Graph.room < t.edges.length
    · rw [if_pos hedges]
      exact Check.governs_error (decide_eq_false (Nat.not_le.mpr hedges))
    · rw [if_neg hedges]
      exact Governs.cons (decide_eq_true (Nat.not_lt.mp hedges)) ⟨t, rfl⟩

/-! ## Whole syntheses -/

section whole

variable {c : Configuration} {endpoints : List Endpoint} {g : Grid} {placements : List Placement}

/-- A request whose endpoints can be counted, and whose directories have places that are
    words. -/
structure Configuration.Fits (c : Configuration) (endpoints : List Endpoint) : Prop where
  length_lt : endpoints.length < Word.bound
  places_lt : c.routers ∣ (Placement.cachesOf endpoints).length →
    (Placement.directoriesOf endpoints).length ≤ (Placement.cachesOf endpoints).length →
    (Placement.directoriesOf endpoints).length * (c.routers / c.numDirs.toNat) < Word.bound

theorem Configuration.fits_of_le (hendpoints : endpoints.length ≤ 2 ^ 32) :
    c.Fits endpoints where
  length_lt := Nat.lt_of_le_of_lt hendpoints (by decide)
  places_lt hdvd hle := Placement.directory_places_lt hendpoints hdvd hle _

namespace Configuration.Fits

theorem place_governed (hfits : c.Fits endpoints) (hpos : 0 < c.routers) :
    Governs (c.placementChecks endpoints) (c.placementRule.place endpoints c.routers) := by
  have hstripe := Placement.stripe_governed hpos hfits.length_lt
  have hconcentrate : Governs (Placement.shareChecks endpoints c.routers c.numDirs.toNat)
      (Placement.concentrate endpoints c.routers c.numDirs.toNat) :=
    Placement.concentrate_governed hpos hfits.places_lt
  unfold placementChecks placementRule Placement.Rule.place
  rw [if_neg (by omega)]
  cases c.family with
  | mesh => exact hstripe
  | hierarchicalRing => exact hstripe
  | ring => exact hconcentrate
  | fullyConnected => exact hconcentrate
  | flattenedButterfly => exact hconcentrate

end Configuration.Fits

/-- A request without a grid is refused for what its grid is refused. -/
theorem synthesize_of_grid_error {e : SynthesisError} (h : c.grid = .error e) :
    synthesize c endpoints = .error e := by
  unfold synthesize Sizing.ofConfiguration
  rw [h]
  rfl

theorem synthesize_of_place_error {e : SynthesisError} (hgrid : c.grid = .ok g)
    (h : c.placementRule.place endpoints (g.rows * g.cols) = .error e) :
    synthesize c endpoints = .error e := by
  have hcells : (liftM g.size : Except SynthesisError Nat) = .ok (g.rows * g.cols) :=
    liftM_eq_ok.mpr (Configuration.size_eq_ok hgrid)
  unfold synthesize Sizing.ofConfiguration
  rw [hgrid, ok_bind, hcells, ok_bind, h]
  rfl

/-- Behind the checks of the placement, its list is all that a sizing can fail for. -/
theorem Sizing.ofConfiguration_governed (hgrid : c.grid = .ok g)
    (hplaced : c.placementRule.place endpoints (g.rows * g.cols) = .ok placements) :
    Governs [⟨endpoints.length * Placement.bytes < Word.block, .fault .capacityOverflow⟩]
      (Sizing.ofConfiguration c endpoints) := by
  unfold Sizing.ofConfiguration
  refine .step hgrid (.step (liftM_eq_ok.mpr (Configuration.size_eq_ok hgrid)) (.step hplaced ?_))
  exact (Word.length_governed _ _).last fun _ => ⟨_, rfl⟩

/-- Routers and external links each have a list. -/
theorem Sizing.routers_governed {n : Nat} {s : Sizing} (hsize : s.grid.size = .ok n) :
    Governs [⟨n * Router.bytes < Word.block, .fault .capacityOverflow⟩,
      ⟨s.placements.length * ExternalLink.bytes < Word.block, .fault .capacityOverflow⟩]
      (liftM s.routers : Except SynthesisError Nat) := by
  unfold Sizing.routers
  rw [hsize, ok_bind, liftM_bind]
  refine (Word.length_governed _ _).bind fun _ _ => ?_
  rw [liftM_bind]
  exact (Word.length_governed _ _).last fun _ => ⟨_, rfl⟩

/-- What is put together must have a graph. -/
theorem Topology.assemble_governed {wiring : Wiring}
    (hsizing : Sizing.ofConfiguration c endpoints = .ok ⟨g, placements⟩)
    (hwired : c.family.wiring g = .ok wiring) {t : Topology}
    (hcompose : Topology.compose c ⟨g, placements⟩ wiring = .ok t) :
    Governs c.graphLimits (liftM (Topology.assemble c ⟨g, placements⟩ wiring)) := by
  have s := Topology.compose_stages hsizing hwired hcompose
  rw [Topology.assemble, hcompose, ok_bind, Configuration.graphLimits, ← s.length_routers_eq,
    ← s.length_edges_eq]
  exact t.indexed_governed

/-- Behind its checks, a synthesis is governed by the limits of its network. -/
theorem synthesize_governed_of_placed (hgrid : c.grid = .ok g)
    (hplaced : c.placementRule.place endpoints (g.rows * g.cols) = .ok placements) :
    Governs (c.limits endpoints) (synthesize c endpoints) := by
  have hlength : placements.length = endpoints.length := Placement.Rule.length_of_place hplaced
  unfold synthesize
  refine (Sizing.ofConfiguration_governed hgrid hplaced).bind fun sizing hsizing => ?_
  obtain ⟨hgrid', hplaced'⟩ := Sizing.ofConfiguration_cases hsizing
  obtain ⟨g', placements'⟩ := sizing
  obtain rfl : g = g' := Except.ok.inj (hgrid.symm.trans hgrid')
  obtain rfl : placements = placements' := Except.ok.inj (hplaced.symm.trans hplaced')
  have hlists := Sizing.routers_governed (s := ⟨g, placements⟩) (Configuration.size_eq_ok hgrid)
  rw [hlength, Configuration.size_of_grid hgrid] at hlists
  refine hlists.bind fun routers hrouters => ?_
  -- the routers are listed, so that their ranks are far from the last word
  have hlisted : g.rows * g.cols < Word.block := by
    obtain ⟨rfl, hlist, -⟩ := Sizing.routers_cases (liftM_eq_ok.mp hrouters)
    exact Nat.lt_of_le_of_lt (Nat.le_mul_of_pos_right _ (by decide)) hlist
  obtain ⟨wiring, hwired, t, hcompose⟩ := exists_compose placements hgrid hlisted
  exact .step hwired (Topology.assemble_governed hsizing hwired hcompose)

/-- A synthesis is governed by the checks of its request, and behind them by the limits of
    its network. -/
theorem Configuration.Fits.synthesize_governed (hfits : c.Fits endpoints) :
    Governs (c.checks endpoints ++ c.limits endpoints) (synthesize c endpoints) := by
  rw [checks, List.append_assoc]
  refine (Configuration.grid_governed c).append (fun e => synthesize_of_grid_error) ?_
  intro g hgrid
  have hcells := Configuration.size_of_grid hgrid
  have hpos : 0 < c.routers := by
    obtain ⟨hrows, hcols⟩ := Configuration.grid_pos hgrid
    rw [← hcells]
    exact Nat.mul_pos hrows hcols
  have hplace := hfits.place_governed hpos
  rw [← hcells] at hplace
  exact hplace.append (fun e => synthesize_of_place_error hgrid) fun placements hplaced =>
    synthesize_governed_of_placed hgrid hplaced

/-- Of the lists, that of the external links is the first to be too long: a placement takes
    less than a link, and what a graph has room for is far less than a list. -/
theorem Configuration.limits_iff :
    (∀ k ∈ c.limits endpoints, k.holds) ↔
      endpoints.length * ExternalLink.bytes < Word.block ∧
        c.routers ≤ Graph.room ∧ c.edges ≤ Graph.room := by
  have hroom : Graph.room * Router.bytes < Word.block := by decide
  simp only [limits, listLimits, graphLimits, List.cons_append, List.nil_append,
    List.forall_mem_cons, List.not_mem_nil, false_implies, implies_true, and_true,
    decide_eq_true_eq]
  simp only [Placement.bytes, Endpoint.bytes, Router.bytes, ExternalLink.bytes] at hroom ⊢
  constructor
  · intro h
    exact h.2.2
  · intro h
    exact ⟨by omega, by omega, h⟩

theorem synthesize_governed (hendpoints : endpoints.length ≤ 2 ^ 32)
    (hrouters : c.grid.isOk → c.routers ≤ Graph.room)
    (hedges : c.grid.isOk → c.edges ≤ Graph.room) :
    Governs (c.checks endpoints) (synthesize c endpoints) := by
  refine (Configuration.fits_of_le hendpoints).synthesize_governed.of_append fun hchecks => ?_
  -- where the checks of the grid hold, there is one
  have hgrid : c.grid.isOk := by
    obtain ⟨g, hg⟩ := (Configuration.grid_governed c).exists_ok_iff.mpr
      fun k hk => hchecks k (List.mem_append_left _ hk)
    rw [hg]
    rfl
  have hlinks : 2 ^ 32 * ExternalLink.bytes < Word.block := by decide
  refine Configuration.limits_iff.mpr ⟨?_, hrouters hgrid, hedges hgrid⟩
  exact Nat.lt_of_le_of_lt (Nat.mul_le_mul_right _ hendpoints) hlinks

end whole

/-! ## Main statement -/

/-- **Outcomes**: for at most `2 ^ 32` endpoints, and as long as routers and edges can have
    32-bit indices, a synthesis succeeds exactly if all checks of its request hold, and
    otherwise it is refused for the first of them that is violated. -/
theorem synthesize_outcome {c : Configuration} {endpoints : List Endpoint}
    (hendpoints : endpoints.length ≤ 2 ^ 32) (hrouters : c.grid.isOk → c.routers ≤ Graph.room)
    (hedges : c.grid.isOk → c.edges ≤ Graph.room) :
    ((∃ t, synthesize c endpoints = .ok t) ↔ ∀ k ∈ c.checks endpoints, k.holds) ∧
      ∀ e, synthesize c endpoints = .error e ↔
        Check.firstRefusal? (c.checks endpoints) = some e := by
  have hgoverned := synthesize_governed hendpoints hrouters hedges
  exact ⟨hgoverned.exists_ok_iff, fun e => hgoverned.eq_error_iff⟩

/-- A hierarchical ring of six rows takes a cache at every router and a DMA engine left
    over, but no cache left over. -/
theorem synthesize_outcome_sixByFour :
    (∃ t, synthesize .sixByFour (Endpoint.population 24 0 1) = .ok t) ∧
      synthesize .sixByFour (Endpoint.population 25 0 0) =
        .error (.unexpectedLeftover 24 .l1Cache) := by
  have hrouters : Configuration.sixByFour.routers ≤ Graph.room := by decide
  have hedges : Configuration.sixByFour.edges ≤ Graph.room := by decide
  constructor
  · exact (synthesize_outcome (by decide) (fun _ => hrouters) fun _ => hedges).1.mpr (by decide)
  · exact ((synthesize_outcome (by decide) (fun _ => hrouters) fun _ => hedges).2 _).mpr
      (by decide)

end Interconnect
