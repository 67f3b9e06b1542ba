import Interconnect.Drawing
import Interconnect.Proofs.Synthesis
import Interconnect.Proofs.Wired

/-! # Syntheses that are accepted

    Once the grid and the placement are accepted, the wiring and the proposals made
    from it cannot fail: the numbers involved are below the number of routers, and no
    router is proposed to itself. `exists_synthesize` puts the steps together.
-/

namespace Interconnect

namespace Draft

variable {d : Draft}

/-- A proposal has ports if it is a direct hop or the grid has columns. -/
def HasPorts (d : Draft) (p : Proposal) : Prop :=
  p.dimension = .direct ∨ d.grid.cols ≠ 0

/-- An edge has no ports if it is direct, and those between its routers if it is not. -/
theorem HasPorts.ports_eq {p : Proposal} (h : d.HasPorts p) :
    d.ports p = .ok (if p.dimension = .direct then none
      else Port.facing? (d.family.spot d.grid p.source) (d.family.spot d.grid p.target)) := by
  unfold ports
  split
  · next hdirect => rw [if_pos hdirect]
  · next hdirect =>
    -- ports need only the positions of the routers, which every rank has
    have hcols : d.grid.cols ≠ 0 := h.resolve_left hdirect
    rw [Family.position_eq_ok hcols, Family.position_eq_ok hcols, if_neg hdirect]
    rfl

theorem HasPorts.portsOrNone_eq {p : Proposal} (h : d.HasPorts p) :
    d.portsOrNone p = if p.dimension = .direct then none
      else Port.facing? (d.family.spot d.grid p.source) (d.family.spot d.grid p.target) := by
  rw [portsOrNone, h.ports_eq]
  rfl

/-- Edges between distinct routers are all accepted or known. -/
theorem exists_proposeAll {proposals : List Proposal} (hports : ∀ p ∈ proposals, d.HasPorts p)
    (h : ∀ p ∈ proposals, p.source ≠ p.target) : ∃ d', d.proposeAll proposals = .ok d' := by
  induction proposals generalizing d with
  | nil => exact ⟨d, rfl⟩
  | cons p rest ih =>
    have hne := h p List.mem_cons_self
    have hrest := fun q hq => h q (List.mem_cons_of_mem p hq)
    have hrestPorts := fun q hq => hports q (List.mem_cons_of_mem p hq)
    have hhere := (hports p List.mem_cons_self).ports_eq
    cases hknown : d.knows p with
    | true =>
      obtain ⟨d', hd'⟩ := ih hrestPorts hrest
      refine ⟨d', ?_⟩
      rw [proposeAll, propose_of_mem hne hknown]
      exact hd'
    | false =>
      rw [proposeAll, propose_of_not_mem hne hknown hhere]
      exact ih hrestPorts hrest

end Draft

/-! ## Whole syntheses -/

section whole

variable {c : Configuration} {endpoints : List Endpoint} {g : Grid} {placements : List Placement}

theorem Sizing.ofConfiguration_eq_ok (hgrid : c.grid = .ok g)
    (hplaced : c.placementRule.place endpoints (g.rows * g.cols) = .ok placements)
    (hlisted : endpoints.length * Placement.bytes < Word.block) :
    Sizing.ofConfiguration c endpoints = .ok ⟨g, placements⟩ := by
  have hsize : g.size = .ok (g.rows * g.cols) := Configuration.size_eq_ok hgrid
  simp only [Sizing.ofConfiguration, bind_eq_ok, liftM_eq_ok, pure_eq_ok]
  exact ⟨g, hgrid, _, hsize, placements, hplaced, _, Word.length_eq_ok hlisted, rfl⟩

theorem Sizing.routers_eq_ok {s : Sizing} {n : Nat} (hsize : s.grid.size = .ok n)
    (hrouters : n * Router.bytes < Word.block)
    (hlinks : s.placements.length * ExternalLink.bytes < Word.block) : s.routers = .ok n := by
  simp only [Sizing.routers, bind_eq_ok, pure_eq_ok]
  exact ⟨n, hsize, n, Word.length_eq_ok hrouters, _, Word.length_eq_ok hlinks, rfl⟩

/-- Routers that can be listed are wired and put together. -/
theorem exists_compose (placements : List Placement) (hgrid : c.grid = .ok g)
    (hrouters : g.rows * g.cols < Word.block) :
    ∃ wiring, c.family.wiring g = .ok wiring ∧
      ∃ t, Topology.compose c ⟨g, placements⟩ wiring = .ok t := by
  obtain ⟨wiring, hwired, hdistinct⟩ := Configuration.exists_wiring hgrid hrouters
  have hcols : g.cols ≠ 0 := by
    have := Configuration.grid_pos hgrid
    omega
  obtain ⟨draft, hdraft⟩ := Draft.exists_proposeAll (d := .start c.family g c.linkLatency.toNat
    (Topology.attach c.linkLatency.toNat placements).length) (fun _ _ => .inr hcols) hdistinct
  refine ⟨wiring, hwired, ?_⟩
  simp only [Topology.compose, bind_eq_ok, pure_eq_ok]
  exact ⟨_, draft, hdraft, _, Configuration.size_eq_ok hgrid, rfl⟩

/-- An accepted grid and an accepted placement make an accepted synthesis, if the network is
    small: were all pairs of routers joined, and both ways, there would be an index left. -/
theorem exists_synthesize (hgrid : c.grid = .ok g)
    (hsmall : (g.rows * g.cols) * (g.rows * g.cols) ≤ Graph.room)
    (hendpoints : endpoints.length ≤ Graph.room)
    (hplaced : c.placementRule.place endpoints (g.rows * g.cols) = .ok placements) :
    ∃ t, synthesize c endpoints = .ok t := by
  have hrouters : g.rows * g.cols ≤ Graph.room := Nat.le_trans (Nat.le_mul_self _) hsmall
  have hlength : placements.length = endpoints.length := Placement.Rule.length_of_place hplaced
  -- no entry of a list takes more than an external link
  have hlisted : ∀ n ≤ Graph.room, ∀ bytes ≤ ExternalLink.bytes, n * bytes < Word.block :=
    fun n hn bytes hbytes => Nat.lt_of_le_of_lt (Nat.mul_le_mul hn hbytes) (by decide)
  have hsizing : Sizing.ofConfiguration c endpoints = .ok ⟨g, placements⟩ :=
    Sizing.ofConfiguration_eq_ok hgrid hplaced (hlisted _ hendpoints _ (by decide))
  have hcounted : Sizing.routers ⟨g, placements⟩ = .ok (g.rows * g.cols) :=
    Sizing.routers_eq_ok (Configuration.size_eq_ok hgrid) (hlisted _ hrouters _ (by decide))
      (hlisted _ (hlength ▸ hendpoints) _ (by decide))
  obtain ⟨wiring, hwired, t, hcompose⟩ := exists_compose placements hgrid
    (Nat.lt_of_le_of_lt hrouters (by decide))
  have s := Topology.compose_stages hsizing hwired hcompose
  obtain rfl : t.grid = g := Except.ok.inj (s.grid.symm.trans hgrid)
  have hindexed : t.indexed = .ok t := by
    refine Topology.indexed_eq_ok_iff.mpr ⟨?_, ?_, rfl⟩
    · rw [s.length_routers]
      exact hrouters
    · exact Nat.le_trans s.length_edges_le hsmall
  simp only [synthesize, Topology.assemble, bind_eq_ok, liftM_eq_ok]
  exact ⟨t, _, hsizing, _, hcounted, wiring, hwired, t, hcompose, hindexed⟩

end whole

/-- Whatever its family, a network with all other settings left as they are is accepted
    with sixteen caches. -/
theorem exists_synthesize_sixteen (family : Family) :
    ∃ t, synthesize { family } (Endpoint.population 16 0 0) = .ok t := by
  cases family with
  | mesh => exact exists_synthesize (g := ⟨4, 4⟩) rfl (by decide) (by decide) rfl
  | ring => exact exists_synthesize (g := ⟨2, 8⟩) rfl (by decide) (by decide) rfl
  | fullyConnected => exact exists_synthesize (g := ⟨4, 4⟩) rfl (by decide) (by decide) rfl
  | flattenedButterfly => exact exists_synthesize (g := ⟨4, 4⟩) rfl (by decide) (by decide) rfl
  | hierarchicalRing => exact exists_synthesize (g := ⟨4, 4⟩) rfl (by decide) (by decide) rfl

/-- The smallest ring, with ranks by a policy. -/
def Configuration.fourRing (policy : Escape.RankPolicy) : Configuration :=
  { family := .ring, numCpus := 4, escapeRankPolicy := policy }

theorem Configuration.grid_fourRing (policy : Escape.RankPolicy) :
    (fourRing policy).grid = .ok ⟨2, 2⟩ := by
  cases policy with
  | segmentOrdinal => rfl
  | routerRank => rfl

/-- It is accepted with a cache at every router. -/
theorem exists_synthesize_fourRing (policy : Escape.RankPolicy) :
    ∃ t, synthesize (.fourRing policy) (Endpoint.population 4 0 0) = .ok t := by
  have hgrid := Configuration.grid_fourRing policy
  cases policy with
  | segmentOrdinal => exact exists_synthesize hgrid (by decide) (by decide) rfl
  | routerRank => exact exists_synthesize hgrid (by decide) (by decide) rfl

/-- The smallest hierarchical ring with an inner row pair. -/
def Configuration.sixByFour : Configuration :=
  { family := .hierarchicalRing, numCpus := 24, meshRows := 6 }

/-- It is accepted with a cache at every router and a DMA engine left over. -/
theorem exists_synthesize_sixByFour :
    ∃ t, synthesize .sixByFour (Endpoint.population 24 0 1) = .ok t :=
  exists_synthesize (g := ⟨6, 4⟩) rfl (by decide) (by decide) rfl

end Interconnect
