import Interconnect.Proofs.Accepted
import Mathlib.Data.List.Infix

/-! # The first proposal wins

    A draft may be asked for the same edge any number of times, from either end and in
    different dimensions.

    * The first proposal of an edge is accepted, and every later one is turned down and
      leaves the draft as it is.
    * The links of the draft are those of the first proposals, in order: each of them has its
      own ends and ports and the weight of its own dimension, and is followed by its reverse,
      which has the same latency and weight, and ends and ports the other way round.

    `proposeAll_collects` is the main statement, about any list of proposals between
    different routers.
-/

namespace Interconnect

/-! ## First proposals -/

namespace Proposal

/-- Two proposals ask for an edge between the same two routers, whichever way round. -/
def SameEdge (p q : Proposal) : Prop :=
  (p.source = q.source ∧ p.target = q.target) ∨ (p.source = q.target ∧ p.target = q.source)

instance (p q : Proposal) : Decidable (p.SameEdge q) :=
  inferInstanceAs (Decidable (_ ∨ _))

/-- The proposals whose edge none before them asks for, in order. -/
def firsts (ps : List Proposal) : List Proposal :=
  ((ps.inits.zip ps).filter fun (before, p) => ∀ q ∈ before, ¬ q.SameEdge p).map (·.2)

/-- The ports by which an edge leaves its first router and enters its second one: none for a
    direct hop, else as the positions of the routers face each other. -/
def portsOn (p : Proposal) (family : Family) (g : Grid) : Option (Port × Port) :=
  if p.dimension = .direct then none
  else Port.facing? (family.spot g p.source) (family.spot g p.target)

/-- The two links of an edge with given ports, numbered on from an id. -/
def pair (p : Proposal) (ports : Option (Port × Port)) (latency id : Nat) : List InternalLink :=
  [{ id
     source := p.source
     target := p.target
     sourcePort := ports.map (·.1)
     targetPort := ports.map (·.2)
     latency
     weight := p.dimension.weight
     escape := none },
   { id := id + 1
     source := p.target
     target := p.source
     sourcePort := ports.map (·.2)
     targetPort := ports.map (·.1)
     latency
     weight := p.dimension.weight
     escape := none }]

variable {p q : Proposal}

theorem key_eq_key_iff : q.key = p.key ↔ q.SameEdge p :=
  edgeKey_eq_iff

theorem key_mem_map_iff {before : List Proposal} :
    p.key ∈ before.map key ↔ ∃ q ∈ before, q.SameEdge p := by
  simp only [List.mem_map, key_eq_key_iff]

/-- The first proposals are those that are fresh to a draft without edges. -/
theorem firsts_eq_fresh (ps : List Proposal) : firsts ps = fresh [] ps := by
  -- by induction on the proposals to come, for any that were made before them
  have hafter : ∀ made : List Proposal,
      (((ps.inits.map (made ++ ·)).zip ps).filter fun (before, p) =>
        ∀ q ∈ before, ¬ q.SameEdge p).map (·.2) = fresh (made.map key) ps := by
    induction ps with
    | nil => exact fun _ => rfl
    | cons p ps ih =>
      intro made
      have hinits : (p :: ps).inits.map (made ++ ·) =
          made :: ps.inits.map (made ++ [p] ++ ·) := by
        simp [Function.comp_def]
      have hseen : ∀ k, k ∈ (made ++ [p]).map key ↔ k ∈ p.key :: made.map key := by
        intro k
        simp [or_comm]
      rw [hinits, List.zip_cons_cons]
      by_cases hmem : p.key ∈ made.map key
      · rw [List.filter_cons_of_neg (by simpa using key_mem_map_iff.mp hmem), ih,
          fresh_cons_of_mem hmem]
        apply fresh_congr
        intro k
        rw [hseen, List.mem_cons]
        exact or_iff_right_of_imp fun hk => hk ▸ hmem
      · have hnew : ∀ q ∈ made, ¬ q.SameEdge p :=
          fun q hq hsame => hmem (key_mem_map_iff.mpr ⟨q, hq, hsame⟩)
        rw [List.filter_cons_of_pos (by simpa using hnew), List.map_cons, ih,
          fresh_cons_of_not_mem hmem, fresh_congr hseen]
  have hnone := hafter []
  simp only [List.nil_append, List.map_id', List.map_nil] at hnone
  exact hnone

end Proposal

/-! ## Runs -/

namespace Draft

open Proposal (firsts)

variable {d d' : Draft} {ps : List Proposal} {seen : List (Nat × Nat)}

/-- A link of an edge and its reverse are the pair of the edge. -/
theorem pair_of_linkAt {p : Proposal} (h : d.HasPorts p) (k : Nat) :
    [d.linkAt k p, (d.linkAt k p).reversed] =
      p.pair (p.portsOn d.family d.grid) d.linkLatency (d.nextId + 2 * k) := by
  simp only [linkAt, linkOf, h.portsOrNone_eq]
  rfl

/-- Two drafts are of the same family on the same grid, with the same latency. -/
def SameGround (d d' : Draft) : Prop :=
  d'.family = d.family ∧ d'.grid = d.grid ∧ d'.linkLatency = d.linkLatency

/-- What a run of proposals leaves: the edges proposed are joined, and every fresh one has
    taken two ids. -/
theorem proposeAll_state (known : ∀ k, k ∈ d.joined ↔ k ∈ seen) (h : d.proposeAll ps = .ok d') :
    d.SameGround d' ∧ (∀ k, k ∈ d'.joined ↔ k ∈ seen ++ ps.map Proposal.key) ∧
      d'.nextId = d.nextId + 2 * (Proposal.fresh seen ps).length := by
  induction ps generalizing d seen with
  | nil =>
    cases h
    exact ⟨⟨rfl, rfl, rfl⟩, by simpa using known, rfl⟩
  | cons p ps ih =>
    obtain ⟨⟨link, d₁⟩, hstep, hrest⟩ := bind_eq_ok.mp h
    rcases (propose_cases hstep).2 with ⟨hmem, -, rfl⟩ | ⟨hnew, -, -, rfl⟩
    · -- turned down: its edge is known already
      obtain ⟨hground, hjoined, hid⟩ := ih known hrest
      have hseen := (known _).mp hmem
      refine ⟨hground, ?_, ?_⟩
      · intro k
        rw [hjoined, List.map_cons, List.mem_append, List.mem_append, List.mem_cons]
        constructor
        · exact Or.imp_right Or.inr
        · rintro (hk | rfl | hk)
          · exact .inl hk
          · exact .inl hseen
          · exact .inr hk
      · rw [hid, Proposal.fresh_cons_of_mem hseen]
    · -- accepted: its edge is known from now on
      obtain ⟨hground, hjoined, hid⟩ := ih (known_joinedBy known) hrest
      refine ⟨hground, ?_, ?_⟩
      · intro k
        rw [hjoined, List.map_cons, List.mem_append, List.mem_append, List.mem_cons, List.mem_cons]
        tauto
      · have hnext : (d.joinedBy p).nextId = d.nextId + 2 := rfl
        rw [hid, hnext, Proposal.fresh_cons_of_not_mem fun hp => hnew ((known _).mpr hp),
          List.length_cons]
        omega

/-! ## Main statement -/

/-- What a draft of any family, on any grid, makes of a list of proposals. -/
structure Collects (family : Family) (g : Grid) (latency external : Nat) (ps : List Proposal) :
    Prop where
  /-- A proposal is accepted exactly if none before it asks for its edge, and then its pair of
      links is appended. One that is turned down leaves the draft as it is. -/
  answer : ∀ before p after, ps = before ++ p :: after → ∃ d link d',
    (start family g latency external).proposeAll before = .ok d ∧
      d.propose p = .ok (link, d') ∧
      (link.isSome = true ↔ ∀ q ∈ before, ¬ q.SameEdge p) ∧
      (∀ l, link = some l → [l, l.reversed] = p.pair (p.portsOn family g) latency d.nextId ∧
        d'.links = d.links ++ [l, l.reversed]) ∧
      (link = none → d' = d)
  /-- In the end there are two links for each first proposal, one in each direction, and
      their ids go on from the external links. -/
  links : ∃ d, (start family g latency external).proposeAll ps = .ok d ∧
    d.nextId = external + 2 * (firsts ps).length ∧
    d.links = (firsts ps).zipIdx.flatMap fun (p, k) =>
      p.pair (p.portsOn family g) latency (external + 2 * k)

/-- **The first proposal wins**, in any list of proposals between different routers. On a
    grid without columns, which has no routers, only direct hops can be proposed. -/
theorem proposeAll_collects {family : Family} {g : Grid} {latency external : Nat}
    {ps : List Proposal} (hdistinct : ∀ p ∈ ps, p.source ≠ p.target)
    (hports : ∀ p ∈ ps, p.dimension = .direct ∨ g.cols ≠ 0) :
    Collects family g latency external ps where
  answer := by
    rintro before p after rfl
    have hbefore : ∀ q ∈ before, q ∈ before ++ p :: after := fun q hq => List.mem_append_left _ hq
    obtain ⟨d, hd⟩ := exists_proposeAll (d := start family g latency external)
      (fun q hq => hports q (hbefore q hq)) (fun q hq => hdistinct q (hbefore q hq))
    obtain ⟨⟨hfamily, hgrid, hlatency⟩, hjoined, -⟩ := proposeAll_state known_start hd
    have hp : p ∈ before ++ p :: after := List.mem_append_right _ List.mem_cons_self
    have hhere : d.HasPorts p := by
      rw [HasPorts, hgrid]
      exact hports p hp
    -- it may be accepted or turned down, but it does not fail
    have hone : ∃ d', d.proposeAll [p] = .ok d' :=
      exists_proposeAll (by simpa using hhere) (by simpa using hdistinct p hp)
    obtain ⟨_, hrun⟩ := hone
    obtain ⟨⟨link, d₁⟩, hstep, -⟩ := bind_eq_ok.mp hrun
    refine ⟨d, link, d₁, hd, hstep, ?_, ?_, ?_⟩
    · have hknown : p.key ∈ d.joined ↔ ∃ q ∈ before, q.SameEdge p := by
        rw [hjoined, List.nil_append, Proposal.key_mem_map_iff]
      rcases (propose_cases hstep).2 with ⟨hmem, rfl, -⟩ | ⟨hnew, -, rfl, -⟩
      · obtain ⟨q, hq, hsame⟩ := hknown.mp hmem
        exact iff_of_false Bool.false_ne_true fun hnone => hnone q hq hsame
      · exact iff_of_true rfl fun q hq hsame => hnew (hknown.mpr ⟨q, hq, hsame⟩)
    · rintro l rfl
      refine ⟨?_, by simpa using propose_links hstep⟩
      rcases (propose_cases hstep).2 with ⟨-, hnone, -⟩ | ⟨-, -, hsome, -⟩
      · cases hnone
      · cases hsome
        rw [pair_of_linkAt hhere, hfamily, hgrid, hlatency]
        rfl
    · intro hnone
      rcases (propose_cases hstep).2 with ⟨-, -, hsame⟩ | ⟨-, -, hsome, -⟩
      · exact hsame
      · cases hnone.symm.trans hsome
  links := by
    obtain ⟨d, hd⟩ := exists_proposeAll (d := start family g latency external) hports hdistinct
    obtain ⟨-, -, hid⟩ := proposeAll_state known_start hd
    refine ⟨d, hd, ?_, ?_⟩
    · rw [hid, Proposal.firsts_eq_fresh]
      rfl
    · rw [links, forward_of_start hd, Proposal.firsts_eq_fresh, List.mapIdx_eq_zipIdx_map,
        List.flatMap_map]
      apply List.flatMap_congr
      rintro ⟨p, k⟩ hmem
      have hp : p ∈ ps := Proposal.mem_of_mem_fresh (List.fst_mem_of_mem_zipIdx hmem)
      have hhere : (start family g latency external).HasPorts p := hports p hp
      exact pair_of_linkAt hhere k

theorem proposeAll_collects_twice :
    Collects .mesh ⟨2, 2⟩ 1 3 [⟨0, 1, .row⟩, ⟨1, 0, .column⟩, ⟨2, 0, .column⟩] :=
  proposeAll_collects (by decide) (by decide)

end Draft

end Interconnect
