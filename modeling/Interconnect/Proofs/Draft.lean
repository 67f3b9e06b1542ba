import Interconnect.Draft
import Interconnect.Proofs.Checked
import Std.Data.HashSet.Lemmas

/-! # Runs of proposals

    What a draft holds after a run of proposals, in closed form: the proposals
    that bring a new edge (`Proposal.fresh`) become forward links, in order,
    and nothing else is added (`Draft.proposeAll_forward`).

    The induction over a run carries one invariant: the joined edges are those
    joined at the start and those of the proposals made since.
-/

namespace Interconnect

/-! ## Fresh proposals -/

namespace Proposal

/-- The edge that a proposal asks for, whichever way round. -/
def key (p : Proposal) : Nat × Nat :=
  edgeKey p.source p.target

/-- The proposals whose edge was neither seen before nor proposed earlier. -/
def fresh (seen : List (Nat × Nat)) : List Proposal → List Proposal
  | [] => []
  | p :: rest => if seen.contains p.key then fresh seen rest else p :: fresh (p.key :: seen) rest

variable {seen : List (Nat × Nat)} {p : Proposal} {ps : List Proposal}

theorem fresh_cons_of_mem (h : p.key ∈ seen) : fresh seen (p :: ps) = fresh seen ps :=
  if_pos (List.contains_iff_mem.mpr h)

theorem fresh_cons_of_not_mem (h : p.key ∉ seen) :
    fresh seen (p :: ps) = p :: fresh (p.key :: seen) ps :=
  if_neg fun hseen => h (List.contains_iff_mem.mp hseen)

theorem fresh_sublist (seen : List (Nat × Nat)) (ps : List Proposal) :
    (fresh seen ps).Sublist ps := by
  induction ps generalizing seen with
  | nil => exact .slnil
  | cons p ps ih =>
    by_cases h : p.key ∈ seen
    · rw [fresh_cons_of_mem h]
      exact (ih seen).cons p
    · rw [fresh_cons_of_not_mem h]
      exact (ih _).cons_cons p

theorem mem_of_mem_fresh (h : p ∈ fresh seen ps) : p ∈ ps :=
  (fresh_sublist seen ps).mem h

theorem key_not_mem_of_mem_fresh (h : p ∈ fresh seen ps) : p.key ∉ seen := by
  induction ps generalizing seen with
  | nil => cases h
  | cons q ps ih =>
    by_cases hq : q.key ∈ seen
    · rw [fresh_cons_of_mem hq] at h
      exact ih h
    · rw [fresh_cons_of_not_mem hq] at h
      rcases List.mem_cons.mp h with rfl | h
      · exact hq
      · exact fun hp => ih h (List.mem_cons_of_mem _ hp)

/-- No edge is fresh twice. -/
theorem nodup_fresh_keys (seen : List (Nat × Nat)) (ps : List Proposal) :
    ((fresh seen ps).map key).Nodup := by
  induction ps generalizing seen with
  | nil => exact List.nodup_nil
  | cons p ps ih =>
    by_cases h : p.key ∈ seen
    · rw [fresh_cons_of_mem h]
      exact ih seen
    · rw [fresh_cons_of_not_mem h, List.map_cons, List.nodup_cons]
      refine ⟨fun hmem => ?_, ih _⟩
      obtain ⟨q, hq, hkey⟩ := List.mem_map.mp hmem
      exact key_not_mem_of_mem_fresh hq (hkey ▸ List.mem_cons_self)

example : fresh [] [⟨0, 1, .ring⟩, ⟨1, 0, .ring⟩, ⟨1, 2, .ring⟩] =
    [⟨0, 1, .ring⟩, ⟨1, 2, .ring⟩] := by decide

/-- It matters which edges were seen, and not in what order. -/
theorem fresh_congr {seen' : List (Nat × Nat)} (h : ∀ k, k ∈ seen ↔ k ∈ seen') :
    fresh seen ps = fresh seen' ps := by
  induction ps generalizing seen seen' with
  | nil => rfl
  | cons p ps ih =>
    by_cases hp : p.key ∈ seen
    · rw [fresh_cons_of_mem hp, fresh_cons_of_mem ((h _).mp hp), ih h]
    · have hp' : p.key ∉ seen' := fun hmem => hp ((h _).mpr hmem)
      rw [fresh_cons_of_not_mem hp, fresh_cons_of_not_mem hp']
      congr 1
      exact ih fun k => by simp [h]

/-- In a run of two parts, the second part has seen the edges of the first. -/
theorem fresh_append (ps qs : List Proposal) :
    fresh seen (ps ++ qs) = fresh seen ps ++ fresh (seen ++ ps.map key) qs := by
  induction ps generalizing seen with
  | nil => simp [fresh]
  | cons p ps ih =>
    by_cases hp : p.key ∈ seen
    · rw [List.cons_append, fresh_cons_of_mem hp, fresh_cons_of_mem hp, ih]
      congr 1
      -- the edge of the first proposal was among those seen before
      apply fresh_congr
      intro k
      by_cases hk : k = p.key
      · simp [hk, hp]
      · simp [hk]
    · rw [List.cons_append, fresh_cons_of_not_mem hp, fresh_cons_of_not_mem hp, ih,
        List.cons_append]
      congr 2
      apply fresh_congr
      intro k
      simp [or_left_comm]

/-- Where no edge is proposed twice, the fresh proposals are those whose edge is new. -/
theorem fresh_eq_filter (hnodup : (ps.map key).Nodup) :
    fresh seen ps = ps.filter fun p => p.key ∉ seen := by
  induction ps generalizing seen with
  | nil => rfl
  | cons p ps ih =>
    obtain ⟨hp, hps⟩ := List.nodup_cons.mp hnodup
    by_cases hseen : p.key ∈ seen
    · rw [fresh_cons_of_mem hseen, ih hps, List.filter_cons_of_neg (by simpa using hseen)]
    · rw [fresh_cons_of_not_mem hseen, ih hps, List.filter_cons_of_pos (by simpa using hseen)]
      congr 1
      -- no later proposal asks for the edge of `p`
      apply List.filter_congr
      intro q hq
      have hne : q.key ≠ p.key := fun hsame => hp (hsame ▸ List.mem_map_of_mem (f := key) hq)
      simp [hne]

/-- Where all edges are new besides, all proposals are fresh. -/
theorem fresh_eq_self (hnodup : (ps.map key).Nodup) (hnew : ∀ p ∈ ps, p.key ∉ seen) :
    fresh seen ps = ps := by
  rw [fresh_eq_filter hnodup, List.filter_eq_self]
  intro p hp
  simpa using hnew p hp

/-- Every proposed edge was seen before or is fresh once. -/
theorem exists_fresh_of_mem (h : p ∈ ps) (hnew : p.key ∉ seen) :
    ∃ q ∈ fresh seen ps, q.key = p.key := by
  induction ps generalizing seen with
  | nil => cases h
  | cons q ps ih =>
    by_cases hq : q.key ∈ seen
    · rw [fresh_cons_of_mem hq]
      rcases List.mem_cons.mp h with rfl | h
      · exact absurd hq hnew
      · exact ih h hnew
    · rw [fresh_cons_of_not_mem hq]
      -- either the head already brings the edge, or it brings another one
      by_cases heq : q.key = p.key
      · exact ⟨q, List.mem_cons_self, heq⟩
      · rcases List.mem_cons.mp h with rfl | h
        · exact absurd rfl heq
        · have hnew' : p.key ∉ q.key :: seen := by
            intro hp
            rcases List.mem_cons.mp hp with hp | hp
            · exact heq hp.symm
            · exact hnew hp
          obtain ⟨r, hr, hkey⟩ := ih h hnew'
          exact ⟨r, List.mem_cons_of_mem _ hr, hkey⟩

end Proposal

/-! ## Runs of a draft -/

namespace Draft

open Proposal (fresh)

variable {d d' : Draft} {p : Proposal} {ps : List Proposal} {seen : List (Nat × Nat)}

/-- The ports of a proposal, none also where their computation has no result. -/
def portsOrNone (d : Draft) (p : Proposal) : Option (Port × Port) :=
  (d.ports p).toOption.join

/-- The forward link of a proposal that is accepted after `k` others. -/
def linkAt (d : Draft) (k : Nat) (p : Proposal) : InternalLink :=
  { d.linkOf p (d.portsOrNone p) with id := d.nextId + 2 * k }

/-- A draft after one more accepted proposal. -/
def joinedBy (d : Draft) (p : Proposal) : Draft :=
  { d with
    nextId := d.nextId + 2
    joined := d.joined.insert p.key
    forward := d.forward.push (d.linkAt 0 p) }

@[simp] theorem joinedBy_forward :
    (d.joinedBy p).forward.toList = d.forward.toList ++ [d.linkAt 0 p] :=
  Array.toList_push

theorem linkAt_joinedBy (q : Proposal) (k : Nat) :
    (d.joinedBy q).linkAt k p = d.linkAt (k + 1) p := by
  have hid : d.nextId + 2 + 2 * k = d.nextId + 2 * (k + 1) := by omega
  simp only [linkAt, joinedBy, hid]
  rfl

/-- All that a proposal can do: a known edge changes nothing, a new one joins. -/
theorem propose_cases {link : Option InternalLink} (h : d.propose p = .ok (link, d')) :
    p.source ≠ p.target ∧
      ((p.key ∈ d.joined ∧ link = none ∧ d' = d) ∨
        (p.key ∉ d.joined ∧ (∃ ports, d.ports p = .ok ports) ∧
          link = some (d.linkAt 0 p) ∧ d' = d.joinedBy p)) := by
  unfold propose at h
  by_cases hself : p.source = p.target
  · simp [hself] at h
  · refine ⟨hself, ?_⟩
    rw [if_neg hself] at h
    by_cases hknown : d.knows p = true
    · rw [if_pos hknown] at h
      simp only [Except.ok.injEq, Prod.mk.injEq] at h
      exact .inl ⟨hknown, h.1.symm, h.2.symm⟩
    · rw [if_neg hknown] at h
      obtain ⟨ports, hports, h⟩ := bind_eq_ok.mp h
      have hlink : d.linkOf p ports = d.linkAt 0 p := by
        simp [linkAt, linkOf, portsOrNone, hports, Except.toOption]
      simp only [pure_eq_ok, Prod.mk.injEq, hlink] at h
      exact .inr ⟨hknown, ⟨ports, hports⟩, h.1.symm, h.2.symm⟩

/-- No router proposes itself in a run that succeeds. -/
theorem proposeAll_distinct (h : d.proposeAll ps = .ok d') (hp : p ∈ ps) :
    p.source ≠ p.target := by
  induction ps generalizing d with
  | nil => cases hp
  | cons q ps ih =>
    obtain ⟨⟨link, d₁⟩, hstep, hrest⟩ := bind_eq_ok.mp h
    rcases List.mem_cons.mp hp with rfl | hp
    · exact (propose_cases hstep).1
    · exact ih hrest hp

/-- The invariant after a step: the edge that joined is seen. -/
theorem known_joinedBy (known : ∀ k, k ∈ d.joined ↔ k ∈ seen) :
    ∀ k, k ∈ (d.joinedBy p).joined ↔ k ∈ p.key :: seen := by
  intro k
  rw [joinedBy, Std.HashSet.mem_insert, List.mem_cons, beq_iff_eq, known]
  exact or_congr_left eq_comm

/-- A run adds the forward links of the fresh proposals, in order. -/
theorem proposeAll_forward (known : ∀ k, k ∈ d.joined ↔ k ∈ seen)
    (h : d.proposeAll ps = .ok d') :
    d'.forward.toList = d.forward.toList ++ (fresh seen ps).mapIdx d.linkAt := by
  induction ps generalizing d seen with
  | nil =>
    cases h
    simp [fresh]
  | cons p ps ih =>
    obtain ⟨⟨link, d₁⟩, hstep, hrest⟩ := bind_eq_ok.mp h
    rcases (propose_cases hstep).2 with ⟨hmem, -, rfl⟩ | ⟨hnew, -, -, rfl⟩
    · rw [Proposal.fresh_cons_of_mem ((known _).mp hmem)]
      exact ih known hrest
    · rw [Proposal.fresh_cons_of_not_mem fun hp => hnew ((known _).mpr hp)]
      -- the ids of later links start two further on
      have hshift : (d.joinedBy p).linkAt = fun k => d.linkAt (k + 1) := by
        funext k q
        exact linkAt_joinedBy p k
      rw [ih (known_joinedBy known) hrest, List.mapIdx_cons, hshift, joinedBy_forward,
        List.append_assoc, List.singleton_append]

/-- No proposal of a run is turned down: each of them becomes a link of the draft that
    it is made to. -/
def AcceptsAll (d : Draft) (ps : List Proposal) : Prop :=
  ∀ before p after, ps = before ++ p :: after → ∃ d₁ link d₂,
    d.proposeAll before = .ok d₁ ∧ d₁.propose p = .ok (some link, d₂)

/-- A run over new edges, none of them proposed twice, accepts every proposal. -/
theorem acceptsAll (known : ∀ k, k ∈ d.joined ↔ k ∈ seen) (hnodup : (ps.map Proposal.key).Nodup)
    (hnew : ∀ p ∈ ps, p.key ∉ seen) (h : d.proposeAll ps = .ok d') : d.AcceptsAll ps := by
  intro before p after hsplit
  induction before generalizing d seen ps with
  | nil =>
    subst hsplit
    obtain ⟨⟨link, d₁⟩, hstep, -⟩ := bind_eq_ok.mp h
    rcases (propose_cases hstep).2 with ⟨hmem, -⟩ | ⟨-, -, rfl, -⟩
    · exact absurd ((known _).mp hmem) (hnew p List.mem_cons_self)
    · exact ⟨d, _, d₁, rfl, hstep⟩
  | cons q before ih =>
    subst hsplit
    obtain ⟨⟨link, d₁⟩, hstep, hrest⟩ := bind_eq_ok.mp h
    obtain ⟨hq, hnodup'⟩ := List.nodup_cons.mp hnodup
    rcases (propose_cases hstep).2 with ⟨hmem, -⟩ | ⟨-, -, -, rfl⟩
    · exact absurd ((known _).mp hmem) (hnew q List.mem_cons_self)
    · -- the edge that joined is none of those still to be proposed
      have hnew' : ∀ r ∈ before ++ p :: after, r.key ∉ q.key :: seen := by
        intro r hr hmem
        rcases List.mem_cons.mp hmem with hsame | hseen
        · exact hq (hsame ▸ List.mem_map_of_mem (f := Proposal.key) hr)
        · exact hnew r (List.mem_cons_of_mem q hr) hseen
      obtain ⟨d₁, link', d₂, hrun, hlast⟩ := ih (known_joinedBy known) hnodup' hnew' hrest rfl
      refine ⟨d₁, link', d₂, ?_, hlast⟩
      rw [proposeAll, hstep]
      exact hrun

/-! ## Runs from the start -/

section start

variable {family : Family} {g : Grid} {latency first : Nat}

/-- At the start no edge is joined. -/
theorem known_start (k : Nat × Nat) :
    k ∈ (start family g latency first).joined ↔ k ∈ ([] : List (Nat × Nat)) := by
  simp [start]

/-- The forward links of a run from a draft without edges. -/
theorem forward_of_start (h : (start family g latency first).proposeAll ps = .ok d') :
    d'.forward.toList = (fresh [] ps).mapIdx (start family g latency first).linkAt := by
  rw [proposeAll_forward known_start h]
  simp [start]

theorem acceptsAll_of_start (hnodup : (ps.map Proposal.key).Nodup)
    (h : (start family g latency first).proposeAll ps = .ok d') :
    (start family g latency first).AcceptsAll ps :=
  acceptsAll known_start hnodup (by simp) h

end start

end Draft

end Interconnect
