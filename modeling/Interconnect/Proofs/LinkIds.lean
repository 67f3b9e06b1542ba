import Interconnect.Proofs.WellFormed
import Mathlib.Data.Nat.Bitwise

/-! # Links by their ids

    A link is looked up at the position that its id has after the external links, and its
    reverse at the other position of the pair. Nothing compares ids: that the right links
    are found rests on how they are numbered.

    * An id finds the internal link that has it. The id of an external link finds none, and
      neither does one after the last link.
    * The reverse is found exactly where the link is. It is the one link that leads back,
      and its id is the next one or the one before.
    * The reverse of the reverse is the link itself.

    `synthesize_foundById` is the main statement.
-/

namespace Interconnect

namespace Topology

/-- Two links are the two directions of one edge. -/
def Pair (t : Topology) (l r : InternalLink) : Prop :=
  ∃ e ∈ t.edges, (l = e ∧ r = e.reversed) ∨ (l = e.reversed ∧ r = e)

/-- What internal links are found by their ids. -/
structure FoundById (t : Topology) : Prop where
  /-- An id finds the internal link that has it. -/
  link : ∀ id l, t.link? id = some l ↔ l ∈ t.links ∧ l.id = id
  /-- Reverses are found exactly where links are. -/
  reverse_isSome : ∀ id, (t.reverse? id).isSome ↔ (t.link? id).isSome
  /-- The reverse is a link that leads back by the same ports, and no other one does. -/
  reverse : ∀ id l r, t.link? id = some l → t.reverse? id = some r →
    r ∈ t.links ∧ r.IsReverse l ∧
      ∀ m ∈ t.links, m.source = l.target → m.target = l.source → m = r
  /-- The reverse of the reverse is the link itself. -/
  back : ∀ id r, t.reverse? id = some r → t.reverse? r.id = t.link? id
  /-- Their ids follow each other. -/
  ids : ∀ id l r, t.link? id = some l → t.reverse? id = some r →
    r.id = l.id + 1 ∨ l.id = r.id + 1

/-! ## Pairs -/

namespace Pair

variable {t : Topology} {l r : InternalLink}

theorem symm (h : t.Pair l r) : t.Pair r l := by
  obtain ⟨e, he, ⟨rfl, rfl⟩ | ⟨rfl, rfl⟩⟩ := h
  · exact ⟨l, he, .inr ⟨rfl, rfl⟩⟩
  · exact ⟨r, he, .inl ⟨rfl, rfl⟩⟩

theorem mem (h : t.Pair l r) : l ∈ t.links := by
  obtain ⟨e, he, hcase⟩ := h
  exact mem_links.mpr ⟨e, he, hcase.imp And.left And.left⟩

theorem isReverse (h : t.Pair l r) : r.IsReverse l := by
  obtain ⟨e, -, ⟨rfl, rfl⟩ | ⟨rfl, rfl⟩⟩ := h
  · exact .of_reversed l
  · exact (InternalLink.IsReverse.of_reversed r).symm

theorem ids (h : t.Pair l r) : r.id = l.id + 1 ∨ l.id = r.id + 1 := by
  obtain ⟨e, -, ⟨rfl, rfl⟩ | ⟨rfl, rfl⟩⟩ := h
  · exact .inl rfl
  · exact .inr rfl

end Pair

/-! ## Positions -/

variable {t : Topology} {id : Nat}

/-- The two positions of a pair hold the two directions of an edge, or nothing if they are
    beyond the last pair. -/
theorem getElem?_links_pair (t : Topology) (n : Nat) :
    (t.links[n]? = none ∧ t.links[n ^^^ 1]? = none) ∨
      ∃ l r, t.Pair l r ∧ t.links[n]? = some l ∧ t.links[n ^^^ 1]? = some r := by
  -- even positions hold the forward links, with their reverses right after them
  obtain ⟨k, rfl | rfl⟩ : ∃ k, n = 2 * k ∨ n = 2 * k + 1 := ⟨n / 2, by omega⟩
  · rw [Nat.xor_one_of_even (even_two_mul k), (t.getElem?_links k).1, (t.getElem?_links k).2]
    cases hedge : t.edges[k]? with
    | none => exact .inl ⟨rfl, rfl⟩
    | some e =>
      have he : e ∈ t.edges := List.mem_of_getElem? hedge
      exact .inr ⟨e, e.reversed, ⟨e, he, .inl ⟨rfl, rfl⟩⟩, rfl, rfl⟩
  · rw [Nat.xor_one_of_odd (odd_two_mul_add_one k), Nat.add_sub_cancel, (t.getElem?_links k).1,
      (t.getElem?_links k).2]
    cases hedge : t.edges[k]? with
    | none => exact .inl ⟨rfl, rfl⟩
    | some e =>
      have he : e ∈ t.edges := List.mem_of_getElem? hedge
      exact .inr ⟨e.reversed, e, ⟨e, he, .inr ⟨rfl, rfl⟩⟩, rfl, rfl⟩

/-- Internal links are not found by ids of external ones. -/
theorem link?_of_lt (h : id < t.firstInternalId) : t.link? id = none := if_pos h

theorem reverse?_of_lt (h : id < t.firstInternalId) : t.reverse? id = none := if_pos h

theorem link?_add (t : Topology) (n : Nat) :
    t.link? (t.firstInternalId + n) = t.links[n]? := by
  rw [link?, if_neg (by omega), Nat.add_sub_cancel_left]

theorem reverse?_add (t : Topology) (n : Nat) :
    t.reverse? (t.firstInternalId + n) = t.links[n ^^^ 1]? := by
  rw [reverse?, if_neg (by omega), Nat.add_sub_cancel_left]

/-- Every id finds a link and its reverse, or neither of them. -/
theorem found_cases (t : Topology) (id : Nat) :
    (t.link? id = none ∧ t.reverse? id = none) ∨
      ∃ l r, t.Pair l r ∧ t.link? id = some l ∧ t.reverse? id = some r := by
  rcases Nat.lt_or_ge id t.firstInternalId with hlt | hge
  · exact .inl ⟨link?_of_lt hlt, reverse?_of_lt hlt⟩
  · obtain ⟨n, rfl⟩ := Nat.exists_eq_add_of_le hge
    rw [link?_add, reverse?_add]
    exact t.getElem?_links_pair n

theorem reverse?_isSome_iff (t : Topology) (id : Nat) :
    (t.reverse? id).isSome ↔ (t.link? id).isSome := by
  rcases t.found_cases id with ⟨hlink, hreverse⟩ | ⟨l, r, -, hlink, hreverse⟩
  · rw [hlink, hreverse]
  · rw [hlink, hreverse]
    simp

/-- A link and a reverse that are found by one id belong together. -/
theorem pair_of_found {l r : InternalLink} (hl : t.link? id = some l)
    (hr : t.reverse? id = some r) : t.Pair l r := by
  rcases t.found_cases id with ⟨hlink, -⟩ | ⟨x, y, hpair, hlink, hreverse⟩
  · rw [hl] at hlink
    cases hlink
  · rw [hl] at hlink
    rw [hr] at hreverse
    cases hlink
    cases hreverse
    exact hpair

end Topology

/-! ## Ids -/

namespace Stages

variable {c : Configuration} {endpoints : List Endpoint} {t : Topology}
  {placements : List Placement} {wiring : Wiring} {l m : InternalLink}

theorem firstInternalId_eq (s : Stages c endpoints t placements wiring) :
    t.firstInternalId = endpoints.length := by
  rw [Topology.firstInternalId, ← List.length_map (·.id), s.external_ids, List.length_range]

/-- The link that is found by an id is the one that has it. -/
theorem link?_eq_some_iff (s : Stages c endpoints t placements wiring) {id : Nat} :
    t.link? id = some l ↔ l ∈ t.links ∧ l.id = id := by
  constructor
  · intro h
    rcases Nat.lt_or_ge id t.firstInternalId with hlt | hge
    · rw [Topology.link?_of_lt hlt] at h
      cases h
    · obtain ⟨n, rfl⟩ := Nat.exists_eq_add_of_le hge
      rw [Topology.link?_add] at h
      rw [s.links_getElem?_id h, s.firstInternalId_eq]
      exact ⟨List.mem_of_getElem? h, rfl⟩
  · rintro ⟨hl, rfl⟩
    obtain ⟨n, hn⟩ := List.mem_iff_getElem?.mp hl
    rw [s.links_getElem?_id hn, ← s.firstInternalId_eq, Topology.link?_add, hn]

/-- Looking up the reverse of a link finds a link that is one. -/
theorem exists_reverse? (s : Stages c endpoints t placements wiring) (hl : l ∈ t.links) :
    ∃ r, t.reverse? l.id = some r ∧ t.Pair l r := by
  have hfound := s.link?_eq_some_iff.mpr ⟨hl, rfl⟩
  have hsome : (t.reverse? l.id).isSome := by
    rw [t.reverse?_isSome_iff, hfound]
    rfl
  obtain ⟨r, hr⟩ := Option.isSome_iff_exists.mp hsome
  exact ⟨r, hr, Topology.pair_of_found hfound hr⟩

/-- The other link of a pair is the only one that leads back. -/
theorem eq_of_pair (s : Stages c endpoints t placements wiring) {r : InternalLink}
    (h : t.Pair l r) (hm : m ∈ t.links) (hsource : m.source = l.target)
    (htarget : m.target = l.source) : m = r :=
  s.links_unique hm h.symm.mem (hsource.trans h.isReverse.source.symm)
    (htarget.trans h.isReverse.target.symm)

/-- A link that leads back is the one that looking up the reverse finds. -/
theorem reverse?_eq_some (s : Stages c endpoints t placements wiring) (hl : l ∈ t.links)
    (hm : m ∈ t.links) (hsource : m.source = l.target) (htarget : m.target = l.source) :
    t.reverse? l.id = some m := by
  obtain ⟨r, hfound, hpair⟩ := s.exists_reverse? hl
  rw [hfound, s.eq_of_pair hpair hm hsource htarget]

end Stages

/-! ## Main statement -/

/-- **Links by their ids**: whatever the id, an internal link is found exactly if it has
    it, and its reverse with it. -/
theorem synthesize_foundById {c : Configuration} {endpoints : List Endpoint} {t : Topology}
    (h : synthesize c endpoints = .ok t) : t.FoundById := by
  obtain ⟨placements, wiring, s⟩ := synthesize_stages h
  refine {
    link := fun id l => s.link?_eq_some_iff
    reverse_isSome := t.reverse?_isSome_iff
    reverse := ?_, back := ?_, ids := ?_ }
  · intro id l r hl hr
    have hpair := Topology.pair_of_found hl hr
    exact ⟨hpair.symm.mem, hpair.isReverse, fun m => s.eq_of_pair hpair⟩
  · intro id r hr
    have hsome : (t.link? id).isSome := by
      rw [← t.reverse?_isSome_iff, hr]
      rfl
    obtain ⟨l, hl⟩ := Option.isSome_iff_exists.mp hsome
    have hpair := Topology.pair_of_found hl hr
    rw [hl]
    exact s.reverse?_eq_some hpair.symm.mem hpair.mem hpair.symm.isReverse.source
      hpair.symm.isReverse.target
  · intro id l r hl hr
    exact (Topology.pair_of_found hl hr).ids

theorem synthesize_foundById_sixByFour :
    ∃ t, synthesize .sixByFour (Endpoint.population 24 0 1) = .ok t ∧ t.FoundById := by
  obtain ⟨t, h⟩ := exists_synthesize_sixByFour
  exact ⟨t, h, synthesize_foundById h⟩

end Interconnect
