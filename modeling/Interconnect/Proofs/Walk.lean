import Interconnect.Proofs.WellFormed

/-! # Walks along links

    A walk follows internal links from router to router. Since every link has a
    reverse, a walk can be walked back, and being joined by a walk is an equivalence
    (`Joined.refl`, `Joined.symm`, `Joined.trans`).
-/

namespace Interconnect

namespace Topology

/-- The walks of a topology: from one router to another, over a list of links. -/
inductive Walk (t : Topology) : Nat → Nat → List InternalLink → Prop where
  | /-- To stay at a router takes no link. -/
    stay (a : Nat) : Walk t a a []
  | /-- To follow a link, and a walk from where it leads. -/
    follow {a b : Nat} {l : InternalLink} {rest : List InternalLink} (hl : l ∈ t.links)
      (hsource : l.source = a) (hrest : Walk t l.target b rest) : Walk t a b (l :: rest)

/-- The routers that a walk from a router comes by, with both of its ends. -/
def visits (a : Nat) (walk : List InternalLink) : List Nat :=
  a :: walk.map (·.target)

/-- Two routers are joined if a walk leads from one to the other. -/
def Joined (t : Topology) (a b : Nat) : Prop :=
  ∃ walk, t.Walk a b walk

variable {t : Topology} {a b x : Nat}

theorem Walk.append {walk walk' : List InternalLink} (h : t.Walk a b walk)
    (h' : t.Walk b x walk') : t.Walk a x (walk ++ walk') := by
  induction h with
  | stay a => exact h'
  | follow hl hsource hrest ih => exact .follow hl hsource (ih h')

theorem Walk.single {l : InternalLink} (hl : l ∈ t.links) : t.Walk l.source l.target [l] :=
  .follow hl rfl (.stay l.target)

/-! ## Joined routers -/

theorem Joined.refl (t : Topology) (a : Nat) : t.Joined a a :=
  ⟨[], .stay a⟩

theorem Joined.trans (h : t.Joined a b) (h' : t.Joined b x) : t.Joined a x := by
  obtain ⟨walk, hwalk⟩ := h
  obtain ⟨walk', hwalk'⟩ := h'
  exact ⟨walk ++ walk', hwalk.append hwalk'⟩

theorem Joined.symm (h : t.Joined a b) : t.Joined b a := by
  obtain ⟨walk, hwalk⟩ := h
  induction hwalk with
  | stay a => exact .refl t a
  | @follow a b l rest hl hsource hrest ih =>
    -- back along the rest of the walk, and then along the reverse of its first link
    obtain ⟨r, hr, hback⟩ := exists_reverse hl
    have hlast := Walk.single hr
    rw [hback.source, hback.target, hsource] at hlast
    exact ih.trans ⟨[r], hlast⟩

/-- An edge joins its routers, whichever way round. -/
theorem joined_of_edge {l : InternalLink} (hl : l ∈ t.edges) (h : l.edge = edgeKey a b) :
    t.Joined a b := by
  have hwalk := Walk.single (mem_links.mpr ⟨l, hl, .inl rfl⟩)
  rcases edgeKey_eq_iff.mp h with ⟨rfl, rfl⟩ | ⟨rfl, rfl⟩
  · exact ⟨[l], hwalk⟩
  · exact .symm ⟨[l], hwalk⟩

end Topology

end Interconnect
