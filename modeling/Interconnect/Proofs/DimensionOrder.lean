import Interconnect.Proofs.LinkIds
import Interconnect.Proofs.Position
import Interconnect.Proofs.Walk
import Mathlib.Data.Nat.Dist
import Mathlib.Logic.Relation

/-! # Dimension order in a mesh

    Links along rows have weight 1, and links along columns weight 2. A route whose
    weights never fall makes all its steps along a row before those along a column.

    * Such routes are enough: along the row and then along the column, a walk leads from
      every router to every other one, and it is no longer than they are apart
      (`Stages.exists_orderedWalk`).
    * They do not block each other in a circle: where a link is followed by no link of
      a smaller weight and not by its reverse, each step raises one number
      (`Stages.order_lt`), so that no sequence of links comes back to its first one.

    `synthesize_dimensionOrdered` is the main statement.
-/

namespace Interconnect

/-- How many grid units two positions are apart, along both axes together. -/
def Position.manhattan (p q : Position) : Nat :=
  Nat.dist p.x q.x + Nat.dist p.y q.y

namespace Topology

/-- A route in dimension order may go on from one link to another: they meet, weights
    do not fall, and it does not turn round. -/
structure MayFollow (t : Topology) (l m : InternalLink) : Prop where
  left_mem : l ∈ t.links
  right_mem : m ∈ t.links
  meet : l.target = m.source
  weight_le : l.weight ≤ m.weight
  no_turn : t.reverse? l.id ≠ some m

/-- Routing in dimension order reaches every router, on a shortest way, and its
    channels do not wait for each other in a circle. -/
structure DimensionOrdered (t : Topology) : Prop where
  complete : ∀ a ∈ t.routers, ∀ b ∈ t.routers, ∃ p q walk,
    t.position a.rank = .ok p ∧ t.position b.rank = .ok q ∧ t.Walk a.rank b.rank walk ∧
      (walk.Pairwise fun l m => l.weight ≤ m.weight) ∧ walk.length = p.manhattan q
  acyclic : ∀ l, ¬ Relation.TransGen t.MayFollow l l

/-! ## Straight walks -/

/-- A walk over a number of links, all of one weight. -/
def Straight (t : Topology) (weight n a b : Nat) : Prop :=
  ∃ walk, t.Walk a b walk ∧ walk.length = n ∧ ∀ l ∈ walk, l.weight = weight

namespace Straight

variable {t : Topology} {weight n m a b x : Nat}

theorem stay (t : Topology) (weight a : Nat) : t.Straight weight 0 a a :=
  ⟨[], .stay a, rfl, by simp⟩

theorem single {l : InternalLink} (hl : l ∈ t.links) : t.Straight l.weight 1 l.source l.target :=
  ⟨[l], .single hl, rfl, by simp⟩

theorem trans (h : t.Straight weight n a b) (h' : t.Straight weight m b x) :
    t.Straight weight (n + m) a x := by
  obtain ⟨walk, hwalk, hlength, hweight⟩ := h
  obtain ⟨walk', hwalk', hlength', hweight'⟩ := h'
  refine ⟨walk ++ walk', hwalk.append hwalk', ?_, ?_⟩
  · rw [List.length_append, hlength, hlength']
  · exact List.forall_mem_append.mpr ⟨hweight, hweight'⟩

/-- Over the reverse links, a straight walk leads back. -/
theorem symm (h : t.Straight weight n a b) : t.Straight weight n b a := by
  obtain ⟨walk, hwalk, rfl, hweight⟩ := h
  induction hwalk with
  | stay a => exact .stay t weight a
  | @follow a b l rest hl hsource hrest ih =>
    obtain ⟨hfirst, hrest⟩ := List.forall_mem_cons.mp hweight
    obtain ⟨r, hr, hback⟩ := exists_reverse hl
    have hlast := single hr
    rw [hback.source, hback.target, hback.weight, hfirst, hsource] at hlast
    exact (ih hrest).trans hlast

/-- Along a line of routers, of which every two neighbours are joined at one weight, a
    straight walk leads from each to each. -/
theorem of_line {f : Nat → Nat} {count : Nat}
    (hstep : ∀ i, i + 1 < count → t.Straight weight 1 (f i) (f (i + 1))) {i j : Nat}
    (hi : i < count) (hj : j < count) : t.Straight weight (Nat.dist i j) (f i) (f j) := by
  -- onwards by induction on the number of steps, and backwards by symmetry
  have honward : ∀ i k, i + k < count → t.Straight weight k (f i) (f (i + k)) := by
    intro i k
    induction k with
    | zero =>
      intro _
      exact .stay t weight _
    | succ k ih =>
      intro hk
      exact (ih (by omega)).trans (hstep (i + k) hk)
  rcases Nat.le_total i j with hle | hle
  · obtain ⟨k, rfl⟩ := Nat.exists_eq_add_of_le hle
    rw [Nat.dist_eq_sub_of_le hle, Nat.add_sub_cancel_left]
    exact honward i k hj
  · obtain ⟨k, rfl⟩ := Nat.exists_eq_add_of_le hle
    rw [Nat.dist_eq_sub_of_le_right hle, Nat.add_sub_cancel_left]
    exact (honward j k hi).symm

end Straight

end Topology

/-! ## The links of a mesh -/

namespace Wiring.MeshProposal

variable {g : Grid} {p q : Proposal}

/-- No two proposals of a mesh ask for one edge. -/
theorem eq_of_key (hp : MeshProposal g p) (hq : MeshProposal g q) (hkey : q.key = p.key) :
    q = p := by
  unfold Proposal.key at hkey
  -- an edge tells the cell that proposes it, and whether it leads along or upward
  cases hp with
  | @along row col hrow hcol =>
    cases hq with
    | @along row' col' hrow' hcol' =>
      simp only [Grid.edgeKey_across] at hkey
      obtain ⟨rfl, rfl⟩ := (Grid.across_inj (show col' < g.cols by omega) (by omega)).mp hkey
      rfl
    | @upward row' col' hrow' hcol' =>
      simp only [Grid.edgeKey_across, Grid.edgeKey_upward (show 0 < g.cols by omega)] at hkey
      exact absurd hkey.symm (Grid.across_ne_upward hcol hcol')
  | @upward row col hrow hcol =>
    have hpos : 0 < g.cols := by omega
    cases hq with
    | @along row' col' hrow' hcol' =>
      simp only [Grid.edgeKey_across, Grid.edgeKey_upward hpos] at hkey
      exact absurd hkey (Grid.across_ne_upward hcol' hcol)
    | @upward row' col' hrow' hcol' =>
      simp only [Grid.edgeKey_upward hpos] at hkey
      obtain ⟨rfl, rfl⟩ := (Grid.upward_inj hcol' hcol).mp hkey
      rfl

end Wiring.MeshProposal

/-- By how much ranks differ over a link of a mesh: by 1 along a row, where weights
    are 1, and by a whole row along a column. -/
def Grid.stride (g : Grid) (weight : Nat) : Nat :=
  if weight = 1 then 1 else g.cols

theorem Wiring.MeshProposal.target_eq {g : Grid} {p : Proposal} (hp : MeshProposal g p) :
    p.target = p.source + g.stride p.dimension.weight := by
  cases hp with
  | @along row col hrow hcol =>
    show g.cell row (col + 1) = g.cell row col + 1
    unfold Grid.cell
    omega
  | @upward row col hrow hcol =>
    show g.cell (row + 1) col = g.cell row col + g.cols
    unfold Grid.cell
    rw [Nat.add_mul, Nat.one_mul, Nat.add_assoc]

namespace Stages

variable {c : Configuration} {endpoints : List Endpoint} {t : Topology}
  {placements : List Placement} {wiring : Wiring}

theorem straight_of_proposal (s : Stages c endpoints t placements wiring)
    (hfamily : c.family = .mesh) {p : Proposal} (hp : Wiring.MeshProposal t.grid p) :
    t.Straight p.dimension.weight 1 p.source p.target := by
  obtain ⟨e, he, hsource, htarget, hweight⟩ :=
    s.exists_edge_of_proposal ((s.mem_mesh_iff hfamily).mpr hp) fun q hq =>
      hp.eq_of_key ((s.mem_mesh_iff hfamily).mp hq)
  rw [← hsource, ← htarget, ← hweight]
  exact .single (Topology.mem_links.mpr ⟨e, he, .inl rfl⟩)

/-- Either way, the ranks at the ends of a link differ by the stride of its weight. -/
theorem links_stride (s : Stages c endpoints t placements wiring) (hfamily : c.family = .mesh)
    {l : InternalLink} (hl : l ∈ t.links) :
    l.target = l.source + t.grid.stride l.weight ∨
      l.source = l.target + t.grid.stride l.weight := by
  obtain ⟨e, he, hlink⟩ := Topology.mem_links.mp hl
  obtain ⟨p, hp, hsource, htarget, hweight, -⟩ := s.mem_edges he
  have hmesh := (s.mem_mesh_iff hfamily).mp (Proposal.mem_of_mem_fresh hp)
  have hstride := hmesh.target_eq
  rw [← hsource, ← htarget, ← hweight] at hstride
  rcases hlink with rfl | rfl
  · exact .inl hstride
  · exact .inr hstride

/-! ## Routes in dimension order -/

/-- Along the row to the column of the target, and then along that column. -/
theorem exists_orderedWalk (s : Stages c endpoints t placements wiring)
    (hfamily : c.family = .mesh) {row col row' col' : Nat} (hrow : row < t.grid.rows)
    (hcol : col < t.grid.cols) (hrow' : row' < t.grid.rows) (hcol' : col' < t.grid.cols) :
    ∃ walk, t.Walk (t.grid.cell row col) (t.grid.cell row' col') walk ∧
      (walk.Pairwise fun l m => l.weight ≤ m.weight) ∧
      walk.length = Nat.dist col col' + Nat.dist row row' := by
  have halong : t.Straight 1 (Nat.dist col col') (t.grid.cell row col) (t.grid.cell row col') :=
    .of_line (fun i hi => s.straight_of_proposal hfamily (.along hrow hi)) hcol hcol'
  have hupward : t.Straight 2 (Nat.dist row row') (t.grid.cell row col')
      (t.grid.cell row' col') :=
    .of_line (f := fun row => t.grid.cell row col')
      (fun i hi => s.straight_of_proposal hfamily (.upward hi hcol')) hrow hrow'
  obtain ⟨walk, hwalk, hlength, hweight⟩ := halong
  obtain ⟨walk', hwalk', hlength', hweight'⟩ := hupward
  refine ⟨walk ++ walk', hwalk.append hwalk', ?_, ?_⟩
  · -- weights are equal along either part, and the part of weight 1 comes first
    rw [List.pairwise_append]
    refine ⟨?_, ?_, ?_⟩
    · apply List.pairwise_of_forall_mem_list
      intro l hl m hm
      rw [hweight l hl, hweight m hm]
    · apply List.pairwise_of_forall_mem_list
      intro l hl m hm
      rw [hweight' l hl, hweight' m hm]
    · intro l hl m hm
      rw [hweight l hl, hweight' m hm]
      exact Nat.le_succ 1
  · rw [List.length_append, hlength, hlength']

end Stages

/-! ## The order of links -/

/-- A number that rises along routes in dimension order, on ranks up to `n`: first with
    the weight, and at one weight with the rank of the source, upwards or downwards as
    the link leads. -/
def InternalLink.order (n : Nat) (l : InternalLink) : Nat :=
  l.weight * (n + 1) + if l.source < l.target then l.source else n - l.source

namespace Stages

variable {c : Configuration} {endpoints : List Endpoint} {t : Topology}
  {placements : List Placement} {wiring : Wiring}

/-- What follows a link at its own weight leads the same way. -/
theorem same_way (s : Stages c endpoints t placements wiring) (hfamily : c.family = .mesh)
    {l m : InternalLink} (h : t.MayFollow l m) (hweight : l.weight = m.weight) :
    (l.source < l.target ∧ m.source < m.target) ∨ (l.target < l.source ∧ m.target < m.source) := by
  have hmeet := h.meet
  have hne := (s.links_routers h.left_mem).1
  have hne' := (s.links_routers h.right_mem).1
  -- links of one weight have one stride, so the opposite way would be the way back
  have hback : m.target ≠ l.source := fun hback =>
    h.no_turn (s.reverse?_eq_some h.left_mem h.right_mem hmeet.symm hback)
  have hstride := s.links_stride hfamily h.left_mem
  have hstride' := s.links_stride hfamily h.right_mem
  rw [← hweight] at hstride'
  omega

/-- Every step in dimension order raises the order of the link. -/
theorem order_lt (s : Stages c endpoints t placements wiring) (hfamily : c.family = .mesh)
    {l m : InternalLink} (h : t.MayFollow l m) :
    l.order t.routers.length < m.order t.routers.length := by
  have hsource := (s.links_routers h.left_mem).2.1
  have hsource' := (s.links_routers h.right_mem).2.1
  have hmeet := h.meet
  unfold InternalLink.order
  rcases Nat.lt_or_eq_of_le h.weight_le with hlt | heq
  · -- one unit of weight outweighs all ranks
    have hweight := Nat.mul_le_mul_right (t.routers.length + 1) (Nat.succ_le_of_lt hlt)
    rw [Nat.succ_mul] at hweight
    split <;> split <;> omega
  · -- at one weight, all links lead upwards in rank, or all of them downwards
    rw [heq]
    rcases s.same_way hfamily h heq with ⟨hup, hup'⟩ | ⟨hdown, hdown'⟩
    · rw [if_pos hup, if_pos hup']
      omega
    · rw [if_neg (Nat.lt_asymm hdown), if_neg (Nat.lt_asymm hdown')]
      omega

theorem order_lt_of_transGen (s : Stages c endpoints t placements wiring)
    (hfamily : c.family = .mesh) {l m : InternalLink} (h : Relation.TransGen t.MayFollow l m) :
    l.order t.routers.length < m.order t.routers.length := by
  induction h with
  | single hstep => exact s.order_lt hfamily hstep
  | tail _ hstep ih => exact Nat.lt_trans ih (s.order_lt hfamily hstep)

end Stages

/-! ## Main statement -/

/-- **Dimension order**: in a mesh, walks with weights that never fall lead from every
    router to every other one on a shortest way, and no sequence of links, each followed
    by the next in this order, is closed. -/
theorem synthesize_dimensionOrdered {c : Configuration} {endpoints : List Endpoint}
    {t : Topology} (h : synthesize c endpoints = .ok t) (hfamily : c.family = .mesh) :
    t.DimensionOrdered := by
  obtain ⟨placements, wiring, s⟩ := synthesize_stages h
  have hunfolded : t.family ≠ .ring := by simp [s.family, hfamily]
  constructor
  · intro a ha b hb
    obtain ⟨row, col, hrow, hcol, hcell⟩ := Grid.exists_cell (s.rank_lt ha)
    obtain ⟨row', col', hrow', hcol', hcell'⟩ := Grid.exists_cell (s.rank_lt hb)
    obtain ⟨walk, hwalk, hordered, hlength⟩ :=
      s.exists_orderedWalk hfamily hrow hcol hrow' hcol'
    refine ⟨⟨col, row⟩, ⟨col', row'⟩, walk, ?_, ?_, ?_, hordered, hlength⟩
    · rw [s.position_eq, hcell, Family.spot_cell hunfolded hcol]
    · rw [s.position_eq, hcell', Family.spot_cell hunfolded hcol']
    · rw [hcell, hcell']
      exact hwalk
  · intro l hcycle
    exact Nat.lt_irrefl _ (s.order_lt_of_transGen hfamily hcycle)

theorem synthesize_dimensionOrdered_sixteen :
    ∃ t, synthesize { family := .mesh } (Endpoint.population 16 0 0) = .ok t ∧
      t.DimensionOrdered := by
  obtain ⟨t, h⟩ := exists_synthesize_sixteen .mesh
  exact ⟨t, h, synthesize_dimensionOrdered h rfl⟩

end Interconnect
