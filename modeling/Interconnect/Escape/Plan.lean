import Interconnect.Escape.Cycle
import Std.Data.HashMap

/-! # Escape plans

    A plan collects the cycles of a network and numbers the links and the
    routers on them. An edge has the rank of the cycle added last among those
    that run over it; a router has one only if it is on an escape channel.
    Ranks are either positions along the cycle or ranks of the link's source.
-/

namespace Interconnect

/-- An undirected edge as the pair of its ends, the smaller first. -/
def edgeKey (a b : Nat) : Nat × Nat :=
  if a < b then (a, b) else (b, a)

theorem edgeKey_comm (a b : Nat) : edgeKey a b = edgeKey b a := by
  unfold edgeKey
  split <;> split <;> first | omega | (have : a = b := by omega) <;> simp [this] | rfl

/-- Two pairs of ends are one edge if they are equal in some order. -/
theorem edgeKey_eq_iff {a b c d : Nat} :
    edgeKey a b = edgeKey c d ↔ (a = c ∧ b = d) ∨ (a = d ∧ b = c) := by
  unfold edgeKey
  split <;> split <;> simp only [Prod.mk.injEq] <;> omega

/-- An edge has the ends that it is made of. -/
theorem edgeKey_cases (a b : Nat) : edgeKey a b = (a, b) ∨ edgeKey a b = (b, a) := by
  unfold edgeKey
  split
  · exact .inl rfl
  · exact .inr rfl

theorem edgeKey_of_lt {a b : Nat} (h : a < b) : edgeKey a b = (a, b) := if_pos h

/-- The ends of an edge are in order already. -/
theorem edgeKey_edgeKey (a b : Nat) : edgeKey (edgeKey a b).1 (edgeKey a b).2 = edgeKey a b := by
  rcases edgeKey_cases a b with h | h
  · rw [h]
    exact h
  · rw [h]
    exact (edgeKey_comm b a).trans h

theorem edgeKey_fst_le (a b : Nat) : (edgeKey a b).1 ≤ (edgeKey a b).2 := by
  unfold edgeKey
  split <;> omega

namespace Escape

/-- Where the number of a rank comes from. -/
inductive RankPolicy where
  | /-- The position along the cycle. -/
    segmentOrdinal
  | /-- The rank of the router that the link leaves. -/
    routerRank
  deriving DecidableEq, Repr, Inhabited

namespace RankPolicy

def name : RankPolicy → String
  | segmentOrdinal => "SegmentOrdinal"
  | routerRank => "RouterRank"

/-- Both policies, in the order in which they are listed to the user. -/
def all : List RankPolicy :=
  [segmentOrdinal, routerRank]

end RankPolicy

/-- The number of a link, and the ring that it belongs to. -/
structure Rank where
  role : Role
  ordinal : Nat
  deriving DecidableEq, Repr, Inhabited

/-- The cycles of a network in the order of their addition, and the numbers
    that they give to edges and to routers. -/
structure Plan where
  policy : RankPolicy
  cycles : List Cycle
  edgeRanks : Std.HashMap (Nat × Nat) Rank
  routerRanks : Std.HashMap Nat Nat

namespace Plan

/-- A plan without cycles. -/
def empty (policy : RankPolicy) : Plan :=
  ⟨policy, [], ∅, ∅⟩

/-- Number the edges of a cycle, over whatever numbers they had. -/
def rankEdges (ranks : Std.HashMap (Nat × Nat) Rank) (c : Cycle) :
    Std.HashMap (Nat × Nat) Rank :=
  c.edges.zipIdx.foldl (fun ranks ((a, b), i) => ranks.insert (edgeKey a b) ⟨c.role, i⟩) ranks

/-- Number the routers of a cycle, over whatever numbers they had. -/
def rankRouters (ranks : Std.HashMap Nat Nat) (c : Cycle) : Std.HashMap Nat Nat :=
  c.routers.zipIdx.foldl (fun ranks (r, i) => ranks.insert r i) ranks

/-- Add a cycle. Edges that it shares with earlier cycles take its numbers;
    only cycles of the escape channel number their routers. -/
def add (p : Plan) (c : Cycle) : Plan :=
  { p with
    cycles := p.cycles ++ [c]
    edgeRanks := rankEdges p.edgeRanks c
    routerRanks := if c.role.isEscapeChannel then rankRouters p.routerRanks c else p.routerRanks }

/-- The plan of a list of cycles, added in order. -/
def ofCycles (policy : RankPolicy) (cycles : List Cycle) : Plan :=
  cycles.foldl add (empty policy)

/-- The first cycle of a role. -/
def cycle? (p : Plan) (role : Role) : Option Cycle :=
  p.cycles.find? fun c => c.role = role

/-- The rank of the link from one router to another, if a cycle runs over
    their edge. -/
def edgeRank? (p : Plan) (source target : Nat) : Option Rank :=
  (p.edgeRanks[edgeKey source target]?).map fun rank =>
    match p.policy with
    | .segmentOrdinal => rank
    | .routerRank => { rank with ordinal := source }

/-- The number of a router, if it is on the escape channel. -/
def routerRank? (p : Plan) (router : Nat) : Option Nat :=
  (p.routerRanks[router]?).map fun ordinal =>
    match p.policy with
    | .segmentOrdinal => ordinal
    | .routerRank => router

end Plan

end Escape

end Interconnect
