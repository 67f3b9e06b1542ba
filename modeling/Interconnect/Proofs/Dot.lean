import Interconnect.Proofs.Drawing
import Interconnect.Proofs.Text
import Interconnect.Topology.Dot

/-! # Dot texts are faithful

    A dot text says which network it shows. It can be read back because every number in it is
    followed by something that is not a digit.

    * Between a header and a closing brace there is one line for each edge, in the order of
      their labels.
    * Two networks have the same text exactly if they have the same family, the same extent
      and the same edges, as far as a line shows them.

    `synthesize_dot_faithful` is the main statement.
-/

namespace Interconnect

open Text (IsLine Stops append_repr_inj lines lines_unlines unlines unlines_inj)

/-! ## Lines -/

/-- What a line shows of an edge. -/
structure ShownEdge where
  label : Nat
  source : Nat
  target : Nat
  weight : Nat
  /-- Whether it is on the escape channel. -/
  bold : Bool
  deriving DecidableEq, Repr

def InternalLink.shown (l : InternalLink) : ShownEdge :=
  ⟨l.id, l.source, l.target, l.weight, l.isEscape⟩

namespace ShownEdge

def style (e : ShownEdge) : String :=
  if e.bold then ", style=bold" else ""

/-- The line of an edge, without its end. -/
def text (e : ShownEdge) : String :=
  s!"   {e.source} -- {e.target} [label=\"{e.label}\", weight={e.weight}{e.style}]"

/-- From the left: each number, and what is after it. -/
theorem text_eq (e : ShownEdge) :
    e.text = "   " ++ (e.source.repr ++ (" -- " ++ (e.target.repr ++ (" [label=\"" ++
      (e.label.repr ++ ("\", weight=" ++ (e.weight.repr ++ (e.style ++ "]")))))))) := by
  delta text
  simp only [toString, String.append_assoc]

theorem stops_style (e : ShownEdge) : Stops Char.isDigit (e.style ++ "]") := by
  by_cases h : e.bold <;> simp [style, h, Stops]

theorem style_inj {e e' : ShownEdge} : e.style = e'.style ↔ e.bold = e'.bold := by
  by_cases h : e.bold <;> by_cases h' : e'.bold <;> simp [style, h, h']

/-- A line shows one edge only. -/
theorem text_injective : Function.Injective text := by
  intro e e' h
  rw [text_eq, text_eq] at h
  -- number by number, from the left
  obtain ⟨hsource, h⟩ := (append_repr_inj (by simp [Stops]) (by simp [Stops])).mp h
  obtain ⟨htarget, h⟩ := (append_repr_inj (by simp [Stops]) (by simp [Stops])).mp h
  obtain ⟨hlabel, h⟩ := (append_repr_inj (by simp [Stops]) (by simp [Stops])).mp h
  obtain ⟨hweight, h⟩ := (append_repr_inj e.stops_style e'.stops_style).mp h
  have hbold := style_inj.mp ((String.append_left_inj _).mp h)
  cases e
  cases e'
  simp_all

theorem isLine_text (e : ShownEdge) : IsLine e.text := by
  have hstyle : IsLine e.style := by by_cases h : e.bold <;> simp [style, h, IsLine]
  have hrest : IsLine "   " ∧ IsLine " -- " ∧ IsLine " [label=\"" ∧ IsLine "\", weight=" ∧
    IsLine "]" := by simp [IsLine]
  simp [text_eq, hstyle, hrest]

end ShownEdge

/-! ## Texts -/

namespace Topology

variable {t t' : Topology}

/-- The edges as the lines show them. -/
def shown (t : Topology) : List ShownEdge :=
  t.edges.map InternalLink.shown

/-- The first line. -/
def dotHeader (t : Topology) : String :=
  s!"graph \"{t.name}\" \x7b"

/-- What lines a dot text has. -/
structure DotText (t : Topology) : Prop where
  /-- There is one line for each edge, between a header and a brace. -/
  lines : Text.lines t.dot = t.dotHeader :: (t.shown.map ShownEdge.text ++ ["\x7d"])
  /-- Its edge is the first of two internal links. -/
  forward : ∀ k : Nat, t.shown[k]? = t.links[2 * k]?.map InternalLink.shown
  /-- Labels increase from line to line. -/
  labels : (t.shown.map ShownEdge.label).Pairwise (· < ·)

theorem dotLine_eq (l : InternalLink) : dotLine l = l.shown.text ++ "\n" := by
  rw [ShownEdge.text_eq]
  delta dotLine
  by_cases h : l.isEscape
  · simp [InternalLink.shown, ShownEdge.style, h, toString, String.append_assoc]
  · simp [InternalLink.shown, ShownEdge.style, h, toString, String.append_assoc]

theorem dot_eq (t : Topology) :
    t.dot = unlines (t.dotHeader :: (t.shown.map ShownEdge.text ++ ["\x7d"])) := by
  have hedges : t.edges.map dotLine = (t.shown.map ShownEdge.text).map (· ++ "\n") := by
    simp [dotLine_eq, shown]
  simp [dot, dotHeader, unlines, hedges, toString, String.append_assoc]

theorem isLine_dotHeader (t : Topology) : IsLine t.dotHeader := by
  have hname : IsLine t.name := Family.isLine_title t.family t.grid
  have hrest : IsLine "graph \"" ∧ IsLine "\" \x7b" := by simp [IsLine]
  simp [dotHeader, toString, hname, hrest]

theorem isLine_of_mem_dot (t : Topology) :
    ∀ line ∈ t.dotHeader :: (t.shown.map ShownEdge.text ++ ["\x7d"]), IsLine line := by
  have hbrace : IsLine "\x7d" := by simp [IsLine]
  simp [t.isLine_dotHeader, ShownEdge.isLine_text, hbrace, or_imp, forall_and]

theorem dotHeader_inj : t.dotHeader = t'.dotHeader ↔ t.family = t'.family ∧ t.grid = t'.grid := by
  rw [← Family.title_inj]
  simp [dotHeader, name, toString, String.append_left_inj, String.append_right_inj]

/-- Line by line, texts show the same. -/
theorem dot_inj :
    t.dot = t'.dot ↔ t.family = t'.family ∧ t.grid = t'.grid ∧ t.shown = t'.shown := by
  rw [dot_eq, dot_eq, unlines_inj t.isLine_of_mem_dot t'.isLine_of_mem_dot, List.cons.injEq,
    List.append_left_inj, dotHeader_inj,
    (List.map_injective_iff.mpr ShownEdge.text_injective).eq_iff, and_assoc]

end Topology

theorem Stages.dotText {c : Configuration} {endpoints : List Endpoint} {t : Topology}
    {placements : List Placement} {wiring : Wiring}
    (s : Stages c endpoints t placements wiring) : t.DotText where
  lines := by rw [t.dot_eq, lines_unlines t.isLine_of_mem_dot]
  forward := by
    intro k
    rw [Topology.shown, List.getElem?_map, (t.getElem?_links k).1]
  labels := by
    rw [Topology.shown, List.map_map]
    exact s.edges_byId

/-! ## Main statement -/

/-- **Dot texts** tell networks apart, and show each edge on a line of its own. -/
theorem synthesize_dot_faithful {c c' : Configuration} {endpoints endpoints' : List Endpoint}
    {t t' : Topology} (h : synthesize c endpoints = .ok t)
    (h' : synthesize c' endpoints' = .ok t') :
    (t.dot = t'.dot ↔ t.family = t'.family ∧ t.grid = t'.grid ∧ t.shown = t'.shown) ∧
      t.DotText ∧ t'.DotText := by
  obtain ⟨placements, wiring, s⟩ := synthesize_stages h
  obtain ⟨placements', wiring', s'⟩ := synthesize_stages h'
  exact ⟨Topology.dot_inj, s.dotText, s'.dotText⟩

/-- A ring and a hierarchical ring are told apart by their families. -/
theorem synthesize_dot_faithful_rings :
    ∃ t t', synthesize .sixByFour (Endpoint.population 24 0 1) = .ok t ∧
      synthesize (.fourRing .segmentOrdinal) (Endpoint.population 4 0 0) = .ok t' ∧
      t.dot ≠ t'.dot ∧ t.DotText ∧ t'.DotText := by
  obtain ⟨t, h⟩ := exists_synthesize_sixByFour
  obtain ⟨t', h'⟩ := exists_synthesize_fourRing .segmentOrdinal
  obtain ⟨hdot, ht, ht'⟩ := synthesize_dot_faithful h h'
  refine ⟨t, t', h, h', ?_, ht, ht'⟩
  intro hsame
  obtain ⟨placements, wiring, s⟩ := synthesize_stages h
  obtain ⟨placements', wiring', s'⟩ := synthesize_stages h'
  have hfamily := (hdot.mp hsame).1
  rw [s.family, s'.family] at hfamily
  exact absurd hfamily (by decide)

end Interconnect
