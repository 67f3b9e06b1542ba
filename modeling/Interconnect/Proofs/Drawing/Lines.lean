import Interconnect.Proofs.Drawing.Tikz
import Interconnect.Proofs.Text

/-! # Lines of a document

    What is drawn of a network stands on lines of a document, and each of them shows one node
    or one edge only.

    * Coordinates below 2^50 are written exactly, and two places tell one and a half times a
      number from that of any other (`oneAndAHalf`).
    * There are six kinds of edges, and no two of them have the same options (`strokes`).
-/

namespace Interconnect

namespace Drawing

/-! ## Strokes -/

/-- The strokes that edges have, in one family or another. -/
def strokes : List Stroke :=
  [⟨none, false⟩, ⟨none, true⟩, ⟨some (tenths 2), false⟩, ⟨some (tenths 6), false⟩,
    ⟨some (tenths 6), true⟩, ⟨some (tenths 10), false⟩]

theorem stroke_mem_strokes (family : Family) (g : Grid) (l : InternalLink) :
    stroke family g l ∈ strokes := by
  unfold stroke strokes
  cases family with
  | mesh => by_cases h : l.weight = 1 <;> simp [h]
  | ring => by_cases h : l.weight = 1 <;> simp [h]
  | hierarchicalRing => by_cases h : l.weight = 1 <;> simp [h]
  | fullyConnected => simp
  | flattenedButterfly =>
    -- bent or not, an edge has the same two widths
    generalize (if l.source / g.cols = l.target / g.cols then
      decide (l.source / g.cols < g.rows / 2) else decide (g.cols / 2 ≤ l.source % g.cols)) = bend
    by_cases h : l.weight = 1 <;> cases bend <;> simp [h]

/-- An edge as it is drawn: what it joins, and with which of the strokes. -/
structure DrawnEdge where
  source : Nat
  target : Nat
  stroke : Stroke
  known : stroke ∈ strokes

/-- The edges of a script as they are drawn, in order. -/
def Script.drawn {t : Topology} (script : Script t) : List DrawnEdge :=
  script.edges.map fun l =>
    ⟨l.source, l.target, stroke t.family t.grid l, stroke_mem_strokes t.family t.grid l⟩

namespace Tikz

open Text (IsLine Stops append_inj_of_stops append_repr_inj)

theorem map_options : strokes.map options = ["", "bend right=30", "line width=0.2mm",
    "line width=0.6mm", "bend right=30,line width=0.6mm", "line width=1mm"] := by
  decide +kernel

/-- No two strokes have the same options. -/
theorem options_inj {s s' : Stroke} (h : s ∈ strokes) (h' : s' ∈ strokes)
    (heq : options s = options s') : s = s' := by
  have hnodup : (strokes.map options).Nodup := by
    rw [map_options]
    simp
  exact List.inj_on_of_nodup_map hnodup h h' heq

/-- Options end where a bracket does, on the same line. -/
theorem options_inside {s : Stroke} (h : s ∈ strokes) :
    ']' ∉ (options s).toList ∧ IsLine (options s) := by
  have hmem : options s ∈ strokes.map options := List.mem_map_of_mem h
  unfold IsLine
  rw [map_options] at hmem
  -- what is left is about six texts
  generalize options s = text at hmem ⊢
  revert text
  decide +kernel

/-! ## Coordinates -/

/-- One and a half times a number, with two places. -/
def oneAndAHalf (n : Nat) : String :=
  let places := if n % 2 = 0 then "00" else "50"
  s!"{3 * n / 2}.{places}"

/-- Neither the number nor three times it has more than 53 bits, so that nothing is rounded. -/
theorem coordinate_eq {n : Nat} (h : n < 2 ^ 50) : coordinate n = oneAndAHalf n := by
  have hround : Text.round53 n = n := Text.round53_eq_self (show n < 2 ^ 53 by omega)
  have htriple : Text.round53 (3 * n) = 3 * n :=
    Text.round53_eq_self (show 3 * n < 2 ^ 53 by omega)
  have hwhole : 50 * (3 * n) / 100 = 3 * n / 2 := by omega
  unfold coordinate Text.hundredths oneAndAHalf
  rw [hround, htriple, hwhole]
  by_cases heven : n % 2 = 0
  · have hplaces : 50 * (3 * n) % 100 = 0 := by omega
    have hpadded : "".pushn '0' (2 - (toString 0).length) ++ toString 0 = "00" := by decide
    rw [hplaces, if_pos heven]
    dsimp only
    rw [String.append_assoc, hpadded]
    rfl
  · have hplaces : 50 * (3 * n) % 100 = 50 := by omega
    have hpadded : "".pushn '0' (2 - (toString 50).length) ++ toString 50 = "50" := by decide
    rw [hplaces, if_neg heven]
    dsimp only
    rw [String.append_assoc, hpadded]
    rfl

example : coordinate 3 = "4.50" := by decide +kernel

/-- A coordinate can be read off, whatever is after it. -/
theorem append_oneAndAHalf_inj {text r q : String} {m n : Nat} :
    text ++ (oneAndAHalf m ++ r) = text ++ (oneAndAHalf n ++ q) ↔ m = n ∧ r = q := by
  constructor
  · intro h
    have hdigits := h
    simp only [oneAndAHalf, toString, String.append_assoc] at hdigits
    obtain ⟨hwhole, -⟩ := (append_repr_inj (by simp [Stops]) (by simp [Stops])).mp hdigits
    -- no two numbers have the same digits before the point
    obtain rfl : m = n := by omega
    exact ⟨rfl, by simpa [String.append_right_inj] using h⟩
  · rintro ⟨rfl, rfl⟩
    rfl

theorem isLine_oneAndAHalf (n : Nat) : IsLine (oneAndAHalf n) := by
  have hpoint : IsLine "." := by simp [IsLine]
  by_cases heven : n % 2 = 0
  · have hplaces : IsLine "00" := by simp [IsLine]
    simp [oneAndAHalf, toString, heven, hpoint, hplaces]
  · have hplaces : IsLine "50" := by simp [IsLine]
    simp [oneAndAHalf, toString, heven, hpoint, hplaces]

/-! ## Lines -/

/-- The line of a node at an exact coordinate. -/
def nodeText (n : Nat × Position) : String :=
  let x := oneAndAHalf n.2.x
  let y := oneAndAHalf n.2.y
  s!"    \\node[main node] ({n.1}) at ({x},{y}) \x7b{n.1}\x7d;"

theorem nodeText_eq (n : Nat × Position) :
    nodeText n = "    \\node[main node] (" ++ (n.1.repr ++ (") at (" ++ (oneAndAHalf n.2.x ++
      ("," ++ (oneAndAHalf n.2.y ++ (") \x7b" ++ (n.1.repr ++ "\x7d;"))))))) := by
  delta nodeText
  simp only [toString, String.append_assoc]

theorem nodeText_injective : Function.Injective nodeText := by
  intro n n' h
  rw [nodeText_eq, nodeText_eq] at h
  obtain ⟨hrank, h⟩ := (append_repr_inj (by simp [Stops]) (by simp [Stops])).mp h
  obtain ⟨hx, h⟩ := append_oneAndAHalf_inj.mp h
  obtain ⟨hy, -⟩ := append_oneAndAHalf_inj.mp h
  obtain ⟨rank, x, y⟩ := n
  obtain ⟨rank', x', y'⟩ := n'
  simp_all

theorem isLine_nodeText (n : Nat × Position) : IsLine (nodeText n) := by
  have hrest : IsLine "    \\node[main node] (" ∧ IsLine ") at (" ∧ IsLine "," ∧
    IsLine ") \x7b" ∧ IsLine "\x7d;" := by simp [IsLine]
  simp [nodeText_eq, isLine_oneAndAHalf, hrest]

/-- The line of an edge. -/
def edgeText (e : DrawnEdge) : String :=
  let style := options e.stroke
  s!"    ({e.source}) edge [{style}] node[] \x7b\x7d ({e.target})"

theorem edgeText_eq (e : DrawnEdge) :
    edgeText e = "    (" ++ (e.source.repr ++ (") edge [" ++ (options e.stroke ++
      ("] node[] \x7b\x7d (" ++ (e.target.repr ++ ")"))))) := by
  delta edgeText
  simp only [toString, String.append_assoc]

/-- A line shows one edge only. -/
theorem edgeText_injective : Function.Injective edgeText := by
  intro e e' h
  rw [edgeText_eq, edgeText_eq] at h
  obtain ⟨hsource, h⟩ := (append_repr_inj (by simp [Stops]) (by simp [Stops])).mp h
  -- the options go on to the bracket
  have hoptions := (String.append_right_inj _).mp h
  have hinside : ∀ e : DrawnEdge, ∀ c ∈ (options e.stroke).toList, decide (c ≠ ']') = true := by
    intro e c hc
    exact decide_eq_true (ne_of_mem_of_not_mem hc (options_inside e.known).1)
  obtain ⟨hstroke, h⟩ := append_inj_of_stops (hinside e) (hinside e')
    (by simp [Stops]) (by simp [Stops]) hoptions
  obtain ⟨htarget, -⟩ := (append_repr_inj (by simp [Stops]) (by simp [Stops])).mp h
  have hstroke := options_inj e.known e'.known hstroke
  cases e
  cases e'
  simp_all

theorem isLine_edgeText (e : DrawnEdge) : IsLine (edgeText e) := by
  have hoptions := (options_inside e.known).2
  have hrest : IsLine "    (" ∧ IsLine ") edge [" ∧ IsLine "] node[] \x7b\x7d (" ∧ IsLine ")" := by
    simp [IsLine]
  simp [edgeText_eq, hoptions, hrest]

/-- The line that opens the path of the edges. An empty line is before it. -/
def pathLine (style : String) : String :=
  "    \\path[every node/.style=\x7bfont=\\sffamily\\footnotesize\x7d," ++
    s!"every edge/.append style=\x7b{style}\x7d]"

theorem pathLine_eq (style : String) :
    pathLine style = "    \\path[every node/.style=\x7bfont=\\sffamily\\footnotesize\x7d," ++
      ("every edge/.append style=\x7b" ++ (style ++ "\x7d]")) := by
  delta pathLine
  simp only [toString, String.append_assoc]

/-- The path of the edges, which is there only if they are. -/
def pathText (family : Family) (edges : List DrawnEdge) : List String :=
  if edges = [] then []
  else "" :: pathLine (pathStyle family) :: (edges.map edgeText ++ ["    ;"])

/-- The lines of the document of a script. -/
def textLines {t : Topology} (generated : String) (script : Script t) : List String :=
  preamble generated t.family t.grid ++ script.nodes.map nodeText ++
    pathText t.family script.drawn ++ postamble

theorem isLine_of_mem_pathText (family : Family) (edges : List DrawnEdge) :
    ∀ l ∈ pathText family edges, IsLine l := by
  have hstyle : IsLine (pathStyle family) := by cases family <;> simp [pathStyle, IsLine]
  have hrest : IsLine "" ∧ IsLine "    ;" ∧
      IsLine "    \\path[every node/.style=\x7bfont=\\sffamily\\footnotesize\x7d," ∧
      IsLine "every edge/.append style=\x7b" ∧ IsLine "\x7d]" := by simp [IsLine]
  have hpath : IsLine (pathLine (pathStyle family)) := by
    simp only [pathLine_eq, Text.isLine_append, hstyle, hrest, and_self]
  unfold pathText
  by_cases hedges : edges = []
  · simp [hedges]
  · simp [hedges, hpath, hrest, isLine_edgeText, or_imp, forall_and]

theorem isLine_of_mem_preamble {generated : String} (h : IsLine generated) (family : Family)
    (g : Grid) : ∀ l ∈ preamble generated family g, IsLine l := by
  have htitle := family.isLine_title g
  simp only [preamble, List.forall_mem_cons, toString, Text.isLine_append, Text.isLine_repr,
    htitle, h, and_true]
  simp [IsLine]

theorem isLine_of_mem_textLines {generated : String} (h : IsLine generated) {t : Topology}
    (script : Script t) : ∀ l ∈ textLines generated script, IsLine l := by
  have hend : ∀ l ∈ postamble, IsLine l := by simp [postamble, IsLine]
  intro l hl
  simp only [textLines, List.mem_append, List.mem_map] at hl
  obtain ((hl | ⟨n, -, rfl⟩) | hl) | hl := hl
  · exact isLine_of_mem_preamble h _ _ l hl
  · exact isLine_nodeText n
  · exact isLine_of_mem_pathText _ _ l hl
  · exact hend l hl

end Tikz

end Drawing

end Interconnect
