import Interconnect.Proofs.Drawing.Lines
import Interconnect.Proofs.Overlay
import Interconnect.Proofs.WellFormed

/-! # Documents are faithful

    A document says what was drawn: its nodes, and its edges within a path that is there only
    if they are.

    * Which lines are of nodes and which are of edges can be told from how they begin
      (`Part`).
    * The environments around them are nested (`Nested`).

    `synthesize_document_faithful` is the main statement: what a fresh writer adds to an
    endless device is such a document, and two documents are the same, up to their time,
    exactly if the same was drawn.
-/

namespace Interconnect

/-- The coordinates of all routers are below a bound. -/
def Topology.PositionsBelow (t : Topology) (bound : Nat) : Prop :=
  ∀ r ∈ t.routers, ∀ p, t.position r.rank = .ok p → p.x < bound ∧ p.y < bound

namespace Drawing.Tikz

open Text (IsLine lines_unlines unlines)

/-! ## Parts -/

/-- Whether a line begins so. -/
def begins (opening line : String) : Bool :=
  opening.toList.isPrefixOf line.toList

/-- What lines there are within the picture. -/
inductive Part where
  | node
  | header
  | edge
  | terminator
  deriving DecidableEq, Repr

namespace Part

/-- How the lines of a part begin. -/
def opening : Part → String
  | node => "    \\node"
  | header => "    \\path"
  | edge => "    ("
  | terminator => "    ;"

/-- The lines that a script has of a part: as many as there are nodes and edges, and one
    header and one terminator if there are edges. -/
def lines {t : Topology} (script : Script t) : Part → List String
  | node => script.nodes.map nodeText
  | header => if script.drawn = [] then [] else [pathLine (pathStyle t.family)]
  | edge => script.drawn.map edgeText
  | terminator => if script.drawn = [] then [] else ["    ;"]

variable {part : Part}

/-- The lines of all parts are indented. -/
theorem begins_opening_of_head {line : String} (h : line.toList.head? ≠ some ' ') :
    begins part.opening line = false := by
  unfold begins
  -- the first characters differ already
  have hopening : ∃ rest, part.opening.toList = ' ' :: rest := by cases part <;> simp [opening]
  obtain ⟨rest, hopening⟩ := hopening
  rw [hopening]
  cases hline : line.toList with
  | nil => rfl
  | cons c cs =>
    have hc : ' ' ≠ c := by
      rintro rfl
      exact h (by rw [hline]; rfl)
    simp [List.isPrefixOf, hc]

theorem begins_opening_nodeText (n : Nat × Position) :
    begins part.opening (nodeText n) = decide (part = node) := by
  cases part <;> simp [nodeText_eq, begins, opening, List.isPrefixOf]

theorem begins_opening_edgeText (e : DrawnEdge) :
    begins part.opening (edgeText e) = decide (part = edge) := by
  cases part <;> simp [edgeText_eq, begins, opening, List.isPrefixOf]

theorem begins_opening_pathLine (style : String) :
    begins part.opening (pathLine style) = decide (part = header) := by
  cases part <;> simp [pathLine_eq, begins, opening, List.isPrefixOf]

/-- Where all lines are of one part, they are all there is of it, and nothing is of others. -/
theorem filter_map {α : Type} {f : α → String} {own : Part} (part : Part)
    (h : ∀ {part : Part} (a : α), begins part.opening (f a) = decide (part = own)) (as : List α) :
    (as.map f).filter (begins part.opening) = if part = own then as.map f else [] := by
  have hcomp : begins part.opening ∘ f = fun _ => decide (part = own) := funext h
  rw [List.filter_map, hcomp]
  by_cases hpart : part = own
  · simp [hpart]
  · simp [hpart]

theorem begins_opening_of_mem_preamble (generated : String) (family : Family) (g : Grid) :
    ∀ l ∈ preamble generated family g, begins part.opening l = false := by
  have hheads : ∀ l ∈ preamble generated family g, l.toList.head? ≠ some ' ' := by
    simp only [preamble, List.forall_mem_cons, toString, String.toList_append]
    simp
  exact fun l hl => begins_opening_of_head (hheads l hl)

theorem begins_opening_of_mem_postamble : ∀ l ∈ postamble, begins part.opening l = false := by
  have hheads : ∀ l ∈ postamble, l.toList.head? ≠ some ' ' := by simp [postamble]
  exact fun l hl => begins_opening_of_head (hheads l hl)

end Part

/-! ## Environments -/

/-- A line that neither begins nor ends an environment, which lines do at their start. -/
def Plain (line : String) : Prop :=
  begins "\\begin" line = false ∧ begins "\\end" line = false

/-- Lines in which each environment that begins is ended, within the one around it. -/
inductive Nested : List String → Prop where
  | nil : Nested []
  | line {l : String} {rest : List String} : Plain l → Nested rest → Nested (l :: rest)
  | environment {name options : String} {body rest : List String} :
      '\x7d' ∉ name.toList → Nested body → Nested rest →
        Nested (("\\begin\x7b" ++ name ++ "\x7d" ++ options) ::
          (body ++ ("\\end\x7b" ++ name ++ "\x7d") :: rest))

theorem Nested.append {ls rest : List String} (h : ∀ l ∈ ls, Plain l) (hrest : Nested rest) :
    Nested (ls ++ rest) := by
  induction ls with
  | nil => exact hrest
  | cons l ls ih =>
    obtain ⟨hl, hls⟩ := List.forall_mem_cons.mp h
    exact .line hl (ih hls)

theorem plain_nodeText (n : Nat × Position) : Plain (nodeText n) := by
  simp [nodeText_eq, Plain, begins, List.isPrefixOf]

theorem plain_edgeText (e : DrawnEdge) : Plain (edgeText e) := by
  simp [edgeText_eq, Plain, begins, List.isPrefixOf]

theorem plain_of_mem_pathText {family : Family} {edges : List DrawnEdge} :
    ∀ l ∈ pathText family edges, Plain l := by
  have hheader : Plain (pathLine (pathStyle family)) := by
    simp [pathLine_eq, Plain, begins, List.isPrefixOf]
  have hrest : Plain "" ∧ Plain "    ;" := by
    unfold Plain
    decide
  unfold pathText
  by_cases h : edges = []
  · simp [h]
  · simp [h, hheader, hrest, plain_edgeText, or_imp, forall_and]

/-- Nothing begins or ends within the picture. The picture is in a figure, and the figure in
    a document. -/
theorem nested_textLines {t : Topology} (generated : String) (script : Script t) :
    Nested (textLines generated script) := by
  have hnodes : ∀ l ∈ script.nodes.map nodeText, Plain l := by
    intro l hl
    obtain ⟨n, -, rfl⟩ := List.mem_map.mp hl
    exact plain_nodeText n
  have hpath := @plain_of_mem_pathText t.family script.drawn
  -- from the inside out, and last the lines before the document begins
  have hpicture : Nested (script.nodes.map nodeText ++ (pathText t.family script.drawn ++ [])) :=
    .append hnodes (.append hpath .nil)
  have htikz := @Nested.environment "tikzpicture" ("[shorten >=1pt,auto,align=center,thick," ++
      "main node/.style=\x7bminimum size=25pt,fill=green!25,draw," ++
      "font=\\sffamily\\Large\\bfseries\x7d]") _ [] (by simp) hpicture .nil
  have hfigure := @Nested.environment "figure" "[p]" _ [] (by simp)
    (@Nested.line "\\centering" _ (by unfold Plain; decide) htikz) .nil
  have hdocument := @Nested.environment "document" "" _ [] (by simp)
    (@Nested.line "\\pagenumbering\x7bgobble\x7d" _ (by unfold Plain; decide) hfigure) .nil
  have hhead : ∀ l ∈ (preamble generated t.family t.grid).take 7, Plain l := by
    simp [preamble, Plain, begins, List.isPrefixOf, toString]
  have hall := Nested.append hhead hdocument
  simpa [textLines, preamble, postamble] using hall

/-! ## Documents -/

/-- What a document holds of a script. -/
structure Document (generated : String) {t : Topology} (script : Script t) (text : String) :
    Prop where
  /-- What is on which line: after the preamble the nodes by rank, then the path, which begins
      with its header, goes on with the edges by id, and ends with its terminator. -/
  lines : Text.lines text = preamble generated t.family t.grid ++ script.nodes.map nodeText ++
    pathText t.family script.drawn ++ postamble
  /-- No other line looks like one of a part. -/
  parts : ∀ part : Part, (Text.lines text).filter (begins part.opening) = part.lines script
  environments : Nested (Text.lines text)

/-- The lines of a text but for the second one, which tells the time. -/
def untimed (text : String) : List String :=
  (Text.lines text).eraseIdx 1

section documents

variable {generated generated' : String} {t t' : Topology} {script : Script t}
  {script' : Script t'} {text text' : String}

/-- Within the path, the lines of a part are together. -/
theorem filter_pathText (family : Family) (edges : List DrawnEdge) (part : Part) :
    (pathText family edges).filter (begins part.opening) =
      match part with
      | .node => []
      | .header => if edges = [] then [] else [pathLine (pathStyle family)]
      | .edge => edges.map edgeText
      | .terminator => if edges = [] then [] else ["    ;"] := by
  have hedges := Part.filter_map part Part.begins_opening_edgeText edges
  have hempty : begins part.opening "" = false := by cases part <;> decide
  have hclose : begins part.opening "    ;" = decide (part = .terminator) := by
    cases part <;> decide
  unfold pathText
  by_cases h : edges = []
  · cases part <;> simp [h]
  · cases part <;> simp [h, hempty, Part.begins_opening_pathLine, hedges, hclose]

theorem filter_textLines (generated : String) (script : Script t) (part : Part) :
    (textLines generated script).filter (begins part.opening) = part.lines script := by
  have hpreamble : (preamble generated t.family t.grid).filter (begins part.opening) = [] := by
    simpa [List.filter_eq_nil_iff] using
      Part.begins_opening_of_mem_preamble generated t.family t.grid
  have hpostamble : postamble.filter (begins part.opening) = [] := by
    simpa [List.filter_eq_nil_iff] using Part.begins_opening_of_mem_postamble
  have hnodes := Part.filter_map part Part.begins_opening_nodeText script.nodes
  simp only [textLines, List.filter_append, hpreamble, hpostamble, hnodes, filter_pathText]
  cases part <;> simp [Part.lines]

theorem document_unlines (h : IsLine generated) (script : Script t) :
    Document generated script (unlines (textLines generated script)) where
  lines := lines_unlines (isLine_of_mem_textLines h script)
  parts := by
    rw [lines_unlines (isLine_of_mem_textLines h script)]
    exact filter_textLines generated script
  environments := by
    rw [lines_unlines (isLine_of_mem_textLines h script)]
    exact nested_textLines generated script

/-- What is untimed of a document begins with the title, and goes on after the time. -/
theorem Document.untimed_eq (d : Document generated script text) :
    untimed text = s!"% {t.name}" :: ((preamble "" t.family t.grid).drop 2 ++
      script.nodes.map nodeText ++ pathText t.family script.drawn ++ postamble) := by
  rw [untimed, d.lines]
  rfl

/-- The line of the time is of no part. -/
theorem Document.filter_untimed (d : Document generated script text) (part : Part) :
    (untimed text).filter (begins part.opening) = part.lines script := by
  have htime : begins part.opening (timeLine generated) = false :=
    Part.begins_opening_of_mem_preamble generated t.family t.grid _
      (List.mem_cons_of_mem _ List.mem_cons_self)
  have hsplit : Text.lines text = s!"% {t.name}" :: timeLine generated ::
      ((preamble "" t.family t.grid).drop 2 ++ script.nodes.map nodeText ++
        pathText t.family script.drawn ++ postamble) := d.lines
  rw [← d.parts part, hsplit, d.untimed_eq]
  simp only [List.filter_cons, htime]
  rfl

/-- But for the time, documents are the same exactly if the same was drawn. -/
theorem Document.untimed_inj (d : Document generated script text)
    (d' : Document generated' script' text') :
    untimed text = untimed text' ↔
      t.name = t'.name ∧ script.nodes = script'.nodes ∧ script.drawn = script'.drawn := by
  constructor
  · intro h
    -- part by part, as the time is of none
    have hparts : ∀ part : Part, part.lines script = part.lines script' := by
      intro part
      rw [← d.filter_untimed, ← d'.filter_untimed, h]
    rw [d.untimed_eq, d'.untimed_eq] at h
    have htitle := (List.cons.inj h).1
    refine ⟨?_, ?_, ?_⟩
    · simpa [toString, String.append_right_inj] using htitle
    · exact List.map_injective_iff.mpr nodeText_injective (hparts .node)
    · exact List.map_injective_iff.mpr edgeText_injective (hparts .edge)
  · rintro ⟨hname, hnodes, hdrawn⟩
    -- the rest of the preamble, and the style of the path, follow from the title
    obtain ⟨hfamily, hgrid⟩ := Family.title_inj.mp hname
    rw [d.untimed_eq, d'.untimed_eq, hname, hfamily, hgrid, hnodes, hdrawn]

end documents

/-! ## Writing -/

theorem nodeLine_eq {p : Position} (hx : p.x < 2 ^ 50) (hy : p.y < 2 ^ 50) (rank : Nat) :
    nodeLine rank p = nodeText (rank, p) := by
  delta nodeLine nodeText
  dsimp only
  rw [coordinate_eq hx, coordinate_eq hy]

/-- The header of the path begins with the empty line. -/
theorem pathHeader_eq (style : String) : pathHeader style = "\n" ++ pathLine style := by
  rw [pathLine_eq, ← String.append_assoc]
  delta pathHeader
  simp only [toString, String.append_assoc]
  rfl

/-- A fresh writer draws a topology to its end, and adds a document of it. -/
structure Documented {ω : Type} (device : Device ω) (paper : ω) (generated : String)
    {t : Topology} (script : Script t) (text : String) : Prop where
  complete : ∃ final, draw (device.sink generated) t { paper } = ⟨true, [], final⟩ ∧
    device.contents final.paper = device.contents paper ++ text
  document : Document generated script text

end Drawing.Tikz

namespace Stages

open Drawing.Tikz

variable {c : Configuration} {endpoints : List Endpoint} {t : Topology}
  {placements : List Placement} {wiring : Wiring}

theorem nodeLines_eq (s : Stages c endpoints t placements wiring)
    (hbelow : t.PositionsBelow (2 ^ 50)) : nodeLines t = s.script.nodes.map nodeText := by
  unfold nodeLines script
  rw [List.map_map]
  apply List.map_congr_left
  intro r hr
  obtain ⟨hx, hy⟩ := hbelow r hr _ (s.position_eq r.rank)
  exact nodeLine_eq hx hy r.rank

theorem unlines_pathLines (s : Stages c endpoints t placements wiring) :
    Text.unlines (pathLines t) = Text.unlines (pathText t.family s.script.drawn) := by
  have hedges : edgeLines t = s.script.drawn.map edgeText := by
    unfold edgeLines Drawing.Script.drawn
    rw [List.map_map]
    rfl
  have hnone : s.script.drawn = [] ↔ t.edges = [] := List.map_eq_nil_iff
  unfold pathLines pathText
  by_cases h : t.edges = []
  · rw [if_pos h, if_pos (hnone.mpr h)]
  · rw [if_neg h, if_neg (hnone.not.mpr h), ← hedges]
    simp [pathHeader_eq, String.append_assoc]

theorem documented (s : Stages c endpoints t placements wiring)
    (hbelow : t.PositionsBelow (2 ^ 50)) {generated : String} (hline : Text.IsLine generated)
    {ω : Type} {device : Device ω} {paper : ω} (hendless : device.Endless paper) :
    Documented device paper generated s.script
      (Text.unlines (textLines generated s.script)) where
  complete := by
    obtain ⟨final, hdraw, hcontents⟩ :=
      draw_of_endless (⟨paper, "", false⟩ : Writer ω) hendless generated t
    refine ⟨final, hdraw, ?_⟩
    rw [hcontents]
    simp only [documentLines, textLines, Text.unlines_append, s.nodeLines_eq hbelow,
      s.unlines_pathLines]
  document := document_unlines hline s.script

/-- Positions are below the number of routers. -/
theorem positionsBelow (s : Stages c endpoints t placements wiring) {bound : Nat}
    (h : t.routers.length ≤ bound) : t.PositionsBelow bound := by
  rw [s.length_routers] at h
  intro r hr p hp
  obtain rfl : t.family.spot t.grid r.rank = p := by
    rw [s.position_eq] at hp
    exact Except.ok.inj hp
  have hrank : r.rank < t.grid.rows * t.grid.cols := by
    rw [← List.mem_range, ← s.ranks_eq]
    exact List.mem_map_of_mem hr
  have hcol := Nat.mod_lt r.rank s.cols_pos
  have hcols : t.grid.cols ≤ t.grid.rows * t.grid.cols :=
    Nat.le_mul_of_pos_left _ (Nat.pos_of_mul_pos_right (Nat.zero_lt_of_lt hrank))
  have hrow := Nat.div_le_self r.rank t.grid.cols
  unfold Family.spot
  -- folded back or not, a column is a column
  split
  · exact ⟨by dsimp only; omega, by dsimp only; omega⟩
  · exact ⟨by dsimp only; omega, by dsimp only; omega⟩

end Stages

/-! ## Main statement -/

namespace Drawing.Tikz

open Text (IsLine)

/-- **Documents** of two networks, drawn by fresh writers on endless devices, hold their
    scripts, and they are the same but for the time exactly if the same was drawn. -/
theorem synthesize_document_faithful {c c' : Configuration} {endpoints endpoints' : List Endpoint}
    {t t' : Topology} (h : synthesize c endpoints = .ok t)
    (h' : synthesize c' endpoints' = .ok t') (hbelow : t.PositionsBelow (2 ^ 50))
    (hbelow' : t'.PositionsBelow (2 ^ 50)) {generated generated' : String}
    (hline : IsLine generated) (hline' : IsLine generated') {ω ω' : Type}
    {device : Device ω} {device' : Device ω'} {paper : ω} {paper' : ω'}
    (hendless : device.Endless paper) (hendless' : device'.Endless paper') :
    ∃ (script : Script t) (script' : Script t') (text text' : String),
      Documented device paper generated script text ∧
      Documented device' paper' generated' script' text' ∧
      (untimed text = untimed text' ↔
        t.name = t'.name ∧ script.nodes = script'.nodes ∧ script.drawn = script'.drawn) := by
  obtain ⟨placements, wiring, s⟩ := synthesize_stages h
  obtain ⟨placements', wiring', s'⟩ := synthesize_stages h'
  have hdoc := s.documented hbelow hline hendless
  have hdoc' := s'.documented hbelow' hline' hendless'
  exact ⟨s.script, s'.script, _, _, hdoc, hdoc', hdoc.document.untimed_inj hdoc'.document⟩

/-- The documents of a hierarchical ring and of a ring are told apart by their titles. -/
theorem synthesize_document_faithful_rings :
    ∃ (t t' : Topology) (script : Script t) (script' : Script t') (text text' : String),
      synthesize .sixByFour (Endpoint.population 24 0 1) = .ok t ∧
      synthesize (.fourRing .segmentOrdinal) (Endpoint.population 4 0 0) = .ok t' ∧
      Documented Paper.device ⟨"", none⟩ "2020-02-29 12:00:00 UTC" script text ∧
      Documented Paper.device ⟨"", none⟩ "2020-02-29 12:00:01 UTC" script' text' ∧
      untimed text ≠ untimed text' := by
  obtain ⟨t, h⟩ := exists_synthesize_sixByFour
  obtain ⟨t', h'⟩ := exists_synthesize_fourRing .segmentOrdinal
  obtain ⟨placements, wiring, s⟩ := synthesize_stages h
  obtain ⟨placements', wiring', s'⟩ := synthesize_stages h'
  have hsize : t.routers.length = 24 := by
    rw [s.length_routers_eq]
    rfl
  have hbelow : t.PositionsBelow (2 ^ 50) := s.positionsBelow (by rw [hsize]; decide)
  have hbelow' : t'.PositionsBelow (2 ^ 50) :=
    s'.positionsBelow (by rw [s'.length_routers_fourRing]; decide)
  have hlines : IsLine "2020-02-29 12:00:00 UTC" ∧ IsLine "2020-02-29 12:00:01 UTC" := by
    simp [IsLine]
  obtain ⟨script, script', text, text', hdoc, hdoc', hsame⟩ :=
    synthesize_document_faithful h h' hbelow hbelow' hlines.1 hlines.2 (Paper.endless "")
      (Paper.endless "")
  refine ⟨t, t', script, script', text, text', h, h', hdoc, hdoc', ?_⟩
  intro huntimed
  have hfamily := (Family.title_inj.mp (hsame.mp huntimed).1).1
  rw [s.family, s'.family] at hfamily
  exact absurd hfamily (by decide)

end Drawing.Tikz

end Interconnect
