import Interconnect.Drawing

/-! # Tikz documents

    A drawing as a standalone LaTeX document: a preamble, a line for each
    node, one path that holds a line for each edge, and an end. The document
    is written on a device that may fail, such as paper that runs out.
-/

namespace Interconnect.Drawing.Tikz

/-- What documents are written on, in a state of its own. It takes a text, or fails after a
    part of it; what it took stays. -/
structure Device (ω : Type) where
  write : String → ExceptT Failure (StateM ω) Unit
  /-- Hand on what was taken. -/
  flush : ExceptT Failure (StateM ω) Unit
  /-- All that was taken so far. -/
  contents : ω → String

/-- What is written, and how many more lines there is room for; none if there
    is no end to it. -/
structure Paper where
  text : String := ""
  room : Option Nat := none
  deriving DecidableEq, Repr, Inhabited

/-- What of a text fits on a number of lines, and what is left of it. -/
def fitting (lines : Nat) : List Char → List Char × List Char
  | [] => ([], [])
  | c :: rest =>
    if lines = 0 then ([], c :: rest)
    else
      let (fit, left) := fitting (if c = '\n' then lines - 1 else lines) rest
      (c :: fit, left)

namespace Paper

/-- Write a text up to the end of the paper; the flag says that all of it did
    fit. -/
def fill (text : String) : Paper → Bool × Paper
  | ⟨written, none⟩ => (true, ⟨written ++ text, none⟩)
  | ⟨written, some lines⟩ =>
    let (fit, left) := fitting lines text.toList
    (left.isEmpty, ⟨written ++ String.ofList fit, some (lines - fit.count '\n')⟩)

/-- Paper fails when it runs out. -/
def device : Device Paper where
  write text := do
    let complete ← modifyGet (fill text)
    unless complete do throw ⟨"out of paper"⟩
  flush := pure ()
  contents := text

end Paper

/-- The state of a writer: what it writes on, the style of the current drawing's
    edges, and whether their path is open. -/
structure Writer (ω : Type) where
  paper : ω
  pathStyle : String := ""
  inPath : Bool := false
  deriving DecidableEq, Repr, Inhabited

/-- A writer on paper. -/
abbrev Pen := Writer Paper

/-- Writing, which fails when the device does. -/
abbrev Write (ω : Type) := ExceptT Failure (StateM (Writer ω))

variable {ω : Type}

/-- Have the device do something; the rest of the writer stays as it is. -/
def onDevice (act : ExceptT Failure (StateM ω) Unit) : Write ω Unit :=
  fun ⟨paper, pathStyle, inPath⟩ =>
    let (result, paper) := act.run paper
    (result, ⟨paper, pathStyle, inPath⟩)

/-- Write a line. -/
def line (device : Device ω) (text : String) : Write ω Unit :=
  onDevice (device.write (text ++ "\n"))

/-- `n * numerator / 5`, rounded up, and at least 1. -/
def inches (n numerator : Nat) : Nat :=
  max 1 ((n * numerator + 4) / 5)

/-- Width and height of the page in inches; square grids are drawn tighter. -/
def pageSize (g : Grid) : Nat × Nat :=
  let numerator := if g.rows = g.cols then 4 else 6
  (inches g.cols numerator, inches g.rows numerator)

/-- The style of all edges of a family. -/
def pathStyle : Family → String
  | .flattenedButterfly => "bend left=30,line width=0.2mm"
  | .mesh | .ring | .fullyConnected | .hierarchicalRing => "line width=0.3mm"

/-- One and a half times a coordinate, with two places; routers are that many
    centimetres apart. -/
def coordinate (n : Nat) : String :=
  Text.hundredths (50 * Text.round53 (3 * Text.round53 n))

/-- The lines up to the first node; the second one carries the time of
    writing. -/
def preamble (generated : String) (family : Family) (g : Grid) : List String :=
  let (width, height) := pageSize g
  [s!"% {family.title g}",
    s!"% generated {generated}",
    "\\documentclass\x7barticle\x7d",
    "\\usepackage[utf8]\x7binputenc\x7d",
    "\\usepackage\x7btikz\x7d",
    s!"\\usepackage[paperwidth={width}in,paperheight={height}in]\x7bgeometry\x7d",
    "\\geometry\x7bmargin=0.3in\x7d",
    "\\begin\x7bdocument\x7d",
    "\\pagenumbering\x7bgobble\x7d",
    "\\begin\x7bfigure\x7d[p]",
    "\\centering",
    "\\begin\x7btikzpicture\x7d[shorten >=1pt,auto,align=center,thick," ++
      "main node/.style=\x7bminimum size=25pt,fill=green!25,draw," ++
      "font=\\sffamily\\Large\\bfseries\x7d]"]

/-- The line of a node. -/
def nodeLine (rank : Nat) (spot : Position) : String :=
  let x := coordinate spot.x
  let y := coordinate spot.y
  s!"    \\node[main node] ({rank}) at ({x},{y}) \x7b{rank}\x7d;"

/-- What opens the path of the edges. -/
def pathHeader (style : String) : String :=
  "\n    \\path[every node/.style=\x7bfont=\\sffamily\\footnotesize\x7d," ++
    s!"every edge/.append style=\x7b{style}\x7d]"

/-- The options of an edge. -/
def options (s : Stroke) : String :=
  let bend := if s.bendRight then ["bend right=30"] else []
  let width := s.width.toList.map fun w => s!"line width={w.text}mm"
  ",".intercalate (bend ++ width)

/-- The line of an edge. -/
def edgeLine (l : InternalLink) (s : Stroke) : String :=
  let style := options s
  s!"    ({l.source}) edge [{style}] node[] \x7b\x7d ({l.target})"

/-- The lines after the last edge. -/
def postamble : List String :=
  ["\\end\x7btikzpicture\x7d", "\\end\x7bfigure\x7d", "\\end\x7bdocument\x7d"]

/-- A writer of documents, which all carry the given time. -/
def Device.sink (device : Device ω) (generated : String) : Sink (Writer ω)
  | .begin family g => do
    modify fun writer => { writer with pathStyle := pathStyle family, inPath := false }
    (preamble generated family g).forM (line device)
  | .node rank p => line device (nodeLine rank p)
  | .edge l s => do
    let writer ← get
    unless writer.inPath do
      set { writer with inPath := true }
      line device (pathHeader writer.pathStyle)
    line device (edgeLine l s)
  | .finish => do
    if (← get).inPath then line device "    ;"
    postamble.forM (line device)
    onDevice device.flush

/-- A writer of documents on paper. -/
def sink (generated : String) : Sink Pen :=
  Paper.device.sink generated

/-- The document of a topology. -/
def document (generated : String) (t : Topology) : Outcome Pen :=
  draw (sink generated) t { paper := {} }

end Interconnect.Drawing.Tikz
