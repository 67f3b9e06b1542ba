import Interconnect.Drawing.Tikz
import Interconnect.Proofs.Drawing
import Interconnect.Proofs.Text

/-! # Documents do not depend on earlier drawings

    A writer keeps two things from call to call: the style of the current edges, and whether
    their path is open. It never goes back on them at the end of a drawing, and a call that
    fails may leave them in any state. What keeps one document out of the next is that a
    begin sets both.

    * On a device that takes everything, a call adds lines that depend on these two things
      only, and so do calls one after the other.
    * The calls of a drawing start with a begin, so that their lines depend on neither.

    `draw_independent` is the main statement: it is about every device, and everything that
    may have been done with the writer before.
-/

namespace Interconnect.Drawing.Tikz

open Text (unlines)

variable {ω : Type}

/-! ## Devices that take everything -/

namespace Device

/-- In some states a device takes whatever it is given, and is in one of them after it. -/
structure Takes (device : Device ω) (ready : ω → Prop) : Prop where
  write : ∀ paper text, ready paper → ∃ paper', (device.write text).run paper = (.ok (), paper') ∧
    device.contents paper' = device.contents paper ++ text ∧ ready paper'
  flush : ∀ paper, ready paper → ∃ paper', device.flush.run paper = (.ok (), paper') ∧
    device.contents paper' = device.contents paper ∧ ready paper'

/-- From this state on, a device takes all that is written, and can be flushed. -/
def Endless (device : Device ω) (paper : ω) : Prop :=
  ∃ ready, device.Takes ready ∧ ready paper

variable {device : Device ω} {paper : ω}

theorem Endless.write (h : device.Endless paper) (text : String) :
    ∃ paper', (device.write text).run paper = (.ok (), paper') ∧
      device.contents paper' = device.contents paper ++ text ∧ device.Endless paper' := by
  obtain ⟨ready, htakes, hpaper⟩ := h
  obtain ⟨paper', hrun, hcontents, hready⟩ := htakes.write paper text hpaper
  exact ⟨paper', hrun, hcontents, ready, htakes, hready⟩

theorem Endless.flush (h : device.Endless paper) :
    ∃ paper', device.flush.run paper = (.ok (), paper') ∧
      device.contents paper' = device.contents paper ∧ device.Endless paper' := by
  obtain ⟨ready, htakes, hpaper⟩ := h
  obtain ⟨paper', hrun, hcontents, hready⟩ := htakes.flush paper hpaper
  exact ⟨paper', hrun, hcontents, ready, htakes, hready⟩

end Device

/-- There is no end to paper without a number of lines. -/
theorem Paper.endless (text : String) : Paper.device.Endless ⟨text, none⟩ := by
  refine ⟨fun paper => paper.room = none, ⟨?_, ?_⟩, rfl⟩
  · rintro ⟨written, room⟩ text hroom
    subst hroom
    exact ⟨⟨written ++ text, none⟩, rfl, rfl, rfl⟩
  · intro paper hroom
    exact ⟨paper, rfl, rfl, hroom⟩

/-! ## Steps of a writer -/

section steps

variable {device : Device ω} {writer' : Writer ω} {act next : Write ω Unit}
  {text text' : String}

/-- A step of a writer adds a text to what its device holds, which is still endless. -/
structure Adds (device : Device ω) (act : Write ω Unit) (writer : Writer ω) (text : String)
    (writer' : Writer ω) : Prop where
  run : act.run writer = (.ok (), writer')
  contents : device.contents writer'.paper = device.contents writer.paper ++ text
  endless : device.Endless writer'.paper

theorem Adds.bind {writer writer'' : Writer ω} (h : Adds device act writer text writer')
    (hnext : Adds device next writer' text' writer'') :
    Adds device (do act; next) writer (text ++ text') writer'' where
  run := by rw [run_bind_of_ok h.run, hnext.run]
  contents := by rw [hnext.contents, h.contents, String.append_assoc]
  endless := hnext.endless

/-- What the device does leaves the rest of the writer as it is. -/
theorem run_onDevice {act : ExceptT Failure (StateM ω) Unit} {writer : Writer ω}
    {answer : Except Failure Unit} {paper : ω} (h : act.run writer.paper = (answer, paper)) :
    (onDevice act).run writer = (answer, { writer with paper }) := by
  simp only [ExceptT.run] at h
  simp [onDevice, ExceptT.run, h]

/-- Writing does not change what the writer keeps for itself. -/
theorem exists_adds_line (writer : Writer ω) (h : device.Endless writer.paper) (text : String) :
    ∃ paper, Adds device (line device text) writer (unlines [text]) { writer with paper } := by
  obtain ⟨paper, hrun, hcontents, hendless⟩ := h.write (text ++ "\n")
  exact ⟨paper, run_onDevice hrun, by simpa using hcontents, hendless⟩

theorem exists_adds_lines (writer : Writer ω) (h : device.Endless writer.paper) (ls : List String) :
    ∃ paper, Adds device (ls.forM (line device)) writer (unlines ls) { writer with paper } := by
  induction ls generalizing writer with
  | nil => exact ⟨writer.paper, rfl, by simp, h⟩
  | cons l ls ih =>
    obtain ⟨paper, hline⟩ := exists_adds_line writer h l
    obtain ⟨paper', hlines⟩ := ih _ hline.endless
    refine ⟨paper', ?_⟩
    simpa [List.forM_cons] using hline.bind hlines

theorem exists_adds_flush (writer : Writer ω) (h : device.Endless writer.paper) :
    ∃ paper, Adds device (onDevice device.flush) writer "" { writer with paper } := by
  obtain ⟨paper, hrun, hcontents, hendless⟩ := h.flush
  exact ⟨paper, run_onDevice hrun, by simpa using hcontents, hendless⟩

end steps

/-! ## Calls -/

/-- What a call leaves of the style of the edges, -/
def styleAfter (style : String) : Call → String
  | .begin family _ => pathStyle family
  | .node .. | .edge .. | .finish => style

/-- and whether their path is open after it. -/
def inPathAfter (inPath : Bool) : Call → Bool
  | .begin .. => false
  | .edge .. => true
  | .node .. | .finish => inPath

/-- The lines that a call adds. -/
def linesOf (generated style : String) (inPath : Bool) : Call → List String
  | .begin family g => preamble generated family g
  | .node rank p => [nodeLine rank p]
  | .edge l s => (if inPath then [] else [pathHeader style]) ++ [edgeLine l s]
  | .finish => (if inPath then ["    ;"] else []) ++ postamble

/-- The lines that calls add, one after the other. -/
def page (generated : String) : String → Bool → List Call → List String
  | _, _, [] => []
  | style, inPath, call :: rest =>
    linesOf generated style inPath call ++
      page generated (styleAfter style call) (inPathAfter inPath call) rest

section calls

variable {device : Device ω} {writer : Writer ω}

/-- One call: of earlier ones, only what the writer kept decides what is written. -/
theorem exists_adds_call (h : device.Endless writer.paper) (generated : String) (call : Call) :
    ∃ paper, Adds device (device.sink generated call) writer
      (unlines (linesOf generated writer.pathStyle writer.inPath call))
      ⟨paper, styleAfter writer.pathStyle call, inPathAfter writer.inPath call⟩ := by
  obtain ⟨paper₀, style, inPath⟩ := writer
  cases call with
  | begin family g =>
    obtain ⟨paper, hlines⟩ := exists_adds_lines ⟨paper₀, pathStyle family, false⟩ h
      (preamble generated family g)
    exact ⟨paper, hlines.run, hlines.contents, hlines.endless⟩
  | node rank p => exact exists_adds_line _ h (nodeLine rank p)
  | edge l s =>
    by_cases hpath : inPath
    · subst hpath
      obtain ⟨paper, hedge⟩ := exists_adds_line ⟨paper₀, style, true⟩ h (edgeLine l s)
      exact ⟨paper, hedge.run, hedge.contents, hedge.endless⟩
    · -- the path counts as open before its header is written
      obtain rfl : inPath = false := by simpa using hpath
      obtain ⟨paper₁, hheader⟩ := exists_adds_line ⟨paper₀, style, true⟩ h
        (pathHeader style)
      obtain ⟨paper₂, hedge⟩ := exists_adds_line _ hheader.endless (edgeLine l s)
      have hboth := hheader.bind hedge
      rw [← Text.unlines_append] at hboth
      exact ⟨paper₂, hboth.run, hboth.contents, hboth.endless⟩
  | finish =>
    by_cases hpath : inPath
    · subst hpath
      obtain ⟨paper₁, hclose⟩ := exists_adds_line ⟨paper₀, style, true⟩ h "    ;"
      obtain ⟨paper₂, hend⟩ := exists_adds_lines _ hclose.endless postamble
      obtain ⟨paper₃, hflush⟩ := exists_adds_flush _ hend.endless
      have hall := hclose.bind (hend.bind hflush)
      rw [String.append_empty, ← Text.unlines_append] at hall
      exact ⟨paper₃, hall.run, hall.contents, hall.endless⟩
    · obtain rfl : inPath = false := by simpa using hpath
      obtain ⟨paper₁, hend⟩ := exists_adds_lines ⟨paper₀, style, false⟩ h postamble
      obtain ⟨paper₂, hflush⟩ := exists_adds_flush _ hend.endless
      have hall := hend.bind hflush
      rw [String.append_empty] at hall
      exact ⟨paper₂, hall.run, hall.contents, hall.endless⟩

/-- All calls are taken, and their lines are added one after the other. -/
theorem exists_takes (h : device.Endless writer.paper) (generated : String) (cs : List Call) :
    ∃ final, (device.sink generated).Takes cs writer final ∧
      device.contents final.paper = device.contents writer.paper ++
        unlines (page generated writer.pathStyle writer.inPath cs) ∧
      device.Endless final.paper := by
  induction cs generalizing writer with
  | nil => exact ⟨writer, .nil writer, by simp [page], h⟩
  | cons call rest ih =>
    obtain ⟨paper, hcall⟩ := exists_adds_call h generated call
    obtain ⟨final, htakes, hcontents, hendless⟩ := ih hcall.endless
    refine ⟨final, .cons hcall.run htakes, ?_, hendless⟩
    rw [hcontents, hcall.contents, page, Text.unlines_append, String.append_assoc]

end calls

/-! ## Documents -/

/-- The lines of the nodes of a topology. -/
def nodeLines (t : Topology) : List String :=
  t.routers.map fun r => nodeLine r.rank (t.family.spot t.grid r.rank)

/-- The lines of its edges. -/
def edgeLines (t : Topology) : List String :=
  t.edges.map fun l => edgeLine l (stroke t.family t.grid l)

/-- The lines of the path that holds the edges, if there are any. -/
def pathLines (t : Topology) : List String :=
  if t.edges = [] then [] else pathHeader (pathStyle t.family) :: (edgeLines t ++ ["    ;"])

/-- All that is written of a topology. -/
def documentLines (generated : String) (t : Topology) : List String :=
  preamble generated t.family t.grid ++ nodeLines t ++ pathLines t ++ postamble

section page

variable {generated style : String} {inPath : Bool} {rest : List Call}

theorem page_nodes (family : Family) (g : Grid) (routers : List Router) :
    page generated style inPath
        ((routers.map fun r => .node r.rank (family.spot g r.rank)) ++ rest) =
      (routers.map fun r => nodeLine r.rank (family.spot g r.rank)) ++
        page generated style inPath rest := by
  induction routers with
  | nil => simp
  | cons r routers ih => simp [page, linesOf, styleAfter, inPathAfter, ih]

/-- In an open path, an edge adds its own line only. -/
theorem page_edges (family : Family) (g : Grid) (edges : List InternalLink) :
    page generated style true ((edges.map fun l => .edge l (stroke family g l)) ++ rest) =
      (edges.map fun l => edgeLine l (stroke family g l)) ++ page generated style true rest := by
  induction edges with
  | nil => simp
  | cons l edges ih => simp [page, linesOf, styleAfter, inPathAfter, ih]

/-- The lines of a drawing are those of its document, whatever was drawn before. -/
theorem page_calls (t : Topology) :
    page generated style inPath (calls t) = documentLines generated t := by
  unfold calls
  -- the begin sets the style, and closes the path of an earlier drawing
  rw [page, List.append_assoc, page_nodes]
  cases hedges : t.edges with
  | nil =>
    simp [page, linesOf, styleAfter, inPathAfter, documentLines, nodeLines, pathLines, hedges]
  | cons l edges =>
    -- the first edge opens the path, and the finish finds it open
    rw [List.map_cons, List.cons_append, page]
    simp only [styleAfter, inPathAfter, page_edges]
    simp [page, linesOf, documentLines, nodeLines, pathLines, edgeLines, hedges]

end page

/-! ## Histories -/

/-- What is left of a writer after calls, each at a time of its own, whatever became of them. -/
def Device.after (device : Device ω) (history : List (String × Call)) (start : Writer ω) :
    Writer ω :=
  history.foldl (fun writer step => ((device.sink step.1 step.2).run writer).2) start

/-- The line that tells when a document was written. -/
def timeLine (generated : String) : String :=
  s!"% generated {generated}"

/-- Two texts, written at two times, that differ in this line only. -/
def SameButTime (generated generated' text text' : String) : Prop :=
  ∃ before after, text = before ++ timeLine generated ++ "\n" ++ after ∧
    text' = before ++ timeLine generated' ++ "\n" ++ after

/-- The lines that do not tell the time: the first one, and all after the second. -/
theorem documentLines_eq (generated : String) (t : Topology) :
    documentLines generated t = s!"% {t.name}" :: timeLine generated ::
      ((preamble "" t.family t.grid).drop 2 ++ nodeLines t ++ pathLines t ++ postamble) :=
  rfl

theorem documentLines_sameButTime (generated generated' : String) (t : Topology) :
    SameButTime generated generated' (unlines (documentLines generated t))
      (unlines (documentLines generated' t)) := by
  rw [documentLines_eq, documentLines_eq]
  refine ⟨s!"% {t.name}" ++ "\n",
    unlines ((preamble "" t.family t.grid).drop 2 ++ nodeLines t ++ pathLines t ++ postamble),
    ?_, ?_⟩
  · simp only [Text.unlines_cons, String.append_assoc]
  · simp only [Text.unlines_cons, String.append_assoc]

section drawing

variable {device : Device ω}

/-- Whatever state a writer is in, it adds the lines of the document to an endless device. -/
theorem draw_of_endless (writer : Writer ω) (h : device.Endless writer.paper) (generated : String)
    (t : Topology) :
    ∃ final, draw (device.sink generated) t writer = ⟨true, [], final⟩ ∧
      device.contents final.paper =
        device.contents writer.paper ++ unlines (documentLines generated t) := by
  obtain ⟨final, htakes, hcontents, -⟩ := exists_takes h generated (calls t)
  rw [page_calls] at hcontents
  exact ⟨final, draw_of_takes htakes, hcontents⟩

theorem text_document (generated : String) (t : Topology) :
    (document generated t).final.paper.text = unlines (documentLines generated t) := by
  obtain ⟨final, hdraw, hcontents⟩ := draw_of_endless (⟨⟨"", none⟩, "", false⟩ : Pen)
    (Paper.endless "") generated t
  have hdocument : document generated t = ⟨true, [], final⟩ := hdraw
  have hblank : Paper.device.contents ⟨"", none⟩ = "" := rfl
  rw [hblank, String.empty_append] at hcontents
  rw [hdocument]
  exact hcontents

end drawing

/-! ## Main statement -/

/-- **Documents** do not depend on what was done with the writer before: not on the calls, nor
    on which of them failed and where. If the device takes everything from now on, the drawing
    is complete, and it adds the document that a fresh writer would write. -/
theorem draw_independent (device : Device ω) (history : List (String × Call)) (start : Writer ω)
    (t : Topology) (generated generated' : String)
    (h : device.Endless (device.after history start).paper) :
    ∃ final text,
      draw (device.sink generated) t (device.after history start) = ⟨true, [], final⟩ ∧
      device.contents final.paper = device.contents (device.after history start).paper ++ text ∧
      SameButTime generated generated' text (document generated' t).final.paper.text := by
  obtain ⟨final, hdraw, hcontents⟩ := draw_of_endless _ h generated t
  refine ⟨final, _, hdraw, hcontents, ?_⟩
  rw [text_document]
  exact documentLines_sameButTime generated generated' t

/-- A device that fails once, after so many texts, and takes all that is written later. -/
def Device.jamming : Device (Option Nat × String) where
  write text := do
    match ← get with
    | (none, written) => set ((none : Option Nat), written ++ text)
    | (some (n + 1), written) => set (some n, written ++ text)
    | (some 0, written) =>
      set ((none : Option Nat), written)
      throw ⟨"paper jam"⟩
  flush := pure ()
  contents := Prod.snd

theorem Device.jamming_endless {paper : Option Nat × String} (h : paper.1 = none) :
    Device.jamming.Endless paper := by
  refine ⟨fun paper => paper.1 = none, ⟨?_, ?_⟩, h⟩
  · rintro ⟨jam, written⟩ text hjam
    subst hjam
    exact ⟨(none, written ++ text), rfl, rfl, rfl⟩
  · intro paper hjam
    exact ⟨paper, rfl, rfl, hjam⟩

/-- A drawing that breaks off at the header of its path, where the device jams. -/
def Device.jammed : Writer (Option Nat × String) :=
  Device.jamming.after
    [("noon", .begin .flattenedButterfly ⟨2, 2⟩), ("noon", .edge default ⟨none, false⟩)]
    ⟨(some 12, ""), "", false⟩

/-- It leaves a path open, in the style of another family. The next document is none the worse
    for it. -/
theorem draw_independent_jammed :
    Device.jammed.inPath = true ∧ Device.jammed.pathStyle = pathStyle .flattenedButterfly ∧
    ∃ t final text, synthesize .sixByFour (Endpoint.population 24 0 1) = .ok t ∧
      draw (Device.jamming.sink "one") t Device.jammed = ⟨true, [], final⟩ ∧
      final.paper.2 = Device.jammed.paper.2 ++ text ∧
      SameButTime "one" "two" text (document "two" t).final.paper.text := by
  obtain ⟨t, ht⟩ := exists_synthesize_sixByFour
  obtain ⟨final, text, hdraw, hcontents, hsame⟩ := draw_independent Device.jamming
    [("noon", .begin .flattenedButterfly ⟨2, 2⟩), ("noon", .edge default ⟨none, false⟩)]
    ⟨(some 12, ""), "", false⟩ t "one" "two" (Device.jamming_endless rfl)
  exact ⟨rfl, rfl, t, final, text, ht, hdraw, hcontents, hsame⟩

end Interconnect.Drawing.Tikz
