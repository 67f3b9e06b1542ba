import Interconnect.Drawing.Tikz
import Interconnect.Host
import Interconnect.PowerModel
import Interconnect.Synthesis.Journal

/-! # Emission

    What is written beside a topology: a drawing and a power model. They are
    made from a finished topology; a failure is reported and goes no further.

    Main statement: whatever is emitted, the result is that of the synthesis
    (`synthesizeWith_result`).
-/

namespace Interconnect

open Journal (Record)

variable {m : Type → Type} [Monad m]

namespace Emission

/-- The file that holds a drawing. -/
def diagramFile : String := "topo.tex"

/-- The arguments of the typesetter. -/
def typesetArguments : List String :=
  ["-halt-on-error", "-interaction=batchmode", diagramFile]

/-- Whether an emission succeeded, and its reports. -/
abbrev Report := Bool × List Record

/-- A failure after some reports. -/
def failed (before : List Record) (text : String) : Report :=
  (false, before ++ [⟨.error, text⟩])

/-- Typeset the drawing in a directory. -/
def typeset (host : Host m) (directory : String) : m Report := do
  match ← host.typeset directory typesetArguments with
  | .missing => return failed [] "pdflatex not found in PATH: cannot find binary path"
  | .unstarted program e => return failed [] s!"failed to run {program}: {e.message}"
  | .finished 0 => return (true, [])
  | .finished status =>
    let path := FilePath.join directory diagramFile
    return failed [] s!"pdflatex failed on {path} with exit status: {status}"

/-- Write the drawing of a topology, and typeset it if that is configured. -/
def emitDiagram (host : Host m) (t : Topology) (c : DiagramConfiguration) : m Report := do
  match ← host.createDirectories c.outputDirectory with
  | .error e => return failed [] s!"cannot create {c.outputDirectory}: {e.message}"
  | .ok () =>
    let path := FilePath.join c.outputDirectory diagramFile
    let drawn := Drawing.Tikz.document (← host.now) t
    match ← host.writeFile path drawn.final.paper.text with
    | .error e => return failed [] s!"cannot create {path}: {e.message}"
    | .ok () =>
      let records := ⟨.info, s!"writing diagram to {path}"⟩ :: drawn.records
      if drawn.complete && c.render then
        let (ok, more) ← typeset host c.outputDirectory
        return (ok, records ++ more)
      else return (drawn.complete, records)

/-- Write files into a directory, up to the first that cannot be written. -/
def writePowerModel (host : Host m) (directory : String) (before : List Record) :
    List (String × String) → m Report
  | [] => return (true, before)
  | (name, text) :: rest => do
    let path := FilePath.join directory name
    match ← host.writeFile path text with
    | .error e => return failed before s!"cannot write {path}: {e.message}"
    | .ok () =>
      let record : Record := ⟨.info, s!"wrote power model {path}"⟩
      writePowerModel host directory (before ++ [record]) rest

/-- Write the power model. -/
def emitPowerModel (host : Host m) (p : PowerModelConfiguration) : m Report := do
  match ← host.createDirectories p.outputDirectory with
  | .error e => return failed [] s!"cannot create {p.outputDirectory}: {e.message}"
  | .ok () => writePowerModel host p.outputDirectory [] (PowerModel.files p)

end Emission

/-- A receiver of the drawing that takes the place of the configured one, and
    the state that it is in. -/
structure Canvas (σ : Type) where
  sink : Drawing.Sink σ
  state : σ

/-- The end of a synthesis with its emissions: the topology or the refusal, all
    reports, and what the receiver of the drawing is left with. -/
structure Emitted (σ : Type) where
  result : Except SynthesisError Topology
  records : List Record
  canvas : Option σ

namespace Emission

/-- Draw on the canvas if there is one, else write the configured drawing. -/
def diagram {σ : Type} (host : Host m) (t : Topology) (c : DiagramConfiguration) :
    Option (Canvas σ) → m (List Record × Option σ)
  | some canvas =>
    let drawn := Drawing.draw canvas.sink t canvas.state
    return (drawn.records, some drawn.final)
  | none => do
    if c.enabled then
      let (_, records) ← emitDiagram host t c
      return (records, none)
    else return ([], none)

/-- Write the power model if it is configured. -/
def powerModel (host : Host m) (p : PowerModelConfiguration) : m (List Record) := do
  if p.enabled then
    let (_, records) ← emitPowerModel host p
    return records
  else return []

end Emission

/-- Synthesize a network, and emit what is configured. -/
def synthesizeWith {σ : Type} (host : Host m) (c : Configuration) (endpoints : List Endpoint)
    (canvas : Option (Canvas σ)) : m (Emitted σ) := do
  let records := Synthesis.journal c endpoints
  match synthesize c endpoints with
  | .error e => return ⟨.error e, records, canvas.map (·.state)⟩
  | .ok t =>
    let (drawing, final) ← Emission.diagram host t c.diagram canvas
    let power ← Emission.powerModel host c.powerModel
    return ⟨.ok t, records ++ drawing ++ power, final⟩

/-- Emission never affects what was synthesized. -/
theorem synthesizeWith_result [LawfulMonad m] {σ : Type} (host : Host m) (c : Configuration)
    (endpoints : List Endpoint) (canvas : Option (Canvas σ)) :
    (fun e : Emitted σ => e.result) <$> synthesizeWith host c endpoints canvas =
      (fun _ => synthesize c endpoints) <$> synthesizeWith host c endpoints canvas := by
  unfold synthesizeWith
  split <;> simp_all

end Interconnect
