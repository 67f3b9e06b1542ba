import Interconnect.Command.Request
import Interconnect.Configuration.File
import Interconnect.Emission
import Interconnect.Topology.Dot
import Interconnect.Topology.Record

/-! # The command

    A run of the program: obtain the configuration, synthesize the network,
    and write it where the request says. The first failure ends the run;
    failures of emissions do not count.
-/

namespace Interconnect.Command

variable {m : Type → Type} [Monad m]

/-- The end of a run. -/
structure Outcome where
  exit : Nat := 0
  /-- The words were refused. -/
  usage : Bool := false
  stdout : String := ""
  stderr : String := ""
  /-- What was reported on the side. -/
  records : List Journal.Record := []
  deriving DecidableEq, Repr, Inhabited

namespace Outcome

/-- A run that failed with a message, after some reports. -/
def failed (message : String) (records : List Journal.Record) : Outcome :=
  { exit := 1, stderr := s!"Error: {message}\n", records }

/-- A message together with the reason for it. -/
def because (message cause : String) : String :=
  s!"{message}\n\nCaused by:\n    {cause}"

/-- A run that was cut short. -/
def aborted (message : String) : Outcome :=
  { exit := 101, stderr := message ++ "\n" }

end Outcome

namespace Request

/-- Change a configuration as the request says. -/
def adjust (r : Request) (c : Configuration) : Configuration :=
  let c := match r.shape with
    | some s => s.apply c
    | none => c
  let policy := if r.routerRankEscape then .routerRank else c.escapeRankPolicy
  let diagram := match r.tikz with
    | some directory => { c.diagram with enabled := true, outputDirectory := directory }
    | none => c.diagram
  let powerModel := match r.powerModel with
    | some directory => { c.powerModel with enabled := true, outputDirectory := directory }
    | none => c.powerModel
  { c with
    escapeRankPolicy := policy
    diagram := { diagram with render := diagram.render || r.render }
    powerModel }

/-- The endpoints asked for: by default a cache for every cpu, and as many
    directories as configured. -/
def endpoints (r : Request) (c : Configuration) : Checked (List Endpoint) :=
  Endpoint.populate (r.caches.getD c.numCpus).toNat (r.dirs.getD c.numDirs).toNat r.dmas.toNat

/-- The configuration to start from, or the outcome of not obtaining it. -/
def configuration (host : Host m) (r : Request) : m (Except Outcome Configuration) := do
  match r.config with
  | some path =>
    match ← Configuration.ofFile host path with
    | .ok c => return .ok (r.adjust c)
    | .error e =>
      return .error (if e.isFatal then .aborted e.message else .failed e.message [])
  | none =>
    if r.shape.isSome then return .ok (r.adjust {})
    else return .error (.failed "either --config or a topology subcommand is required" [])

/-- The files asked for, in the order in which they are written. -/
def outputs (r : Request) (t : Topology) : List (String × String) :=
  (r.output.toList.map fun path => (path, t.document)) ++
    (r.dot.toList.map fun path => (path, t.dot))

/-- Write files, up to the first that cannot be written. -/
def writeAll (host : Host m) : List (String × String) → m (Option (String × OsError))
  | [] => return none
  | (path, text) :: rest => do
    match ← host.writeFile path text with
    | .ok () => writeAll host rest
    | .error e => return some (path, e)

/-- Write a topology where the request says. -/
def deliver (host : Host m) (r : Request) (t : Topology) (records : List Journal.Record) :
    m Outcome := do
  match ← writeAll host (r.outputs t) with
  | some (path, e) =>
    return .failed (Outcome.because s!"cannot write {path}" e.message) records
  | none =>
    return { stdout := if r.output.isNone && r.dot.isNone then t.dot else "", records }

/-- Carry out a request. -/
def perform (host : Host m) (r : Request) : m Outcome := do
  match ← r.configuration host with
  | .error outcome => return outcome
  | .ok c =>
    match r.endpoints c with
    | .error f => return .aborted f.message
    | .ok endpoints =>
      let noCanvas : Option (Canvas Unit) := none
      let emitted ← synthesizeWith host c endpoints noCanvas
      match emitted.result with
      | .error (.fault f) => return .aborted f.message
      | .error e =>
        let message := s!"synthesis of {c.family.name} failed"
        return .failed (Outcome.because message e.message) emitted.records
      | .ok t => r.deliver host t emitted.records

end Request

/-- Run the program on the words of a command line. -/
def run (host : Host m) (words : List String) : m Outcome :=
  match Request.ofWords words with
  | .request r => r.perform host
  | .text text => return { stdout := text }
  | .refused => return { exit := 1, usage := true }

end Interconnect.Command
