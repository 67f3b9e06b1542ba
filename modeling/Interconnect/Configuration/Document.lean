import Interconnect.Configuration
import Interconnect.Yaml.Typed
import Interconnect.Yaml.Value

/-! # Configuration documents

    A configuration as a YAML document. Every field is written; any of them
    may be missing from a document that is read, and then has its default.
-/

namespace Interconnect

open Yaml (Value)
open Yaml.Typed (Slot Reader)

namespace DiagramConfiguration

/-- The fields of the section on drawings. -/
def fields : List (Slot DiagramConfiguration) :=
  [.of "enabled" Yaml.Typed.boolean fun d x => { d with enabled := x },
    .of "output_dir" Yaml.Typed.filePath fun d x => { d with outputDirectory := x },
    .of "render" Yaml.Typed.boolean fun d x => { d with render := x }]

def reader : Reader DiagramConfiguration :=
  Yaml.Typed.record "DiagramConfiguration" fields {}

def value (d : DiagramConfiguration) : Value :=
  .record [("enabled", .bool d.enabled), ("output_dir", .text d.outputDirectory),
    ("render", .bool d.render)]

end DiagramConfiguration

namespace PowerModelConfiguration

/-- The fields of the section on power models. -/
def fields : List (Slot PowerModelConfiguration) :=
  [.of "enabled" Yaml.Typed.boolean fun p x => { p with enabled := x },
    .of "output_dir" Yaml.Typed.filePath fun p x => { p with outputDirectory := x },
    .of "link_width_bits" Yaml.Typed.word fun p x => { p with linkWidthBits := x },
    .of "vcs_per_vnet" Yaml.Typed.word fun p x => { p with vcsPerVnet := x },
    .of "buffers_per_ctrl_vc" Yaml.Typed.word fun p x => { p with buffersPerCtrlVc := x },
    .of "buffers_per_data_vc" Yaml.Typed.word fun p x => { p with buffersPerDataVc := x }]

def reader : Reader PowerModelConfiguration :=
  Yaml.Typed.record "PowerModelConfiguration" fields {}

def value (p : PowerModelConfiguration) : Value :=
  .record [("enabled", .bool p.enabled), ("output_dir", .text p.outputDirectory),
    ("link_width_bits", .nat p.linkWidthBits.toNat), ("vcs_per_vnet", .nat p.vcsPerVnet.toNat),
    ("buffers_per_ctrl_vc", .nat p.buffersPerCtrlVc.toNat),
    ("buffers_per_data_vc", .nat p.buffersPerDataVc.toNat)]

end PowerModelConfiguration

namespace Configuration

/-- The fields of a configuration. -/
def fields : List (Slot Configuration) :=
  [.of "topology" (Yaml.Typed.choice "Family" Family.all Family.name)
      fun c x => { c with family := x },
    .of "num_cpus" Yaml.Typed.word fun c x => { c with numCpus := x },
    .of "mesh_rows" Yaml.Typed.word fun c x => { c with meshRows := x },
    .of "concentration_factor" Yaml.Typed.word fun c x => { c with concentrationFactor := x },
    .of "num_dirs" Yaml.Typed.word fun c x => { c with numDirs := x },
    .of "link_latency" Yaml.Typed.word fun c x => { c with linkLatency := x },
    .of "router_latency" Yaml.Typed.word fun c x => { c with routerLatency := x },
    .of "escape_rank_policy"
      (Yaml.Typed.choice "EscapeRankPolicy" Escape.RankPolicy.all Escape.RankPolicy.name)
      fun c x => { c with escapeRankPolicy := x },
    .of "diagram" DiagramConfiguration.reader fun c x => { c with diagram := x },
    .of "power_model" PowerModelConfiguration.reader fun c x => { c with powerModel := x }]

def reader : Reader Configuration :=
  Yaml.Typed.record "SynthesisConfiguration" fields {}

def value (c : Configuration) : Value :=
  .record [("topology", .text c.family.name), ("num_cpus", .nat c.numCpus.toNat),
    ("mesh_rows", .nat c.meshRows.toNat),
    ("concentration_factor", .nat c.concentrationFactor.toNat),
    ("num_dirs", .nat c.numDirs.toNat), ("link_latency", .nat c.linkLatency.toNat),
    ("router_latency", .nat c.routerLatency.toNat),
    ("escape_rank_policy", .text c.escapeRankPolicy.name), ("diagram", c.diagram.value),
    ("power_model", c.powerModel.value)]

/-- The configuration as a document. -/
def document (c : Configuration) : String :=
  c.value.document

/-- Read a configuration from a document. -/
def ofDocument (text : String) : Except Yaml.ReadError Configuration :=
  Yaml.Typed.ofText reader text

end Configuration

/-- Why a configuration was not obtained. -/
inductive ConfigurationError where
  | invalid (error : Yaml.ReadError)
  | /-- What was wrong with a file. -/
    file (text : String)
  deriving DecidableEq, Repr, Inhabited

namespace ConfigurationError

/-- The text shown for the error. -/
def message : ConfigurationError → String
  | invalid e => if e.isFatal then e.message else s!"ERROR: invalid configuration: {e.message}"
  | file text => s!"ERROR: invalid configuration: {text}"

/-- Whether the error ends the program rather than the reading. -/
def isFatal : ConfigurationError → Bool
  | invalid e => e.isFatal
  | file _ => false

end ConfigurationError

end Interconnect
