import Interconnect.Escape.Plan
import Interconnect.Family

/-! # Configurations

    What a synthesis is asked for: the family and its sizing, latencies, how
    escape ranks are numbered, and what is written beside the topology. Every
    field has a default, so that a configuration may leave out any of them.
-/

namespace Interconnect

/-- Where output goes unless told otherwise. -/
def defaultOutputDirectory : String := "fabric-out"

/-- Whether and where the network is drawn. -/
structure DiagramConfiguration where
  enabled : Bool := false
  outputDirectory : String := defaultOutputDirectory
  /-- Also typeset the drawing. -/
  render : Bool := false
  deriving DecidableEq, Repr, Inhabited

/-- Whether and where the power model is written, and its parameters. -/
structure PowerModelConfiguration where
  enabled : Bool := false
  outputDirectory : String := defaultOutputDirectory
  linkWidthBits : UInt64 := 128
  vcsPerVnet : UInt64 := 4
  buffersPerCtrlVc : UInt64 := 1
  buffersPerDataVc : UInt64 := 4
  deriving DecidableEq, Repr, Inhabited

/-- What a synthesis is asked for. -/
structure Configuration where
  family : Family := .mesh
  numCpus : UInt64 := 16
  meshRows : UInt64 := 4
  concentrationFactor : UInt64 := 1
  numDirs : UInt64 := 16
  linkLatency : UInt64 := 1
  routerLatency : UInt64 := 1
  escapeRankPolicy : Escape.RankPolicy := .segmentOrdinal
  diagram : DiagramConfiguration := {}
  powerModel : PowerModelConfiguration := {}
  deriving DecidableEq, Repr, Inhabited

end Interconnect
