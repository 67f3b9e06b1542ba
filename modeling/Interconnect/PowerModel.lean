import Interconnect.Configuration

/-! # Power models

    The two parameter files of the power and area estimator: one for the
    routers, one for the links. They depend on the parameters of the power
    model alone, not on the network.
-/

namespace Interconnect.PowerModel

/-- The file of router parameters. -/
def routerFile : String := "router.cfg"

/-- The file of link parameters. -/
def linkFile : String := "electrical-link.cfg"

/-- The technology that is estimated for. -/
def technologyModel : String := "ext/dsent/tech/tech_models/TG11LVT.model"

/-- The clock, in hertz. -/
def frequency : String := "1e9"

/-- The length of a link, in metres. -/
def wireLength : String := "1e-3"

/-- The delay of a link, in seconds. -/
def wireDelay : String := "1e-9"

/-- Two networks for control and one for data. -/
def virtualNetworks : Nat := 3

/-- A text of whole lines. -/
def text (lines : List String) : String :=
  String.join (lines.map fun line => line ++ "\n")

/-- The router parameters. -/
def routerText (p : PowerModelConfiguration) : String :=
  let vcs := ", ".intercalate (List.replicate virtualNetworks (toString p.vcsPerVnet))
  let buffers := ", ".intercalate
    ([p.buffersPerCtrlVc, p.buffersPerCtrlVc, p.buffersPerDataVc].map toString)
  text [
    "# Name of model to be built and evaluated",
    "ModelName                               = Router",
    "",
    "QueryString                             = \\",
    "    Energy>>Router:WriteBuffer@0 \\",
    "    Energy>>Router:ReadBuffer@0 \\",
    "    Energy>>Router:TraverseCrossbar->Multicast1@0 \\",
    "    Energy>>Router:ArbitrateSwitch->ArbitrateStage1@0 \\",
    "    Energy>>Router:ArbitrateSwitch->ArbitrateStage2@0 \\",
    "    Energy>>Router:DistributeClock@0 \\",
    "    NddPower>>Router:Leakage@1 \\",
    "    Area>>Router:Active@1 \\",
    "",
    s!"ElectricalTechModelFilename             = {technologyModel}",
    "",
    "IsPerformTimingOptimization             = true",
    "TimingOptimization->StartNetNames       = [*]",
    s!"Frequency                               = {frequency}",
    "",
    "# Port counts are overwritten per router by the power/area script",
    "NumberInputPorts                        = 1",
    "NumberOutputPorts                       = 1",
    s!"NumberBitsPerFlit                       = {p.linkWidthBits}",
    "",
    s!"NumberVirtualNetworks                   = {virtualNetworks}",
    s!"NumberVirtualChannelsPerVirtualNetwork  = [{vcs}]",
    s!"NumberBuffersPerVirtualChannel          = [{buffers}]",
    "",
    "InputPort->BufferModel                  = DFFRAM",
    "CrossbarModel                           = MultiplexerCrossbar",
    "SwitchAllocator->ArbiterModel           = MatrixArbiter",
    "ClockTreeModel                          = BroadcastHTree",
    "ClockTree->NumberLevels                 = 5",
    "ClockTree->WireLayer                    = Global",
    "ClockTree->WireWidthMultiplier          = 1.0",
    "",
    "BufRdInjectionRate                      = 1.0",
    "BufWrInjectionRate                      = 1.0",
    "XbarInjectionRate                       = 1.0",
    "SAInjectionRate                         = 1.0",
    "",
    "EvaluateString                          = \\",
    "    buf_rd_ejection_rate   = $(NumberInputPorts) * $(BufRdInjectionRate) / $(NumberOutputPorts); \\",
    "    buf_wr_ejection_rate   = $(NumberInputPorts) * $(BufWrInjectionRate) / $(NumberOutputPorts); \\",
    "    xbar_ejection_rate     = $(NumberInputPorts) * $(XbarInjectionRate) / $(NumberOutputPorts); \\",
    "    sa_ejection_rate       = $(NumberInputPorts) * $(SAInjectionRate) / $(NumberOutputPorts); \\",
    "    buf_rd_dynamic         = $(Energy>>Router:ReadBuffer) * $(Frequency); \\",
    "    buf_wr_dynamic         = $(Energy>>Router:WriteBuffer) * $(Frequency); \\",
    "    buf_static             = $(NddPower>>Router->InputPort:Leakage) * $(NumberInputPorts) + ($(NddPower>>Router->PipelineReg0:Leakage) + $(NddPower>>Router->PipelineReg1:Leakage)) * $(NumberInputPorts) * $(NumberBitsPerFlit); \\",
    "    xbar_o_dynamic         = $(Energy>>Router:TraverseCrossbar->Multicast1) * $(Frequency); \\",
    "    xbar_static            = $(NddPower>>Router->Crossbar:Leakage) + $(NddPower>>Router->PipelineReg2_0:Leakage) * $(NumberOutputPorts) * $(NumberBitsPerFlit); \\",
    "    sa_o_dynamic           = ($(Energy>>Router:ArbitrateSwitch->ArbitrateStage1) + $(Energy>>Router:ArbitrateSwitch->ArbitrateStage2)) * $(Frequency); \\",
    "    sa_static              = $(NddPower>>Router->SwitchAllocator:Leakage); \\",
    "    clock_o_dynamic        = $(Energy>>Router:DistributeClock) * $(Frequency); \\",
    "    clock_static           = $(NddPower>>Router->ClockTree:Leakage); \\",
    "    buffer_dynamic         = buf_wr_dynamic * $(BufRdInjectionRate) * $(NumberInputPorts) + buf_rd_dynamic * buf_wr_ejection_rate * $(NumberOutputPorts); \\",
    "    buffer_leakage         = buf_static; \\",
    "    xbar_dynamic           = xbar_o_dynamic * xbar_ejection_rate * $(NumberOutputPorts); \\",
    "    xbar_leakage           = xbar_static; \\",
    "    sa_dynamic             = sa_o_dynamic * sa_ejection_rate * $(NumberOutputPorts); \\",
    "    sa_leakage             = sa_static; \\",
    "    clock_dynamic          = clock_o_dynamic; \\",
    "    clock_leakage          = clock_static; \\",
    "    total_dynamic          = buffer_dynamic + xbar_dynamic + sa_dynamic + clock_dynamic; \\",
    "    total_leakage          = buffer_leakage + xbar_leakage + sa_leakage + clock_leakage; \\",
    "    buf_area               = ($(Area>>Router->InputPort:Active) + ($(Area>>Router->PipelineReg0:Active) + $(Area>>Router->PipelineReg1:Active)) * $(NumberBitsPerFlit)) * $(NumberInputPorts); \\",
    "    xbar_area              = $(Area>>Router->Crossbar:Active) + $(Area>>Router->Crossbar_Sel_DFF:Active) + $(Area>>Router->PipelineReg2_0:Active) * $(NumberBitsPerFlit) * $(NumberOutputPorts); \\",
    "    sa_area                = $(Area>>Router->SwitchAllocator:Active); \\",
    "    other_area             = $(Area>>Router->ClockTree:Active); \\",
    "    total_area             = 1.1 * (buf_area + xbar_area + sa_area + other_area); \\",
    "    print \"Buffer/Dynamic power: \" buffer_dynamic; \\",
    "    print \"Buffer/Leakage power: \" buffer_leakage; \\",
    "    print \"Crossbar/Dynamic power: \" xbar_dynamic; \\",
    "    print \"Crossbar/Leakage power: \" xbar_leakage; \\",
    "    print \"Switch allocator/Dynamic power: \" sa_dynamic; \\",
    "    print \"Switch allocator/Leakage power: \" sa_leakage; \\",
    "    print \"Clock/Dynamic power: \" clock_dynamic; \\",
    "    print \"Clock/Leakage power: \" clock_leakage; \\",
    "    print \"Area/Buffer: \" buf_area; \\",
    "    print \"Area/Crossbar: \" xbar_area; \\",
    "    print \"Area/Switch allocator: \" sa_area; \\",
    "    print \"Area/Other: \" other_area; \\",
    "    print \"Area/Total: \" total_area; \\",
    "    print \"Total/Dynamic power: \" total_dynamic; \\",
    "    print \"Total/Leakage power: \" $(NddPower>>Router:Leakage); \\"]

/-- The link parameters. -/
def linkText (p : PowerModelConfiguration) : String :=
  text [
    "# Name of model to be built and evaluated",
    "ModelName                               = RepeatedLink",
    "",
    "QueryString                             = \\",
    "    Energy>>RepeatedLink:Send@0 \\",
    "    NddPower>>RepeatedLink:Leakage@0 \\",
    "    Area>>RepeatedLink:Active@0 \\",
    "",
    "InjectionRate                           = 1",
    "EvaluateString                          = \\",
    "    link_dynamic    = $(Energy>>RepeatedLink:Send) * $(Frequency); \\",
    "    link_static     = $(NddPower>>RepeatedLink:Leakage); \\",
    "    print \"    Dynamic power: \" link_dynamic * $(InjectionRate); \\",
    "    print \"    Leakage power: \" link_static; \\",
    "",
    s!"ElectricalTechModelFilename             = {technologyModel}",
    "",
    "# Links insert their own repeaters from Delay; never optimize them",
    "IsPerformTimingOptimization             = false",
    "TimingOptimization->StartNetNames       = []",
    s!"Frequency                               = {frequency}",
    "",
    s!"NumberBits                              = {p.linkWidthBits}",
    "WireLayer                               = Global",
    "WireWidthMultiplier                     = 1.0",
    "WireSpacingMultiplier                   = 1.0",
    "",
    s!"WireLength                              = {wireLength}",
    s!"Delay                                   = {wireDelay}"]

/-- Both files, in the order in which they are written. -/
def files (p : PowerModelConfiguration) : List (String × String) :=
  [(routerFile, routerText p), (linkFile, linkText p)]

end Interconnect.PowerModel
