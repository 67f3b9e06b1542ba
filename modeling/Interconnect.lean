import Interconnect.Command
import Interconnect.Command.Help
import Interconnect.Command.Parameter
import Interconnect.Command.Request
import Interconnect.Command.Shape
import Interconnect.Configuration
import Interconnect.Configuration.Document
import Interconnect.Configuration.File
import Interconnect.Draft
import Interconnect.Drawing
import Interconnect.Drawing.Tikz
import Interconnect.Emission
import Interconnect.Endpoint
import Interconnect.Escape.Cycle
import Interconnect.Escape.Plan
import Interconnect.Family
import Interconnect.Files
import Interconnect.Grid
import Interconnect.Host
import Interconnect.Journal
import Interconnect.Link
import Interconnect.Main
import Interconnect.Placement
import Interconnect.Position
import Interconnect.PowerModel
import Interconnect.Sizing
import Interconnect.Synthesis
import Interconnect.Synthesis.Journal
import Interconnect.SynthesisError
import Interconnect.Text.Binary64
import Interconnect.Text.Decimal
import Interconnect.Text.Quoted
import Interconnect.Text.Shapeless
import Interconnect.Text.Utf8
import Interconnect.Topology
import Interconnect.Topology.Dot
import Interconnect.Topology.Graph
import Interconnect.Topology.Record
import Interconnect.Wiring
import Interconnect.Wiring.Lattice
import Interconnect.Wiring.Rings
import Interconnect.Word
import Interconnect.Yaml.Cursor
import Interconnect.Yaml.Mark
import Interconnect.Yaml.Node
import Interconnect.Yaml.Node.Grammar
import Interconnect.Yaml.Scalar
import Interconnect.Yaml.Scalar.Block
import Interconnect.Yaml.Scalar.Meaning
import Interconnect.Yaml.Scalar.Plain
import Interconnect.Yaml.Scalar.Quoted
import Interconnect.Yaml.Token
import Interconnect.Yaml.Token.Property
import Interconnect.Yaml.Token.Stream
import Interconnect.Yaml.Typed
import Interconnect.Yaml.Value
import Interconnect.Proofs.Checked
import Interconnect.Proofs.Grid
import Interconnect.Proofs.Draft
import Interconnect.Proofs.Placement
import Interconnect.Proofs.Position
import Interconnect.Proofs.Sizing
import Interconnect.Proofs.Checks
import Interconnect.Proofs.Graph
import Interconnect.Proofs.Escape.Cycle
import Interconnect.Proofs.Escape.Climb
import Interconnect.Proofs.Escape.Plan
import Interconnect.Proofs.Escape.LastCycle
import Interconnect.Proofs.Wiring.Lattice
import Interconnect.Proofs.Wiring.Rings
import Interconnect.Proofs.Wiring.Places
import Interconnect.Proofs.Wiring.RankOrder
import Interconnect.Proofs.Wiring
import Interconnect.Proofs.Wired
import Interconnect.Proofs.Accepted
import Interconnect.Proofs.Outcome
import Interconnect.Proofs.Synthesis
import Interconnect.Proofs.WellFormed
import Interconnect.Proofs.LinkIds
import Interconnect.Proofs.Neighbors
import Interconnect.Proofs.HierarchicalRing.Rings
import Interconnect.Proofs.HierarchicalRing.Edges
import Interconnect.Proofs.HierarchicalRing.Escape
import Interconnect.Proofs.EscapeChannel
import Interconnect.Proofs.Overlay
import Interconnect.Proofs.GraphView
import Interconnect.Proofs.Walk
import Interconnect.Proofs.Connected
import Interconnect.Proofs.RankQueries
import Interconnect.Proofs.RisingWalk
import Interconnect.Proofs.Faultless
import Interconnect.Proofs.Ports
import Interconnect.Proofs.Hops
import Interconnect.Proofs.Mesh.Edges
import Interconnect.Proofs.FlattenedButterfly.Edges
import Interconnect.Proofs.FullyConnected.Edges
import Interconnect.Proofs.Ring.Edges
import Interconnect.Proofs.DimensionOrder
import Interconnect.Proofs.HierarchicalRing.Decomposition
import Interconnect.Proofs.Independence
import Interconnect.Proofs.Policies
import Interconnect.Proofs.Emission
import Interconnect.Proofs.Placement.Concentrate
import Interconnect.Proofs.Placement.Stripe
import Interconnect.Proofs.Shape
import Interconnect.Proofs.Command
import Interconnect.Proofs.Text
import Interconnect.Proofs.Drawing
import Interconnect.Proofs.Drawing.Tikz
import Interconnect.Proofs.Dot
import Interconnect.Proofs.Drawing.Lines
import Interconnect.Proofs.Drawing.Document
import Interconnect.Proofs.Grid.Numbering
import Interconnect.Proofs.Draft.FirstProposals
import Interconnect.Proofs.Escape.Tour
import Interconnect.Proofs.Yaml.Written
import Interconnect.Proofs.Yaml.Scalar
import Interconnect.Proofs.Yaml.Scan
import Interconnect.Proofs.Yaml.Lines
import Interconnect.Proofs.Yaml.Tokens
import Interconnect.Proofs.Yaml.Nodes
import Interconnect.Proofs.Yaml.Digits
import Interconnect.Proofs.Yaml.Reading
import Interconnect.Proofs.Configuration
