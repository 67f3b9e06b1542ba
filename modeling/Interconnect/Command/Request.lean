import Interconnect.Command.Help

/-! # Requests

    What the words of a command line ask for: a network, the version or a help
    text. Words that ask for nothing sensible are refused.
-/

namespace Interconnect.Command

/-- A request for a network. -/
structure Request where
  config : Option String
  caches : Option UInt64
  dirs : Option UInt64
  dmas : UInt64
  routerRankEscape : Bool
  output : Option String
  dot : Option String
  tikz : Option String
  render : Bool
  powerModel : Option String
  shape : Option Shape
  deriving DecidableEq, Repr, Inhabited

/-- What a command line asks for. -/
inductive Reply where
  | request (r : Request)
  | /-- A text for the user. -/
    text (text : String)
  | refused
  deriving DecidableEq, Repr, Inhabited

namespace Request

/-- The name of the program. -/
def programName : String := "fabricgen"

/-- The parameters in front of the subcommand. -/
def parameters : List Parameter :=
  [{ long := "config"
     about := "YAML synthesis configuration; a subcommand overrides its topology" },
   { long := "caches", about := "cache controllers, one per cpu by default" },
   { long := "dirs", about := "directory controllers, num_dirs by default" },
   { long := "dmas", default := some "0", about := "DMA controllers" },
   { long := "router-rank-escape", takesValue := false
     about := "escape ranks follow router ranks" },
   { long := "output", short := some 'o', about := "write the topology as YAML" },
   { long := "dot", about := "write the topology in dot format" },
   { long := "tikz", about := "write a Tikz diagram into this directory" },
   { long := "render", takesValue := false, about := "run pdflatex on the Tikz diagram" },
   { long := "power-model"
     about := "write DSENT router and link models into this directory" }]

/-- The subcommand that prints help. -/
def helpCommand : String := "help"

/-- The manual of the program. -/
def manual : Manual where
  words := [programName]
  about := "On-chip interconnect topology synthesis"
  parameters := parameters
  subcommands := (helpCommand, "Prints this message or the help of the given subcommand(s)") ::
    Subcommand.all.map fun s => (s.name, s.about)

/-- The manual of a subcommand. -/
def manualOf (s : Subcommand) : Manual where
  words := [programName, s.name]
  about := s.about
  parameters := s.parameters

/-- The request that uses of parameters amount to. -/
def ofUses (us : Uses) (shape : Option Shape) : Except Stop Request := do
  return {
    config := us.value? "config"
    caches := ← us.number "caches"
    dirs := ← us.number "dirs"
    dmas := ← us.someNumber "dmas"
    routerRankEscape := us.has "router-rank-escape"
    output := us.value? "output"
    dot := us.value? "dot"
    tikz := us.value? "tikz"
    render := us.has "render"
    powerModel := us.value? "power-model"
    shape }

/-- Answer where reading stopped early. -/
def stopped (m : Manual) : Stop → Reply
  | .refused => .refused
  | .help => .text (m.text ++ "\n")
  | .version => .text (m.title ++ "\n")

/-- Read the words behind a subcommand. -/
def readShape (s : Subcommand) (words : List String) : Except Stop Shape := do
  let (uses, _) ← Reading.readWords (s.parameters ++ commonParameters) [] {} words
  s.shape (← Uses.check s.parameters uses)

/-- Answer words that ask for help on a subcommand. -/
def help : List String → Reply
  | [] => .text (manual.text ++ "\n")
  | word :: rest =>
    match Subcommand.all.find? fun s => s.name = word with
    | some s => if rest.isEmpty then .text ((manualOf s).text ++ "\n") else .refused
    | none => .refused

/-- The request of uses, and of a shape if there is one. -/
def settle (uses : List Use) (shape : Option Shape) : Reply :=
  match (do ofUses (← Uses.check parameters uses) shape : Except Stop Request) with
  | .ok r => .request r
  | .error stop => stopped manual stop

/-- What words ask for. -/
def ofWords (words : List String) : Reply :=
  let subcommands := helpCommand :: Subcommand.all.map (·.name)
  match Reading.readWords (parameters ++ commonParameters) subcommands {} words with
  | .error stop => stopped manual stop
  | .ok (uses, none) => settle uses none
  | .ok (uses, some (name, rest)) =>
    match Subcommand.all.find? fun s => s.name = name with
    | none => help rest
    | some s =>
      match readShape s rest with
      | .error stop => stopped (manualOf s) stop
      | .ok shape => settle uses (some shape)

end Request

end Interconnect.Command
