import Interconnect.Command.Shape

/-! # Help texts

    The texts that tell a user what a command is and which parameters it has,
    in tables sorted by name.
-/

namespace Interconnect.Command

/-- A command as its help shows it. -/
structure Manual where
  /-- The words by which the command is called. -/
  words : List String
  about : String
  parameters : List Parameter
  /-- The subcommands and what they are. -/
  subcommands : List (String × String) := []

namespace Manual

/-- The version of the program. -/
def version : String := "0.1.0"

/-- The name and version of a command. -/
def title (m : Manual) : String :=
  "-".intercalate m.words ++ " " ++ version

/-- A long name, with a place for its value. -/
def usage (p : Parameter) : String :=
  if p.takesValue then s!"--{p.long} <{p.long}>" else s!"--{p.long}"

/-- What a parameter does, and its default. -/
def description (p : Parameter) : String :=
  match p.default with
  | some d => s!"{p.about} [default: {d}]"
  | none => p.about

/-- A text filled up with spaces. -/
def padded (width : Nat) (text : String) : String :=
  text ++ "".pushn ' ' (width - text.length)

/-- The lines of a table of parameters, in the order of their names. -/
def parameterLines (ps : List Parameter) : List String :=
  let sorted := ps.mergeSort fun a b => a.long ≤ b.long
  let width := (sorted.map fun p => (usage p).length).foldl max 2
  sorted.map fun p =>
    let short := match p.short with
      | some c => s!"-{c}, "
      | none => "    "
    "    " ++ short ++ padded (width + 4) (usage p) ++ description p

/-- The lines of the table of subcommands, in the order of their names. -/
def subcommandLines (subcommands : List (String × String)) : List String :=
  let sorted := subcommands.mergeSort fun a b => a.1 ≤ b.1
  let width := (sorted.map fun s => s.1.length).foldl max 2
  sorted.map fun (name, about) => "    " ++ padded (width + 4) name ++ about

/-- A paragraph with its lines, unless it has none. -/
def paragraph (title : String) (lines : List String) : List String :=
  if lines.isEmpty then [] else "" :: s!"{title}:" :: lines

/-- The whole text. -/
def text (m : Manual) : String :=
  let flags := m.parameters.filter fun p => !p.takesValue
  let options := m.parameters.filter fun p => p.takesValue
  let call := " ".intercalate (m.words ++
    (if flags.isEmpty then [] else ["[FLAGS]"]) ++
    (if options.isEmpty then [] else ["[OPTIONS]"]) ++
    (if m.subcommands.isEmpty then [] else ["[SUBCOMMAND]"]))
  "\n".intercalate <|
    [m.title, m.about] ++ paragraph "USAGE" ["    " ++ call] ++
      paragraph "FLAGS" (parameterLines (flags ++ commonParameters)) ++
      paragraph "OPTIONS" (parameterLines options) ++
      paragraph "SUBCOMMANDS" (subcommandLines m.subcommands)

end Manual

end Interconnect.Command
