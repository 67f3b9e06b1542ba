import Interconnect.Yaml.Node.Grammar
import Interconnect.Yaml.Scalar.Meaning

/-! # Typed values

    Nodes are read as values of a given type. A mismatch is reported with the
    path to the value and the mark of the innermost node that was being read
    and is reported for; a structure and a choice leave some of theirs to the
    structure around them.
-/

namespace Interconnect.Yaml

/-- Where a value stands in a document. -/
inductive Path where
  | root
  | field (parent : Path) (name : String)
  | item (parent : Path) (index : Nat)
  | /-- The value of an entry whose key is not written out. -/
    unnamed (parent : Path)
  deriving DecidableEq, Repr, Inhabited

namespace Path

/-- The path as a message shows it. -/
def text : Path → String
  | root => "."
  | field root name => name
  | field parent name => s!"{parent.text}.{name}"
  | item parent index => s!"{parent.text}[{index}]"
  | unnamed root => "?"
  | unnamed parent => s!"{parent.text}.?"

end Path

/-- Why a text could not be read as a value. -/
inductive ReadError where
  | malformed (error : SyntaxError)
  | mismatch (cause : Mismatch) (place : Option (Path × Mark))
  | noDocument
  | severalDocuments
  | /-- A choice is a mapping without an entry. -/
    emptyChoice
  deriving DecidableEq, Repr, Inhabited

namespace ReadError

/-- The text of an error. -/
def message : ReadError → String
  | malformed e => e.message
  | mismatch cause none => cause.message
  | mismatch cause (some (.root, mark)) => s!"{cause.message} at {mark.describe}"
  | mismatch cause (some (path, mark)) => s!"{path.text}: {cause.message} at {mark.describe}"
  | noDocument => "EOF while parsing a value"
  | severalDocuments => "deserializing from YAML containing more than one document " ++
      "is not supported"
  | emptyChoice => "unexpected end of mapping"

/-- Whether the error ends the program rather than the reading. -/
def isFatal : ReadError → Bool
  | emptyChoice => true
  | _ => false

end ReadError

/-- Reading a value from a node. -/
abbrev Typed := Except ReadError

namespace Typed

/-- A mismatch that has no place yet. -/
def refuse {α : Type} (cause : Mismatch) : Typed α :=
  .error (.mismatch cause none)

/-- Give a place to a mismatch that has none. -/
def placed {α : Type} (path : Path) (mark : Mark) : Typed α → Typed α
  | .error (.mismatch cause none) => .error (.mismatch cause (some (path, mark)))
  | result => result

/-- The node itself, or the one that it stands for. -/
def target (docs : Documents) (node : Node) : Node :=
  match node with
  | .reference mark anchor => (docs.anchored? anchor).getD (.missing mark)
  | _ => node

/-- What a node turns out to be. -/
def found (node : Node) : Typed Found :=
  match node with
  | .scalar _ text style tag =>
    match Scalar.meaning text style tag with
    | .ok found => .ok found
    | .error cause => refuse cause
  | .sequence .. => .ok .sequence
  | .mapping .. | .reference .. => .ok .mapping

/-- A node that is something else than expected. -/
def wrongType {α : Type} (node : Node) (expected : String) : Typed α := do
  refuse (.type (← found node) expected)

/-- A reader of values. -/
abbrev Reader (α : Type) := Documents → Path → Node → Typed α

/-- Read a scalar by its meaning. -/
def byMeaning {α : Type} (expected : String) (read : Found → Option (Typed α)) : Reader α :=
  fun docs path node =>
    let node := target docs node
    placed path node.mark do
      let found ← found node
      (read found).getD (refuse (.type found expected))

/-- Read nothing. -/
def nothing : Reader Unit :=
  byMeaning "unit" fun
    | .nothing => some (.ok ())
    | _ => none

/-- Read a truth value. -/
def boolean : Reader Bool :=
  byMeaning "a boolean" fun
    | .boolean b => some (.ok b)
    | _ => none

/-- Read a number of at most 64 bits. -/
def word : Reader UInt64 :=
  byMeaning "usize" fun
    | .integer n =>
      some (if n < 0 then refuse (.value (.integer n) "usize") else .ok n.toNat.toUInt64)
    | _ => none

/-- The text of a scalar, whatever it means. -/
def scalarText (expected : String) : Reader String :=
  fun docs path node =>
    match target docs node with
    | .scalar _ text _ _ => .ok text
    | node => placed path node.mark (wrongType node expected)

/-- Read the path of a file. -/
def filePath : Reader String :=
  scalarText "path string"

/-! ## Choices -/

/-- The alternative of a name. -/
def choose {α : Type} (all : List α) (name : α → String) (chosen : String) : Typed α :=
  match all.find? fun a => name a = chosen with
  | some a => .ok a
  | none => refuse (.variant chosen (all.map name))

/-- The name of an alternative that is written out as the key of a mapping. -/
def choiceKey (type : String) : Reader String :=
  fun docs path node =>
    match node with
    | .scalar _ text _ _ => .ok text
    | _ =>
      let node := target docs node
      placed path node.mark (wrongType node s!"variant of enum \x60{type}\x60")

/-- Read one of several alternatives: a scalar with its name or its tag, or a
    mapping of its name to nothing. -/
def choice {α : Type} (type : String) (all : List α) (name : α → String) : Reader α :=
  fun docs path node =>
    match target docs node with
    | .scalar mark text style tag =>
      let byTag := tag.bind fun t =>
        if t.handle = "!" then all.find? fun a => name a = t.suffix else none
      match byTag with
      | some a => do
        nothing docs (.field path (name a)) (.scalar mark text style tag)
        return a
      | none => placed path mark (choose all name text)
    | .mapping _ [] => .error .emptyChoice
    | .mapping _ ((key, value) :: more) => do
      let chosen ← choiceKey type docs path key
      let a ← choose all name chosen
      nothing docs (.field path chosen) value
      unless more.isEmpty do
        refuse (.length (more.length + 1) "map containing 1 entry")
      return a
    | node => placed path node.mark (wrongType node "string or singleton map")

/-! ## Records -/

/-- A field of a record, and how it is read into it. -/
structure Slot (σ : Type) where
  name : String
  read : Documents → Path → Node → σ → Typed σ

/-- A field that is set to what a reader finds. -/
def Slot.of {σ α : Type} (name : String) (read : Reader α) (set : σ → α → σ) :
    Slot σ where
  name
  read docs path node s := do return set s (← read docs path node)

/-- The path of the value of an entry. -/
def valuePath (path : Path) : Node → Path
  | .scalar _ name _ _ => .field path name
  | _ => .unnamed path

/-- Read the entries of a mapping into a record. Keys that name no field
    are passed over. -/
def entries {σ : Type} (fields : List (Slot σ)) (docs : Documents) (path : Path) :
    List String → List (Node × Node) → σ → Typed σ
  | _, [], s => .ok s
  | seen, (key, value) :: rest, s => do
    let name ← scalarText "field identifier" docs path key
    match fields.find? fun f => f.name = name with
    | none => entries fields docs path seen rest s
    | some f =>
      if name ∈ seen then refuse (.duplicate name)
      let s ← f.read docs (valuePath path key) value s
      entries fields docs path (name :: seen) rest s

/-- Read the items of a sequence into a record, field by field. -/
def items {σ : Type} (docs : Documents) (path : Path) :
    Nat → List (Slot σ) → List Node → σ → Typed σ
  | index, f :: fields, item :: rest, s => do
    items docs path (index + 1) fields rest (← f.read docs (.item path index) item s)
  | index, [], item :: rest, _ =>
    refuse (.length (index + (item :: rest).length) s!"sequence of {index} elements")
  | _, _, [], s => .ok s

/-- Read a record from a mapping or a sequence. Fields that are not given
    keep their value. -/
def record {σ : Type} (type : String) (fields : List (Slot σ)) (initial : σ) : Reader σ :=
  fun docs path node =>
    let node := target docs node
    placed path node.mark <|
      match node with
      | .mapping _ es => entries fields docs path [] es initial
      | .sequence _ is => items docs path 0 fields is initial
      | _ => wrongType node s!"struct {type}"

/-! ## Texts -/

/-- Read a value from a text of one document. -/
def ofText {α : Type} (read : Reader α) (text : String) : Typed α := do
  match Documents.ofText text with
  | .error e => .error (.malformed e)
  | .ok docs =>
    match docs.roots with
    | [] => .error .noDocument
    | root :: more =>
      let value ← read docs .root root
      unless more.isEmpty do .error .severalDocuments
      return value

end Typed

end Interconnect.Yaml
