import Interconnect.Yaml.Node
import Interconnect.Yaml.Token.Stream

/-! # From tokens to nodes

    The grammar of documents, by recursive descent. A token that the grammar
    does not expect is an error at that token; where a node may be missing, an
    empty one stands in for it. Every node, entry and separator takes a token
    or stands between two, which bounds the fuel.
-/

namespace Interconnect.Yaml

/-- The state of reading: the tokens to come and what cut them short, the
    names of the anchors of this document, and the nodes anchored so far. -/
structure Source where
  tokens : List Token
  error : Option SyntaxError
  names : List (String × Nat) := []
  lastAnchor : Nat := 0
  anchored : List (Nat × Node) := []

/-- Reading from a source. -/
abbrev Parse := StateT Source (Except SyntaxError)

namespace Parse

/-- Fail for a reason at a mark. -/
def refuse {α : Type} (cause : SyntaxError.Cause) (mark : Mark) : Parse α :=
  throw ⟨cause, mark⟩

/-- The next token, or the error that took its place. -/
def peek : Parse Token := do
  let s ← get
  match s.tokens, s.error with
  | t :: _, _ => return t
  | [], some e => throw e
  | [], none => return ⟨.streamEnd, .start⟩

/-- Pass the next token. -/
def skip : Parse Unit :=
  modify fun s => { s with tokens := s.tokens.drop 1 }

/-- Pass the next token if it is of a kind. -/
def skipIf (kind : Token.Kind) : Parse Bool := do
  if (← peek).kind = kind then
    skip
    return true
  else return false

/-- Number a new anchor. A name may be used again, and then means the new one. -/
def declare (name : String) : Parse Nat := do
  let s ← get
  let anchor := s.lastAnchor + 1
  set { s with lastAnchor := anchor, names := (name, anchor) :: s.names }
  return anchor

/-- The properties in front of a node: an anchor and a tag, in either order. -/
structure Properties where
  anchor : Option Nat := none
  tag : Option Tag := none

/-- Read the properties in front of a node. -/
def properties : Parse Properties := do
  match (← peek).kind with
  | .anchor name =>
    skip
    let anchor ← declare name
    match (← peek).kind with
    | .tag tag =>
      skip
      return ⟨anchor, tag⟩
    | _ => return ⟨anchor, none⟩
  | .tag tag =>
    skip
    match (← peek).kind with
    | .anchor name =>
      skip
      return ⟨← declare name, tag⟩
    | _ => return ⟨none, tag⟩
  | _ => return {}

/-- Remember a node under its anchor. -/
def remember (anchor : Option Nat) (node : Node) : Parse Node := do
  match anchor with
  | some n => modify fun s => { s with anchored := (n, node) :: s.anchored }
  | none => pure ()
  return node

/-- The node that an alias stands for. -/
def resolve (name : String) (mark : Mark) : Parse Node := do
  match (← get).names.lookup name with
  | some anchor => return .reference mark anchor
  | none => refuse .anchorUnknown mark

/-- An empty node if one of the given kinds comes next. -/
def missingBefore (kinds : List Token.Kind) : Parse (Option Node) := do
  let t ← peek
  return if t.kind ∈ kinds then some (.missing t.mark) else none

/-- Where no node follows, properties stand for an empty one. -/
def absent (p : Properties) (t : Token) : Parse Node :=
  if p.anchor.isSome || p.tag.isSome then
    remember p.anchor (.scalar t.mark "" .plain p.tag)
  else refuse .nodeMissing t.mark

mutual

/-- Read a node. In some places it may not be a block, and in some it may be a
    sequence whose entries are not indented. -/
def node (block unindented : Bool) : Nat → Parse Node
  | 0 => do refuse .nodeMissing (← peek).mark
  | fuel + 1 => do
    let t ← peek
    match t.kind with
    | .reference name =>
      skip
      resolve name t.mark
    | _ =>
      let p ← properties
      let t ← peek
      match t.kind with
      | .blockEntry =>
        if unindented then
          remember p.anchor (.sequence t.mark (← unindentedEntries fuel))
        else absent p t
      | .scalar style text =>
        skip
        remember p.anchor (.scalar t.mark text style p.tag)
      | .flowSequenceStart =>
        skip
        remember p.anchor (.sequence t.mark (← flowItems true fuel))
      | .flowMappingStart =>
        skip
        remember p.anchor (.mapping t.mark (← flowEntries true fuel))
      | .blockSequenceStart =>
        if block then
          skip
          remember p.anchor (.sequence t.mark (← blockItems fuel))
        else absent p t
      | .blockMappingStart =>
        if block then
          skip
          remember p.anchor (.mapping t.mark (← blockEntries fuel))
        else absent p t
      | _ => absent p t

/-- Read a node, or none in front of the given kinds. -/
def nodeUnless (kinds : List Token.Kind) (block unindented : Bool) : Nat → Parse Node
  | 0 => do refuse .nodeMissing (← peek).mark
  | fuel + 1 => do
    match ← missingBefore kinds with
    | some empty => return empty
    | none => node block unindented fuel

/-- Read the entries of a sequence that are not indented. -/
def unindentedEntries : Nat → Parse (List Node)
  | 0 => return []
  | fuel + 1 => do
    if ← skipIf .blockEntry then
      let item ← nodeUnless [.blockEntry, .key, .value, .blockEnd] true false fuel
      return item :: (← unindentedEntries fuel)
    else return []

/-- Read the entries of a block sequence. -/
def blockItems : Nat → Parse (List Node)
  | 0 => return []
  | fuel + 1 => do
    let t ← peek
    match t.kind with
    | .blockEnd =>
      skip
      return []
    | .blockEntry =>
      skip
      let item ← nodeUnless [.blockEntry, .blockEnd] true false fuel
      return item :: (← blockItems fuel)
    | _ => refuse .blockSequenceEntry t.mark

/-- Read the entries of a block mapping. -/
def blockEntries : Nat → Parse (List (Node × Node))
  | 0 => return []
  | fuel + 1 => do
    let t ← peek
    match t.kind with
    | .blockEnd =>
      skip
      return []
    | .key =>
      skip
      let key ← nodeUnless [.key, .value, .blockEnd] true true fuel
      let value ← blockValue fuel
      return (key, value) :: (← blockEntries fuel)
    | .value =>
      let value ← blockValue fuel
      return (.missing t.mark, value) :: (← blockEntries fuel)
    | _ => refuse .blockMappingKey t.mark

/-- Read the value of an entry of a block mapping. -/
def blockValue : Nat → Parse Node
  | 0 => do refuse .nodeMissing (← peek).mark
  | fuel + 1 => do
    if ← skipIf .value then nodeUnless [.key, .value, .blockEnd] true true fuel
    else return .missing (← peek).mark

/-- Read the entries of a flow mapping. -/
def flowEntries (first : Bool) : Nat → Parse (List (Node × Node))
  | 0 => return []
  | fuel + 1 => do
    if ← skipIf .flowMappingEnd then return []
    unless first do
      unless ← skipIf .flowEntry do refuse .flowMappingSeparator (← peek).mark
    let t ← peek
    match t.kind with
    | .flowMappingEnd =>
      skip
      return []
    | .key =>
      skip
      let key ← nodeUnless [.value, .flowEntry, .flowMappingEnd] false false fuel
      let value ← flowValue fuel
      return (key, value) :: (← flowEntries false fuel)
    | .value =>
      let value ← flowValue fuel
      return (.missing t.mark, value) :: (← flowEntries false fuel)
    | _ =>
      let key ← node false false fuel
      let value := .missing (← peek).mark
      return (key, value) :: (← flowEntries false fuel)

/-- Read the value of an entry of a flow mapping. -/
def flowValue : Nat → Parse Node
  | 0 => do refuse .nodeMissing (← peek).mark
  | fuel + 1 => do
    let t ← peek
    if ← skipIf .value then
      match ← missingBefore [.flowEntry, .flowMappingEnd] with
      | some _ => return .missing t.mark
      | none => node false false fuel
    else return .missing t.mark

/-- Read the entries of a flow sequence. -/
def flowItems (first : Bool) : Nat → Parse (List Node)
  | 0 => return []
  | fuel + 1 => do
    if ← skipIf .flowSequenceEnd then return []
    unless first do
      unless ← skipIf .flowEntry do refuse .flowSequenceSeparator (← peek).mark
    let t ← peek
    match t.kind with
    | .flowSequenceEnd =>
      skip
      return []
    | .key =>
      skip
      let entry ← flowPair fuel
      return .mapping t.mark [entry] :: (← flowItems false fuel)
    | _ =>
      let item ← node false false fuel
      return item :: (← flowItems false fuel)

/-- Read the only entry of a mapping that stands in a flow sequence. A missing
    key takes the token in its place with it. -/
def flowPair : Nat → Parse (Node × Node)
  | 0 => do refuse .nodeMissing (← peek).mark
  | fuel + 1 => do
    let key ← match ← missingBefore [.value, .flowEntry, .flowSequenceEnd] with
      | some empty =>
        skip
        pure empty
      | none => node false false fuel
    let t ← peek
    if ← skipIf .value then
      return (key, ← nodeUnless [.flowEntry, .flowSequenceEnd] false false fuel)
    else return (key, .missing t.mark)

end

/-- Pass the directives in front of a document. -/
def directives : Nat → Parse Unit
  | 0 => pure ()
  | fuel + 1 => do if ← skipIf .directive then directives fuel

/-- Pass the ends of documents that come next. -/
def documentEnds : Nat → Parse Unit
  | 0 => pure ()
  | fuel + 1 => do if ← skipIf .documentEnd then documentEnds fuel

/-- Read the content of a document that was announced. -/
def content (fuel : Nat) : Parse Node :=
  nodeUnless [.directive, .documentStart, .documentEnd, .streamEnd] true false fuel

/-- Read a document. Only the first one need not be announced. -/
def document (first : Bool) (fuel : Nat) : Parse (Option Node) := do
  unless first do documentEnds fuel
  let t ← peek
  if t.kind = .streamEnd then return none
  modify fun s => { s with names := [] }
  let announced := !first || t.kind = .directive || t.kind = .documentStart
  if announced then
    directives fuel
    unless ← skipIf .documentStart do refuse .documentStartMissing (← peek).mark
    let root ← content fuel
    let _ ← skipIf .documentEnd
    return root
  else
    let root ← node true false fuel
    let _ ← skipIf .documentEnd
    return root

/-- Read all documents. -/
def documents (fuel : Nat) (first : Bool) : Nat → Parse (List Node)
  | 0 => return []
  | left + 1 => do
    match ← document first fuel with
    | none => return []
    | some root => return root :: (← documents fuel false left)

end Parse

/-- The documents of a text. -/
def Documents.ofText (text : String) : Except SyntaxError Documents := do
  let stream := TokenStream.ofText text
  let fuel := 4 * stream.tokens.length + 16
  let start := ⟨stream.tokens, stream.error, [], 0, []⟩
  let (roots, s) ← (Parse.documents fuel true fuel).run start
  return ⟨roots, s.anchored⟩

end Interconnect.Yaml
