import Interconnect.Yaml.Scalar.Block
import Interconnect.Yaml.Scalar.Plain
import Interconnect.Yaml.Scalar.Quoted
import Interconnect.Yaml.Token.Property

/-! # Token streams

    A text is cut into tokens from left to right. That a piece was the key of
    a mapping shows only at the `:` behind it, so a piece that may be a key is
    remembered, and it and what follows it are held back until it is decided.
    Tokens that were handed out before an error stay valid: a stream is the
    tokens up to its end, or those up to an error.
-/

namespace Interconnect.Yaml

/-- A piece that may turn out to be a key. -/
structure Candidate where
  /-- The number of tokens before it. -/
  number : Nat
  mark : Mark
  /-- It stands where only a key may stand. -/
  required : Bool
  deriving DecidableEq, Repr, Inhabited

/-- The state of cutting a text. -/
structure Scan where
  cursor : Cursor
  /-- How many tokens were handed out. -/
  delivered : Nat := 0
  /-- The tokens that are held back, in order. -/
  held : List Token := []
  /-- The candidate of the current flow collection, then of those around it;
      the last one is that of the block. -/
  keys : List (Option Candidate) := [none]
  /-- Whether a key may begin here. -/
  keyAllowed : Bool := true
  /-- Where a `:` needs no space behind it, as it follows a quoted scalar. -/
  adjacentAt : Nat := 0
  /-- The column of the innermost block, and those of the blocks around it. -/
  indent : Int := -1
  outer : List Int := []
  deriving DecidableEq, Repr, Inhabited

namespace Scan

/-- A step of cutting. -/
abbrev Step := Except SyntaxError Scan

/-- The number of flow collections around the cursor. -/
def flowLevel (s : Scan) : Nat :=
  s.keys.length - 1

/-- Whether the cursor is inside a flow collection. -/
def inFlow (s : Scan) : Bool :=
  0 < s.flowLevel

/-- Add a token. -/
def push (s : Scan) (kind : Token.Kind) (mark : Mark) : Scan :=
  { s with held := s.held ++ [⟨kind, mark⟩] }

/-- Put a token in front of the held token of a number. -/
def insert (s : Scan) (number : Nat) (kind : Token.Kind) (mark : Mark) : Scan :=
  { s with held := s.held.insertIdx (number - s.delivered) ⟨kind, mark⟩ }

/-- Add a token and pass a number of characters. -/
def take (s : Scan) (n : Nat) (kind : Token.Kind) : Scan :=
  { s.push kind s.cursor.mark with cursor := s.cursor.skips n }

/-! ## Candidates -/

/-- Whether a candidate is too far back to be a key: on an earlier line, or
    more than 1024 characters away. -/
def Candidate.isStale (k : Candidate) (mark : Mark) : Bool :=
  k.mark.line < mark.line || k.mark.index + 1024 < mark.index

/-- Give up candidates that are too far back. -/
def dropStale (s : Scan) : Step :=
  let stale (k : Candidate) := Candidate.isStale k s.cursor.mark
  if s.keys.any fun k => k.any fun k => stale k && k.required then
    fail .keyWithoutColon s.cursor.mark
  else .ok { s with keys := s.keys.map fun k => k.filter fun k => !stale k }

/-- Give up the innermost candidate. -/
def dropKey (s : Scan) : Step :=
  match s.keys with
  | some k :: outer =>
    if k.required then fail .keyMissing s.cursor.mark
    else .ok { s with keys := none :: outer }
  | _ => .ok s

/-- Remember that a piece which begins here may be a key. -/
def markKey (s : Scan) : Step := do
  if s.keyAllowed then
    let required := s.inFlow && s.indent = s.cursor.mark.column
    let k : Candidate := ⟨s.delivered + s.held.length, s.cursor.mark, required⟩
    let s ← s.dropKey
    return { s with keys := some k :: s.keys.drop 1 }
  else return s

/-! ## Indentation -/

/-- Begin a block at a column that lies further in; its token goes to the end,
    or in front of the token of a number. -/
def roll (s : Scan) (column : Nat) (number : Option Nat) (kind : Token.Kind) (mark : Mark) :
    Scan :=
  if s.inFlow || (column : Int) ≤ s.indent then s
  else
    let s := { s with indent := column, outer := s.indent :: s.outer }
    match number with
    | some n => s.insert n kind mark
    | none => s.push kind mark

/-- End the blocks that lie further in than a column. -/
def unrollFrom (column : Int) (mark : Mark) :
    List Int → Int → List Token → Int × List Int × List Token
  | [], indent, held => (indent, [], held)
  | around :: outer, indent, held =>
    if column < indent then unrollFrom column mark outer around (held ++ [⟨.blockEnd, mark⟩])
    else (indent, around :: outer, held)

/-- End the blocks that lie further in than a column. -/
def unroll (s : Scan) (column : Int) : Scan :=
  if s.inFlow then s
  else
    let (indent, outer, held) := unrollFrom column s.cursor.mark s.outer s.indent s.held
    { s with indent, outer, held }

/-! ## Pieces -/

/-- End the text. -/
def endStream (s : Scan) : Step := do
  let mark := s.cursor.mark
  let mark := if mark.column = 0 then mark else ⟨mark.index, mark.line + 1, 0⟩
  let s ← (unroll { s with cursor := ⟨[], mark⟩ } (-1)).dropKey
  return { s.push .streamEnd mark with keyAllowed := false }

/-- Read a directive. -/
def readDirective (s : Scan) : Step := do
  let s ← (s.unroll (-1)).dropKey
  let behind ← Token.directive s.cursor
  return { s.push .directive s.cursor.mark with cursor := behind, keyAllowed := false }

/-- Read `---` or `...`. -/
def readIndicator (s : Scan) (kind : Token.Kind) : Step := do
  let s ← (s.unroll (-1)).dropKey
  return { s.take 3 kind with keyAllowed := false }

/-- How many flow collections may be nested. -/
def flowLimit : Nat := 255

/-- Read `[` or `{`. -/
def openFlow (s : Scan) (kind : Token.Kind) : Step := do
  let s ← s.markKey
  if flowLimit ≤ s.flowLevel then fail .flowTooDeep s.cursor.mark
  return { s.take 1 kind with keys := none :: s.keys, keyAllowed := true }

/-- Read `]` or `}`. -/
def closeFlow (s : Scan) (kind : Token.Kind) : Step := do
  let s ← s.dropKey
  let keys := if s.inFlow then s.keys.drop 1 else s.keys
  return { s.take 1 kind with keys, keyAllowed := false }

/-- Read the `,` of a flow collection. -/
def readFlowEntry (s : Scan) : Step := do
  let s ← s.dropKey
  return { s.take 1 .flowEntry with keyAllowed := true }

/-- Read the `-` of a block sequence. -/
def readBlockEntry (s : Scan) : Step := do
  let mark := s.cursor.mark
  if s.inFlow then fail .entryInFlow mark
  unless s.keyAllowed do fail .entryOutOfPlace mark
  let s ← (s.roll mark.column none .blockSequenceStart mark).dropKey
  return { s.take 1 .blockEntry with keyAllowed := true }

/-- Read the `?` of a key. -/
def readKey (s : Scan) : Step := do
  let mark := s.cursor.mark
  if !s.inFlow && !s.keyAllowed then fail .keyOutOfPlace mark
  let s ← (s.roll mark.column none .blockMappingStart mark).dropKey
  return { s.take 1 .key with keyAllowed := !s.inFlow }

/-- Read the `:` of a value. If a candidate is remembered, it is the key; else
    the key is missing or was announced by `?`. -/
def readValue (s : Scan) : Step := do
  let mark := s.cursor.mark
  match s.keys with
  | some k :: outer =>
    let s := (s.insert k.number .key k.mark).roll k.mark.column (some k.number)
      .blockMappingStart mark
    return { s.take 1 .value with keys := none :: outer, keyAllowed := false }
  | _ =>
    if !s.inFlow && !s.keyAllowed then fail .valueOutOfPlace mark
    let s := s.roll mark.column none .blockMappingStart mark
    return { s.take 1 .value with keyAllowed := !s.inFlow }

/-- Read an anchor or an alias. -/
def readAnchor (s : Scan) (kind : String → Token.Kind) : Step := do
  let s ← s.markKey
  let (name, behind) ← Token.anchorName s.cursor
  return { s.push (kind name) s.cursor.mark with cursor := behind, keyAllowed := false }

/-- Read a tag. -/
def readTag (s : Scan) : Step := do
  let s ← s.markKey
  let (tag, behind) ← Token.tagOf s.cursor
  return { s.push (.tag tag) s.cursor.mark with cursor := behind, keyAllowed := false }

/-- Read a block scalar. -/
def readBlock (s : Scan) (literal : Bool) : Step := do
  let s ← s.markKey
  let b ← Scalar.block literal s.indent s.cursor
  return { s.push (.scalar .block b.text) b.mark with cursor := b.cursor, keyAllowed := true }

/-- Read a quoted scalar. -/
def readQuoted (s : Scan) (read : Cursor → Scalar.QuotedResult) : Step := do
  let s ← s.markKey
  let (text, behind) ← read s.cursor
  return { s.push (.scalar .quoted text) s.cursor.mark with
    cursor := behind, adjacentAt := behind.mark.index, keyAllowed := false }

/-- Read a plain scalar. -/
def readPlain (s : Scan) : Step := do
  let s ← s.markKey
  let p ← Scalar.plain ⟨s.inFlow, s.indent + 1⟩ s.cursor
  return { s.push (.scalar .plain p.text) s.cursor.mark with
    cursor := p.cursor, keyAllowed := p.brokenOff }

/-! ## The stream -/

/-- Pass blanks, breaks and comments. A tab is white space only where no key
    may begin; a break outside of flow collections lets a key begin. -/
def blanksFrom (inFlow keyAllowed comment : Bool) (mark : Mark) : List Char → Cursor × Bool
  | [] => (⟨[], mark⟩, keyAllowed)
  | c :: rest =>
    if isBreak c then blanksFrom inFlow (keyAllowed || !inFlow) false (mark.after c) rest
    else if comment || c = ' ' || c = '#' || (c = '\t' && (inFlow || !keyAllowed)) then
      blanksFrom inFlow keyAllowed (comment || c = '#') (mark.after c) rest
    else (⟨c :: rest, mark⟩, keyAllowed)

/-- Pass what separates two pieces. -/
def passBlanks (s : Scan) : Scan :=
  let (cursor, keyAllowed) := blanksFrom s.inFlow s.keyAllowed false s.cursor.mark s.cursor.rest
  { s with cursor, keyAllowed }

/-- Whether a `:` with a text behind it is an indicator. -/
def isValueIndicator (s : Scan) (behind : List Char) : Bool :=
  endsWord behind ||
    (s.inFlow && (behind.head?.any isFlowIndicator || s.cursor.mark.index = s.adjacentAt))

/-- Read the piece at the cursor. -/
def readPiece (s : Scan) : Step :=
  match s.cursor.rest with
  | [] => s.endStream
  | c :: behind =>
    if s.cursor.mark.column = 0 ∧ c = '%' then s.readDirective
    else if s.cursor.mark.column = 0 ∧ startsWithIndicator (c :: behind) then
      s.readIndicator (if c = '-' then .documentStart else .documentEnd)
    else match c with
      | '[' => s.openFlow .flowSequenceStart
      | '\x7b' => s.openFlow .flowMappingStart
      | ']' => s.closeFlow .flowSequenceEnd
      | '\x7d' => s.closeFlow .flowMappingEnd
      | ',' => s.readFlowEntry
      | '-' => if endsWord behind then s.readBlockEntry else s.readPlain
      | '?' => if endsWord behind then s.readKey else s.readPlain
      | ':' => if s.isValueIndicator behind then s.readValue else s.readPlain
      | '*' => s.readAnchor .reference
      | '&' => s.readAnchor .anchor
      | '!' => s.readTag
      | '|' => if s.inFlow then s.readPlain else s.readBlock true
      | '>' => if s.inFlow then s.readPlain else s.readBlock false
      | '\x27' => s.readQuoted Scalar.single
      | '\x22' => s.readQuoted Scalar.double
      | '%' | '@' | '\x60' => fail (.unexpectedCharacter c) s.cursor.mark
      | _ => s.readPlain

/-- Read the next piece. -/
def advance (s : Scan) : Step := do
  let s ← s.passBlanks.dropStale
  readPiece (s.unroll s.cursor.mark.column)

/-- Whether the first held token waits for a candidate in front of it. -/
def isWaiting (s : Scan) : Bool :=
  s.keys.any fun k => k.any fun k => k.number = s.delivered

end Scan

/-- The tokens of a text, and the error that cut them short. -/
structure TokenStream where
  tokens : List Token
  error : Option SyntaxError
  deriving DecidableEq, Repr, Inhabited

namespace TokenStream

/-- Put a token in front. -/
def cons (t : Token) (s : TokenStream) : TokenStream :=
  { s with tokens := t :: s.tokens }

/-- Cut and hand out. A token is handed out when no candidate waits in front
    of it. Every piece takes a character and yields at most four tokens, which
    bounds the fuel. -/
def run : Nat → Scan → TokenStream
  | 0, _ => ⟨[], none⟩
  | fuel + 1, s =>
    match s.held with
    | [] =>
      match s.advance with
      | .error e => ⟨[], some e⟩
      | .ok s => run fuel s
    | t :: held =>
      match s.dropStale with
      | .error e => ⟨[], some e⟩
      | .ok s =>
        if s.isWaiting then
          match s.advance with
          | .error e => ⟨[], some e⟩
          | .ok s => run fuel s
        else if t.kind = .streamEnd then ⟨[t], none⟩
        else cons t (run fuel { s with held, delivered := s.delivered + 1 })

/-- The tokens of a text, which ends at its first NUL. -/
def ofText (text : String) : TokenStream :=
  let chars := text.toList.takeWhile (· ≠ '\x00')
  run (6 * chars.length + 16) { cursor := .start chars }

end TokenStream

end Interconnect.Yaml
