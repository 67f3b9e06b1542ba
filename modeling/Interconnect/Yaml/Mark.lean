/-! # Marks and syntax errors

    A mark is a place in a text. Every reason for which a text is not a YAML
    document has a constructor of its own; an error is a reason at a mark.
-/

namespace Interconnect.Yaml

/-- A place in a text: how many characters lie before it, its line from 1 and
    its column from 0. Only a line feed begins a line. -/
structure Mark where
  index : Nat
  line : Nat
  column : Nat
  deriving DecidableEq, Repr, Inhabited

namespace Mark

/-- The beginning of a text. -/
def start : Mark := ⟨0, 1, 0⟩

/-- The place behind a character. -/
def after (m : Mark) (c : Char) : Mark :=
  if c = '\n' then ⟨m.index + 1, m.line + 1, 0⟩ else ⟨m.index + 1, m.line, m.column + 1⟩

/-- The place as a message names it; there columns are counted from 1. -/
def describe (m : Mark) : String :=
  s!"line {m.line} column {m.column + 1}"

end Mark

/-- A reason for which a text is not a YAML document. -/
inductive SyntaxError.Cause where
  | unexpectedCharacter (c : Char)
  | keyWithoutColon
  | keyMissing
  | flowTooDeep
  | entryOutOfPlace
  | entryInFlow
  | keyOutOfPlace
  | valueOutOfPlace
  | directiveNameMissing
  | directiveNameCharacter
  | directiveUnterminated
  | versionTooLong
  | versionMissing
  | versionWithoutPoint
  | tagWithoutMark
  | tagHandleUnterminated
  | tagDirectiveUnterminated
  | tagUnclosed
  | tagUnterminated
  | tagEmpty
  | tagOctetMissing
  | tagLeadingOctet
  | tagTrailingOctet
  | tagCodePoint
  | anchorName
  | anchorUnknown
  | blockIndentationZero
  | blockHeaderUnterminated
  | blockTab
  | quotedDocumentIndicator
  | quotedUnclosed
  | escapeUnknown
  | escapeDigits
  | escapeCodePoint
  | plainTab
  | documentStartMissing
  | nodeMissing
  | blockMappingKey
  | blockSequenceEntry
  | flowMappingSeparator
  | flowSequenceSeparator
  deriving DecidableEq, Repr, Inhabited

/-- The text of a reason. -/
def SyntaxError.Cause.message : SyntaxError.Cause → String
  | unexpectedCharacter c => s!"unexpected character: \x60{c}\x27"
  | keyWithoutColon => "simple key expect \x27:\x27"
  | keyMissing => "simple key expected"
  | flowTooDeep => "recursion limit exceeded"
  | entryOutOfPlace => "block sequence entries are not allowed in this context"
  | entryInFlow => "\"-\" is only valid inside a block"
  | keyOutOfPlace => "mapping keys are not allowed in this context"
  | valueOutOfPlace => "mapping values are not allowed in this context"
  | directiveNameMissing =>
    "while scanning a directive, could not find expected directive name"
  | directiveNameCharacter =>
    "while scanning a directive, found unexpected non-alphabetical character"
  | directiveUnterminated =>
    "while scanning a directive, did not find expected comment or line break"
  | versionTooLong =>
    "while scanning a YAML directive, found extremely long version number"
  | versionMissing =>
    "while scanning a YAML directive, did not find expected version number"
  | versionWithoutPoint =>
    "while scanning a YAML directive, did not find expected digit or \x27.\x27 character"
  | tagWithoutMark => "while scanning a tag, did not find expected \x27!\x27"
  | tagHandleUnterminated =>
    "while parsing a tag directive, did not find expected \x27!\x27"
  | tagDirectiveUnterminated =>
    "while scanning TAG, did not find expected whitespace or line break"
  | tagUnclosed => "while scanning a tag, did not find the expected \x27>\x27"
  | tagUnterminated =>
    "while scanning a tag, did not find expected whitespace or line break"
  | tagEmpty => "while parsing a tag, did not find expected tag URI"
  | tagOctetMissing => "while parsing a tag, did not find URI escaped octet"
  | tagLeadingOctet => "while parsing a tag, found an incorrect leading UTF-8 octet"
  | tagTrailingOctet => "while parsing a tag, found an incorrect trailing UTF-8 octet"
  | tagCodePoint => "while parsing a tag, found an invalid UTF-8 codepoint"
  | anchorName => "while scanning an anchor or alias, did not find expected " ++
      "alphabetic or numeric character"
  | anchorUnknown => "while parsing node, found unknown anchor"
  | blockIndentationZero =>
    "while scanning a block scalar, found an indentation indicator equal to 0"
  | blockHeaderUnterminated =>
    "while scanning a block scalar, did not find expected comment or line break"
  | blockTab => "while scanning a block scalar, found a tab character where an " ++
      "indentation space is expected"
  | quotedDocumentIndicator =>
    "while scanning a quoted scalar, found unexpected document indicator"
  | quotedUnclosed => "while scanning a quoted scalar, found unexpected end of stream"
  | escapeUnknown => "while parsing a quoted scalar, found unknown escape character"
  | escapeDigits =>
    "while parsing a quoted scalar, did not find expected hexadecimal number"
  | escapeCodePoint =>
    "while parsing a quoted scalar, found invalid Unicode character escape code"
  | plainTab => "while scanning a plain scalar, found a tab"
  | documentStartMissing => "did not find expected <document start>"
  | nodeMissing => "while parsing a node, did not find expected node content"
  | blockMappingKey => "while parsing a block mapping, did not find expected key"
  | blockSequenceEntry =>
    "while parsing a block collection, did not find expected \x27-\x27 indicator"
  | flowMappingSeparator =>
    "while parsing a flow mapping, did not find expected \x27,\x27 or \x27\x7d\x27"
  | flowSequenceSeparator =>
    "while parsing a flow sequence, expected \x27,\x27 or \x27]\x27"

/-- A reason, and where it arose. -/
structure SyntaxError where
  cause : SyntaxError.Cause
  mark : Mark
  deriving DecidableEq, Repr, Inhabited

/-- The text of an error. -/
def SyntaxError.message (e : SyntaxError) : String :=
  s!"{e.cause.message} at {e.mark.describe}"

/-- Fail for a reason at a mark. -/
def fail {α : Type} (cause : SyntaxError.Cause) (mark : Mark) : Except SyntaxError α :=
  .error ⟨cause, mark⟩

end Interconnect.Yaml
