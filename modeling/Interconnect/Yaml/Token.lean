import Interconnect.Yaml.Scalar

/-! # Tokens

    The pieces that a text is cut into. Indentation is made explicit: a block
    collection has a start and an end token.
-/

namespace Interconnect.Yaml

/-- A tag, as the handle that selects its vocabulary and the rest of it. -/
structure Tag where
  handle : String
  suffix : String
  deriving DecidableEq, Repr, Inhabited

/-- What a piece of a text is. -/
inductive Token.Kind where
  | streamEnd
  | directive
  | documentStart
  | documentEnd
  | blockSequenceStart
  | blockMappingStart
  | blockEnd
  | flowSequenceStart
  | flowSequenceEnd
  | flowMappingStart
  | flowMappingEnd
  | blockEntry
  | flowEntry
  | key
  | value
  | reference (name : String)
  | anchor (name : String)
  | tag (tag : Tag)
  | scalar (style : Style) (text : String)
  deriving DecidableEq, Repr, Inhabited

/-- A piece of a text, and where it begins. -/
structure Token where
  kind : Token.Kind
  mark : Mark
  deriving DecidableEq, Repr, Inhabited

end Interconnect.Yaml
