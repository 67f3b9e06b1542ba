import Interconnect.Yaml.Scalar

/-! # Plain scalars

    A scalar without quotes goes on over words and lines until an indicator,
    a comment, a document indicator or a lesser indentation ends it.
-/

namespace Interconnect.Yaml.Scalar

/-- Where a plain scalar stands. -/
structure PlainContext where
  /-- Inside a flow collection. -/
  inFlow : Bool
  /-- The least column of a continuation line. -/
  indent : Int
  deriving DecidableEq, Repr, Inhabited

/-- A plain scalar: its text, the place behind it and the white space after
    it, and whether that white space has breaks. -/
structure Plain where
  text : String
  cursor : Cursor
  brokenOff : Bool

/-- Whether a character ends a plain scalar in the middle of a line. -/
def endsPlain (inFlow : Bool) : List Char → Bool
  | [] => true
  | ':' :: rest =>
    endsWord rest || (inFlow && match rest with
      | [] => false
      | c :: _ => isFlowIndicator c)
  | c :: _ => inFlow && isFlowIndicator c

/-- Whether a plain scalar ends in front of a word, given the white space
    before that word. -/
def endsBeforeWord (ctx : PlainContext) (gap : List Char) (mark : Mark) (text : List Char) :
    Bool :=
  (!gap.isEmpty && !ctx.inFlow && (mark.column : Int) < ctx.indent) ||
    (mark.column = 0 && startsWithIndicator text) || text.head? = some '#'

/-- Read on, given the text so far and the white space behind it, both
    backwards. -/
def plainFrom (ctx : PlainContext) (start : Mark) (text gap : List Char) (mark : Mark) :
    List Char → Except SyntaxError Plain
  | [] => .ok ⟨String.ofList text.reverse, ⟨[], mark⟩, gap.any isBreak⟩
  | c :: rest =>
    if isSpace c then
      if c = '\t' ∧ gap.any isBreak ∧ (mark.column : Int) < ctx.indent then
        fail .plainTab start
      else plainFrom ctx start text (c :: gap) (mark.after c) rest
    else if ((!gap.isEmpty || text.isEmpty) && endsBeforeWord ctx gap mark (c :: rest)) ||
        endsPlain ctx.inFlow (c :: rest) then
      .ok ⟨String.ofList text.reverse, ⟨c :: rest, mark⟩, gap.any isBreak⟩
    else
      plainFrom ctx start (c :: ((fold gap.reverse).reverse ++ text)) [] (mark.after c) rest

/-- Read a plain scalar. -/
def plain (ctx : PlainContext) (cursor : Cursor) : Except SyntaxError Plain :=
  plainFrom ctx cursor.mark [] [] cursor.mark cursor.rest

end Interconnect.Yaml.Scalar
