import Interconnect.Yaml.Scalar

/-! # Block scalars

    A header says whether lines are kept (`|`) or folded (`>`), what becomes
    of the breaks at the end, and optionally how far the lines are indented;
    the lines of the scalar follow.
-/

namespace Interconnect.Yaml.Scalar

/-- What becomes of the breaks at the end. -/
inductive Chomping where
  | /-- None is kept. -/
    strip
  | /-- The first one is kept. -/
    clip
  | /-- All are kept. -/
    keep
  deriving DecidableEq, Repr, Inhabited

/-- What a header says; an indentation of 0 is left to the first line. -/
structure Header where
  chomping : Chomping := .clip
  indentation : Nat := 0
  deriving DecidableEq, Repr, Inhabited

/-- The chomping that an indicator stands for. -/
def chomping? : List Char → Option Chomping
  | '+' :: _ => some .keep
  | '-' :: _ => some .strip
  | _ => none

/-- The digit that gives an indentation. -/
def indentation? (start : Mark) : List Char → Except SyntaxError (Option Nat)
  | '0' :: _ => fail .blockIndentationZero start
  | c :: _ => .ok (if c.isDigit then some (c.toNat - '0'.toNat) else none)
  | [] => .ok none

/-- Read the two indicators of a header, in either order. -/
def header (start : Mark) (c : Cursor) : Except SyntaxError (Header × Cursor) := do
  match chomping? c.rest with
  | some chomping =>
    match ← indentation? start c.skip.rest with
    | some n => return (⟨chomping, n⟩, c.skip.skip)
    | none => return (⟨chomping, 0⟩, c.skip)
  | none =>
    match ← indentation? start c.rest with
    | some n =>
      match chomping? c.skip.rest with
      | some chomping => return (⟨chomping, n⟩, c.skip.skip)
      | none => return (⟨.clip, n⟩, c.skip)
    | none => return ({}, c)

/-- Empty lines in front of a line: their number, the deepest column that was
    reached, and the place of the line. -/
structure Lead where
  breaks : Nat
  deepest : Nat
  cursor : Cursor

/-- Pass indentation and empty lines. The flag says that a line feed is to be
    passed as the second half of a break. -/
def leadFrom (indent breaks deepest : Nat) (half : Bool) (mark : Mark) :
    List Char → Except SyntaxError Lead
  | [] => .ok ⟨breaks, max deepest mark.column, ⟨[], mark⟩⟩
  | c :: rest =>
    if half && c = '\n' then leadFrom indent breaks deepest false (mark.after c) rest
    else
      let inside := indent = 0 ∨ mark.column < indent
      if c = ' ' ∧ inside then leadFrom indent breaks deepest false (mark.after c) rest
      else if c = '\t' ∧ inside then fail .blockTab mark
      else if isBreak c then
        leadFrom indent (breaks + 1) (max deepest mark.column) (c = '\r') (mark.after c) rest
      else .ok ⟨breaks, max deepest mark.column, ⟨c :: rest, mark⟩⟩

/-- Pass the empty lines at a place. -/
def lead (indent : Nat) (c : Cursor) : Except SyntaxError Lead :=
  leadFrom indent 0 0 false c.mark c.rest

/-- The text so far, and the breaks after it: the one that ended the last
    line, and those of empty lines. -/
structure BlockState where
  text : List Char := []
  ended : Bool := false
  empty : Nat := 0
  /-- Whether the last line begins with a blank. -/
  blank : Bool := false
  deriving DecidableEq, Repr, Inhabited

/-- What joins the text to a line, that begins with a blank or not. -/
def joint (literal : Bool) (s : BlockState) (blank : Bool) : List Char :=
  let ended :=
    if !literal && s.ended && !s.blank && !blank then (if s.empty = 0 then [' '] else [])
    else if s.ended then ['\n'] else []
  ended ++ List.replicate s.empty '\n'

/-- Read the lines at an indentation. Every line has a character, so the fuel
    is the number of characters. -/
def linesFrom (literal : Bool) (indent : Nat) :
    Nat → BlockState → Cursor → Except SyntaxError (BlockState × Cursor)
  | 0, s, c => .ok (s, c)
  | fuel + 1, s, c =>
    if c.rest.isEmpty || c.mark.column ≠ indent then .ok (s, c)
    else do
      let blank := c.rest.head?.any isBlank
      let (line, behind) := c.span fun x => !isBreak x
      let text := s.text ++ joint literal s blank ++ line
      if behind.rest.isEmpty then return (⟨text, false, 0, blank⟩, behind)
      let next ← lead indent behind.skipBreak
      linesFrom literal indent fuel ⟨text, true, next.breaks, blank⟩ next.cursor

/-- The breaks that are kept at the end. -/
def Chomping.tail (chomping : Chomping) (s : BlockState) : List Char :=
  match chomping with
  | .strip => []
  | .clip => if s.ended then ['\n'] else []
  | .keep => (if s.ended then ['\n'] else []) ++ List.replicate s.empty '\n'

/-- A block scalar: its text, the place of its first line and the place
    behind it. -/
structure Block where
  text : String
  mark : Mark
  cursor : Cursor

/-- Read a block scalar inside a block of the given indentation. -/
def block (literal : Bool) (indent : Int) (cursor : Cursor) : Except SyntaxError Block := do
  let start := cursor.mark
  let (head, c) ← header start cursor.skip
  let c := (c.drop isBlank).skipComment
  unless endsLine c.rest do fail .blockHeaderUnterminated start
  let least := (indent + 1).toNat
  let given := if head.indentation = 0 then 0 else (max indent 0).toNat + head.indentation
  let first ← lead given c.skipBreak
  let indentation := if given = 0 then max 1 (max least first.deepest) else given
  let (s, c) ← linesFrom literal indentation (first.cursor.rest.length + 1)
    { empty := first.breaks } first.cursor
  return ⟨String.ofList (s.text ++ head.chomping.tail s), first.cursor.mark, c⟩

end Interconnect.Yaml.Scalar
