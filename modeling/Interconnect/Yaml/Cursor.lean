import Interconnect.Yaml.Mark

/-! # Cursors

    A cursor is a place in a text together with the characters that follow
    it. The classes of characters that the format knows are here too; the end
    of the text counts as a break where the format says so.
-/

namespace Interconnect.Yaml

/-- A line feed or a carriage return. -/
def isBreak (c : Char) : Bool :=
  c = '\n' || c = '\r'

/-- A space or a tab. -/
def isBlank (c : Char) : Bool :=
  c = ' ' || c = '\t'

/-- A character that separates words. -/
def isSpace (c : Char) : Bool :=
  isBlank c || isBreak c

/-- A character of names: an ASCII letter, a digit, `_` or `-`. -/
def isNameChar (c : Char) : Bool :=
  c.isAlphanum || c = '_' || c = '-'

/-- A character that structures flow collections. -/
def isFlowIndicator (c : Char) : Bool :=
  c = ',' || c = '[' || c = ']' || c = '\x7b' || c = '\x7d'

/-- The value of a hexadecimal digit. -/
def hexValue? (c : Char) : Option Nat :=
  if '0' ≤ c ∧ c ≤ '9' then some (c.toNat - '0'.toNat)
  else if 'a' ≤ c ∧ c ≤ 'f' then some (c.toNat - 'a'.toNat + 10)
  else if 'A' ≤ c ∧ c ≤ 'F' then some (c.toNat - 'A'.toNat + 10)
  else none

/-- Whether a text is at its end or begins with a character that separates. -/
def endsWord : List Char → Bool
  | [] => true
  | c :: _ => isSpace c

/-- Whether a text is at its end or begins with a break. -/
def endsLine : List Char → Bool
  | [] => true
  | c :: _ => isBreak c

/-- Whether a text begins with `---` or `...` as a word. -/
def startsWithIndicator : List Char → Bool
  | '-' :: '-' :: '-' :: rest | '.' :: '.' :: '.' :: rest => endsWord rest
  | _ => false

/-- A place in a text and what follows it. -/
structure Cursor where
  rest : List Char
  mark : Mark
  deriving DecidableEq, Repr, Inhabited

namespace Cursor

/-- The beginning of a text. -/
def start (text : List Char) : Cursor :=
  ⟨text, .start⟩

/-- Pass one character. -/
def skip (c : Cursor) : Cursor :=
  match c.rest with
  | [] => c
  | x :: rest => ⟨rest, c.mark.after x⟩

/-- Pass a number of characters. -/
def skips : Nat → Cursor → Cursor
  | 0, c => c
  | n + 1, c => skips n c.skip

/-- Pass characters of a class: those passed, and the place behind them. -/
def spanFrom (p : Char → Bool) (mark : Mark) : List Char → List Char × Cursor
  | [] => ([], ⟨[], mark⟩)
  | c :: rest =>
    if p c then
      let (front, cursor) := spanFrom p (mark.after c) rest
      (c :: front, cursor)
    else ([], ⟨c :: rest, mark⟩)

/-- Pass the characters of a class that come next. -/
def span (p : Char → Bool) (c : Cursor) : List Char × Cursor :=
  spanFrom p c.mark c.rest

/-- Pass the characters of a class that come next, and forget them. -/
def drop (p : Char → Bool) (c : Cursor) : Cursor :=
  (c.span p).2

/-- Pass a break if one comes next; a carriage return and a line feed are one. -/
def skipBreak (c : Cursor) : Cursor :=
  match c.rest with
  | '\r' :: '\n' :: _ => c.skip.skip
  | x :: _ => if isBreak x then c.skip else c
  | [] => c

/-- Pass a comment if one comes next. -/
def skipComment (c : Cursor) : Cursor :=
  match c.rest with
  | '#' :: _ => c.drop fun x => !isBreak x
  | _ => c

end Cursor

end Interconnect.Yaml
