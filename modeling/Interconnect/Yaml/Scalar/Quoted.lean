import Interconnect.Yaml.Scalar

/-! # Quoted scalars

    Between single quotes, two of them stand for one. Between double quotes,
    a backslash begins an escape: of a character, of a code point or of a
    break.
-/

namespace Interconnect.Yaml.Scalar

/-- What an escape of one character stands for. -/
def escaped? : Char → Option Char
  | '0' => some '\x00'
  | 'a' => some '\x07'
  | 'b' => some '\x08'
  | 't' | '\t' => some '\t'
  | 'n' => some '\n'
  | 'v' => some '\x0b'
  | 'f' => some '\x0c'
  | 'r' => some '\r'
  | 'e' => some '\x1b'
  | ' ' => some ' '
  | '\x22' => some '\x22'
  | '\x27' => some '\x27'
  | '\x5c' => some '\x5c'
  | 'N' => some '\u0085'
  | '_' => some '\u00a0'
  | 'L' => some '\u2028'
  | 'P' => some '\u2029'
  | _ => none

/-- How many hexadecimal digits an escape of a code point has. -/
def escapeDigits? : Char → Option Nat
  | 'x' => some 2
  | 'u' => some 4
  | 'U' => some 8
  | _ => none

/-- The number that the next hexadecimal digits denote. -/
def hexNumber? : Nat → Nat → List Char → Option Nat
  | 0, value, _ => some value
  | _ + 1, _, [] => none
  | n + 1, value, c :: rest =>
    match hexValue? c with
    | some digit => hexNumber? n (value * 16 + digit) rest
    | none => none

/-- The character of a code point. -/
def character? (code : Nat) : Option Char :=
  if h : code.isValidChar then some (Char.ofNatAux code h) else none

/-- The character that an escape stands for, given what follows the backslash,
    and how many characters the escape takes after it. -/
def escape? (start : Mark) : List Char → Except SyntaxError (Char × Nat)
  | [] => fail .escapeUnknown start
  | c :: rest =>
    match escaped? c, escapeDigits? c with
    | some plain, _ => .ok (plain, 1)
    | none, none => fail .escapeUnknown start
    | none, some n =>
      match hexNumber? n 0 rest with
      | none => fail .escapeDigits start
      | some code =>
        match character? code with
        | none => fail .escapeCodePoint start
        | some x => .ok (x, n + 1)

/-- White space read so far: what it is, and whether an escaped break began
    it. -/
structure Gap where
  /-- Backwards. -/
  chars : List Char := []
  escaped : Bool := false
  deriving DecidableEq, Repr, Inhabited

/-- What a gap leaves in the text, backwards. -/
def Gap.folded (g : Gap) : List Char :=
  (if g.escaped then foldEscaped g.chars.reverse else fold g.chars.reverse).reverse

/-- A quoted scalar and the place behind its closing quote. -/
abbrev QuotedResult := Except SyntaxError (String × Cursor)

/-- Read on between single quotes, given the text so far, backwards. -/
def singleFrom (start : Mark) (text : List Char) (gap : Gap) (mark : Mark) :
    List Char → QuotedResult
  | [] => fail .quotedUnclosed start
  | '\x27' :: '\x27' :: rest =>
    singleFrom start ('\x27' :: (gap.folded ++ text)) {} ((mark.after '\x27').after '\x27') rest
  | c :: rest =>
    if isSpace c then
      singleFrom start text { gap with chars := c :: gap.chars } (mark.after c) rest
    else if mark.column = 0 ∧ startsWithIndicator (c :: rest) then
      fail .quotedDocumentIndicator start
    else if c = '\x27' then
      .ok (String.ofList (gap.folded ++ text).reverse, ⟨rest, mark.after c⟩)
    else singleFrom start (c :: (gap.folded ++ text)) {} (mark.after c) rest

/-- Read on between double quotes, given the text so far, backwards, and how
    many of the next characters belong to an escape that was read. -/
def doubleFrom (start : Mark) (text : List Char) (gap : Gap) (passed : Nat) (mark : Mark) :
    List Char → QuotedResult
  | [] => fail .quotedUnclosed start
  | c :: rest =>
    match passed with
    | n + 1 => doubleFrom start text gap n (mark.after c) rest
    | 0 =>
      if isSpace c then
        doubleFrom start text { gap with chars := c :: gap.chars } 0 (mark.after c) rest
      else if mark.column = 0 ∧ startsWithIndicator (c :: rest) then
        fail .quotedDocumentIndicator start
      else if c = '\x22' then
        .ok (String.ofList (gap.folded ++ text).reverse, ⟨rest, mark.after c⟩)
      else if c = '\x5c' then
        match rest with
        | '\r' :: '\n' :: _ =>
          doubleFrom start (gap.folded ++ text) { escaped := true } 2 (mark.after c) rest
        | x :: _ =>
          if isBreak x then
            doubleFrom start (gap.folded ++ text) { escaped := true } 1 (mark.after c) rest
          else
            match escape? start rest with
            | .error e => .error e
            | .ok (y, n) =>
              doubleFrom start (y :: (gap.folded ++ text)) {} n (mark.after c) rest
        | [] => fail .escapeUnknown start
      else doubleFrom start (c :: (gap.folded ++ text)) {} 0 (mark.after c) rest

/-- Read a scalar between single quotes. -/
def single (cursor : Cursor) : QuotedResult :=
  singleFrom cursor.mark [] {} cursor.skip.mark cursor.skip.rest

/-- Read a scalar between double quotes. -/
def double (cursor : Cursor) : QuotedResult :=
  doubleFrom cursor.mark [] {} 0 cursor.skip.mark cursor.skip.rest

end Interconnect.Yaml.Scalar
