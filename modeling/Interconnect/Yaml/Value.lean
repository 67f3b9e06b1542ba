import Interconnect.Text.Decimal

/-! # Written values

    The values that are written as YAML, and how they are: collections in
    block form with two columns of indentation, a collection inside a sequence
    on the line of its dash, and a text in double quotes where it would be
    taken for something else.
-/

namespace Interconnect.Yaml

/-- A value to be written. -/
inductive Value where
  | null
  | bool (b : Bool)
  | nat (n : Nat)
  | text (s : String)
  | list (items : List Value)
  | record (fields : List (String × Value))
  deriving Inhabited

namespace Value

/-- A value, or nothing. -/
def optional {α : Type} (f : α → Value) : Option α → Value
  | some a => f a
  | none => null

/-! ## Texts -/

/-- Characters that a text without quotes cannot begin with. -/
def isLeadingIndicator (c : Char) : Bool :=
  "&*?|-<>=!%@.".toList.contains c

/-- Characters that a text without quotes cannot have. -/
def isIndicator (c : Char) : Bool :=
  ":\x7b\x7d[],#\x60\"\x27\\".toList.contains c || c.toNat ≤ 6 || c = '\t' || c = '\n' ||
    c = '\r' || (0x0e ≤ c.toNat && c.toNat ≤ 0x1f && c.toNat ≠ 0x1b)

/-- Words that are read as truth values or as nothing. -/
def words : List String :=
  ["yes", "Yes", "YES", "no", "No", "NO", "True", "TRUE", "true", "False", "FALSE", "false",
    "on", "On", "ON", "off", "Off", "OFF", "null", "Null", "NULL", "~"]

/-- Whether a text is written in quotes. -/
def needsQuotes (s : String) : Bool :=
  let chars := s.toList
  chars.isEmpty || chars.head? = some ' ' || chars.getLast? = some ' ' ||
    chars.head?.any isLeadingIndicator || chars.any isIndicator || words.contains s ||
    chars.take 2 = ['0', 'x'] || (Text.Real.ofText? s).isSome

/-- A hexadecimal digit. -/
def hexDigit (n : Nat) : Char :=
  if n < 10 then Char.ofNat ('0'.toNat + n) else Char.ofNat ('a'.toNat + n - 10)

/-- What is written for a character between quotes. -/
def escape (c : Char) : List Char :=
  if c = '\x22' then ['\x5c', '\x22']
  else if c = '\x5c' then ['\x5c', '\x5c']
  else if c = '\x08' then ['\x5c', 'b']
  else if c = '\t' then ['\x5c', 't']
  else if c = '\n' then ['\x5c', 'n']
  else if c = '\x0c' then ['\x5c', 'f']
  else if c = '\r' then ['\x5c', 'r']
  else if c.toNat < 0x20 || c.toNat = 0x7f then
    ['\x5c', 'u', '0', '0', hexDigit (c.toNat / 16), hexDigit (c.toNat % 16)]
  else [c]

/-- A text as it is written. -/
def writtenText (s : String) : String :=
  if needsQuotes s then "\"" ++ String.ofList (s.toList.flatMap escape) ++ "\"" else s

/-! ## Collections -/

/-- The beginning of a line at a depth of indentation. -/
def newline (depth : Nat) : String :=
  "\n" ++ "".pushn ' ' (2 * depth)

/-- What stands between an item and the indicator in front of it: collections
    with items begin a line, unless they may stand behind a dash. -/
def gap (inline : Bool) (depth : Nat) : Value → String
  | list (_ :: _) | record (_ :: _) => if inline then " " else newline depth
  | _ => " "

mutual

/-- The pieces of a value as it is written at a depth of indentation. -/
def pieces (depth : Nat) : Value → List String
  | null => ["~"]
  | bool b => [toString b]
  | nat n => [toString n]
  | text s => [writtenText s]
  | list [] => ["[]"]
  | list (v :: rest) =>
    "-" :: gap true (depth + 1) v :: (pieces (depth + 1) v ++ itemPieces depth rest)
  | record [] => ["\x7b\x7d"]
  | record ((name, v) :: rest) =>
    writtenText name :: ":" :: gap false (depth + 1) v ::
      (pieces (depth + 1) v ++ fieldPieces depth rest)

/-- The pieces of further items of a list. -/
def itemPieces (depth : Nat) : List Value → List String
  | [] => []
  | v :: rest =>
    newline depth :: "-" :: gap true (depth + 1) v ::
      (pieces (depth + 1) v ++ itemPieces depth rest)

/-- The pieces of further fields of a record. -/
def fieldPieces (depth : Nat) : List (String × Value) → List String
  | [] => []
  | (name, v) :: rest =>
    newline depth :: writtenText name :: ":" :: gap false (depth + 1) v ::
      (pieces (depth + 1) v ++ fieldPieces depth rest)

end

/-- A value as a document. -/
def document (v : Value) : String :=
  "---\n" ++ String.join (pieces 0 v) ++ "\n"

end Value

end Interconnect.Yaml
