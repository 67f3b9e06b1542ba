import Interconnect.Yaml.Token

/-! # Anchors, tags and directives

    The pieces that stand in front of nodes and documents. Each reader starts
    at the character that announces its piece.
-/

namespace Interconnect.Yaml.Token

/-! ## Anchors -/

/-- Whether a text can follow the name of an anchor. -/
def endsAnchor : List Char → Bool
  | [] => true
  | c :: _ => isSpace c || "?:,]\x7d%@\x60".toList.contains c

/-- Read the name of an anchor or an alias. -/
def anchorName (cursor : Cursor) : Except SyntaxError (String × Cursor) := do
  let (name, behind) := cursor.skip.span isNameChar
  if name.isEmpty || !endsAnchor behind.rest then fail .anchorName cursor.mark
  return (String.ofList name, behind)

/-! ## Tags -/

/-- A character of a tag that stands for itself. -/
def isTagChar (c : Char) : Bool :=
  isNameChar c || ";/?:@&=+$,.!~*\x27()[]".toList.contains c

/-- The octet of an escape `%xx`. -/
def octet? : List Char → Option Nat
  | '%' :: a :: b :: _ => do return (← hexValue? a) * 16 + (← hexValue? b)
  | _ => none

/-- How many octets a character has that begins with an octet. -/
def octetCount? (octet : Nat) : Option Nat :=
  if octet < 0x80 then some 1
  else if octet / 0x20 = 6 then some 2
  else if octet / 0x10 = 14 then some 3
  else if octet / 0x08 = 30 then some 4
  else none

/-- Read the trailing octets of a character. The octets are strung together
    to a code point as they are. -/
def trailingOctets (start : Mark) : Nat → Nat → Cursor → Except SyntaxError (Nat × Cursor)
  | 0, code, c => .ok (code, c)
  | n + 1, code, c =>
    match octet? c.rest with
    | none => fail .tagOctetMissing start
    | some octet =>
      if octet / 0x40 = 2 then trailingOctets start n (code * 256 + octet) (c.skips 3)
      else fail .tagTrailingOctet start

/-- Read a character that is written as escaped octets. -/
def escapedCharacter (start : Mark) (c : Cursor) : Except SyntaxError (Char × Cursor) := do
  match octet? c.rest with
  | none => fail .tagOctetMissing start
  | some octet =>
    match octetCount? octet with
    | none => fail .tagLeadingOctet start
    | some n =>
      let (code, behind) ← trailingOctets start (n - 1) octet (c.skips 3)
      if h : code.isValidChar then return (Char.ofNatAux code h, behind)
      else fail .tagCodePoint start

/-- Read the characters of a tag. Every step takes a character, so the fuel is
    the number of characters. -/
def tagCharacters (start : Mark) :
    Nat → List Char → Cursor → Except SyntaxError (List Char × Cursor)
  | 0, text, c => .ok (text.reverse, c)
  | fuel + 1, text, c =>
    match c.rest with
    | [] => .ok (text.reverse, c)
    | '%' :: _ => do
      let (x, behind) ← escapedCharacter start c
      tagCharacters start fuel (x :: text) behind
    | x :: _ =>
      if isTagChar x then tagCharacters start fuel (x :: text) c.skip
      else .ok (text.reverse, c)

/-- Read the suffix of a tag, whose beginning may have been read as a handle
    already. -/
def tagSuffix (start : Mark) (head : List Char) (cursor : Cursor) :
    Except SyntaxError (String × Cursor) := do
  let (text, behind) ← tagCharacters start cursor.rest.length [] cursor
  if head.isEmpty && text.isEmpty then fail .tagEmpty start
  return (String.ofList (head.drop 1 ++ text), behind)

/-- Read a handle: `!`, a name, and a second `!` if there is one. -/
def tagHandle (inDirective : Bool) (start : Mark) (cursor : Cursor) :
    Except SyntaxError (List Char × Cursor) := do
  unless cursor.rest.head? = some '!' do fail .tagWithoutMark start
  let (name, behind) := cursor.skip.span isNameChar
  if behind.rest.head? = some '!' then return ('!' :: name ++ ['!'], behind.skip)
  if inDirective && !name.isEmpty then fail .tagHandleUnterminated start
  return ('!' :: name, behind)

/-- Read a tag in angle brackets. -/
def verbatimTag (start : Mark) (cursor : Cursor) : Except SyntaxError (Tag × Cursor) := do
  let (suffix, behind) ← tagSuffix start [] cursor
  unless behind.rest.head? = some '>' do fail .tagUnclosed start
  return (⟨"", suffix⟩, behind.skip)

/-- Read a tag that is abbreviated by a handle. -/
def shorthandTag (start : Mark) (cursor : Cursor) : Except SyntaxError (Tag × Cursor) := do
  let (handle, behind) ← tagHandle false start cursor
  if 2 ≤ handle.length ∧ handle.getLast? = some '!' then
    let (suffix, behind) ← tagSuffix start [] behind
    return (⟨String.ofList handle, suffix⟩, behind)
  else
    let (suffix, behind) ← tagSuffix start handle behind
    return (if suffix.isEmpty then ⟨"", "!"⟩ else ⟨"!", suffix⟩, behind)

/-- Read a tag. -/
def tagOf (cursor : Cursor) : Except SyntaxError (Tag × Cursor) := do
  let start := cursor.mark
  let (tag, behind) ←
    if cursor.skip.rest.head? = some '<' then verbatimTag start (cursor.skips 2)
    else shorthandTag start cursor
  unless endsWord behind.rest do fail .tagUnterminated start
  return (tag, behind)

/-! ## Directives -/

/-- Read the name of a directive. -/
def directiveName (cursor : Cursor) : Except SyntaxError (String × Cursor) := do
  let (name, behind) := cursor.span isNameChar
  if name.isEmpty then fail .directiveNameMissing cursor.mark
  unless endsWord behind.rest do fail .directiveNameCharacter cursor.mark
  return (String.ofList name, behind)

/-- Pass a version number of at most nine digits. -/
def versionNumber (start : Mark) (cursor : Cursor) : Except SyntaxError Cursor := do
  let (digits, behind) := cursor.span Char.isDigit
  if 9 < digits.length then fail .versionTooLong start
  if digits.isEmpty then fail .versionMissing start
  return behind

/-- Pass the value of a version directive. -/
def versionDirective (start : Mark) (cursor : Cursor) : Except SyntaxError Cursor := do
  let behind ← versionNumber start (cursor.drop isBlank)
  unless behind.rest.head? = some '.' do fail .versionWithoutPoint start
  versionNumber start behind.skip

/-- Pass the value of a tag directive. -/
def tagDirective (start : Mark) (cursor : Cursor) : Except SyntaxError Cursor := do
  let (_, behind) ← tagHandle true start (cursor.drop isBlank)
  let (_, behind) ← tagSuffix start [] (behind.drop isBlank)
  unless endsWord behind.rest do fail .tagDirectiveUnterminated start
  return behind

/-- Pass a directive and the rest of its line. Nothing that follows depends on
    what a directive says. -/
def directive (cursor : Cursor) : Except SyntaxError Cursor := do
  let start := cursor.mark
  let (name, behind) ← directiveName cursor.skip
  let behind ← match name with
    | "YAML" => versionDirective start behind
    | "TAG" => tagDirective start behind
    | _ => pure (behind.drop fun c => !isBreak c)
  let behind := (behind.drop isBlank).skipComment
  unless endsLine behind.rest do fail .directiveUnterminated start
  return behind.skipBreak

end Interconnect.Yaml.Token
