import Interconnect.Text.Shapeless

/-! # Quoted texts

    How a text is shown inside a message: between double quotes, with quotes
    and backslashes escaped and every character without a shape of its own
    spelled out.
-/

namespace Interconnect.Text

/-- The lower-case hexadecimal digits of a number. -/
def hexDigits (n : Nat) : String :=
  String.ofList (Nat.toDigits 16 n)

/-- The form of one character inside quotes. -/
def quotedChar (c : Char) : String :=
  if c = '\x22' then "\\\""
  else if c = '\x5c' then "\\\\"
  else if c = '\n' then "\\n"
  else if c = '\r' then "\\r"
  else if c = '\t' then "\\t"
  else if c = '\x00' then "\\0"
  else if isShapeless c then "\\u\x7b" ++ hexDigits c.toNat ++ "\x7d"
  else c.toString

/-- The text between quotes. -/
def quoted (s : String) : String :=
  "\"" ++ s.foldl (fun out c => out ++ quotedChar c) "" ++ "\""

end Interconnect.Text
