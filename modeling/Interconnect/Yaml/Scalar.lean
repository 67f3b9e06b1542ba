import Interconnect.Yaml.Cursor

/-! # Scalars

    What a scalar looks like in a text, and the rule that folds the white
    space between its words.
-/

namespace Interconnect.Yaml

/-- The form of a scalar. Only the type of a plain one is read off its text. -/
inductive Style where
  | plain
  | quoted
  | block
  deriving DecidableEq, Repr, Inhabited

namespace Scalar

/-- The number of breaks; a carriage return and a line feed are one. -/
def breaks : List Char → Nat
  | [] => 0
  | '\r' :: '\n' :: rest => breaks rest + 1
  | c :: rest => (if isBreak c then 1 else 0) + breaks rest

/-- White space between two words: blanks are kept, a single break becomes a
    space, and of several breaks all but one are kept. -/
def fold (gap : List Char) : List Char :=
  match breaks gap with
  | 0 => gap
  | 1 => [' ']
  | n + 2 => List.replicate (n + 1) '\n'

/-- White space behind an escaped break: only its breaks are kept. -/
def foldEscaped (gap : List Char) : List Char :=
  List.replicate (breaks gap) '\n'

end Scalar

end Interconnect.Yaml
