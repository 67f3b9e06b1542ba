import Interconnect.Text.Decimal
import Interconnect.Text.Quoted
import Interconnect.Yaml.Token

/-! # The meaning of scalars

    A plain scalar without a tag may denote nothing, a truth value or a
    number; every other one is a text, unless a tag of the standard vocabulary
    says otherwise.
-/

namespace Interconnect.Yaml

/-- What a node turns out to be. Integers that need more than 64 bits are kept
    apart. -/
inductive Found where
  | nothing
  | boolean (b : Bool)
  | integer (n : Int)
  | wideInteger (n : Int)
  | real (x : Text.Real)
  | text (s : String)
  | sequence
  | mapping
  deriving DecidableEq, Repr, Inhabited

/-- What was found, as a message says it. -/
def Found.describe : Found → String
  | nothing => "unit value"
  | boolean b => s!"boolean \x60{b}\x60"
  | integer n => s!"integer \x60{n}\x60"
  | wideInteger n => s!"integer \x60{n}\x60 as " ++ (if n < 0 then "i128" else "u128")
  | real x => s!"floating point \x60{x.describe}\x60"
  | text s =>
    let quoted := Text.quoted s
    s!"string {quoted}"
  | sequence => "sequence"
  | mapping => "map"

/-- Why a node is not the value that is asked for. -/
inductive Mismatch where
  | type (found : Found) (expected : String)
  | value (found : Found) (expected : String)
  | variant (name : String) (variants : List String)
  | duplicate (field : String)
  | length (found : Nat) (expected : String)
  deriving DecidableEq, Repr, Inhabited

namespace Mismatch

/-- Names to choose from. -/
def choices (names : List String) : String :=
  let quoted := names.map fun n => s!"\x60{n}\x60"
  match quoted with
  | [a] => a
  | [a, b] => s!"{a} or {b}"
  | _ => "one of " ++ ", ".intercalate quoted

/-- The text of a mismatch. -/
def message : Mismatch → String
  | type found expected => s!"invalid type: {found.describe}, expected {expected}"
  | value found expected => s!"invalid value: {found.describe}, expected {expected}"
  | variant name variants =>
    s!"unknown variant \x60{name}\x60, expected {choices variants}"
  | duplicate field => s!"duplicate field \x60{field}\x60"
  | length found expected => s!"invalid length {found}, expected {expected}"

end Mismatch

namespace Scalar

/-- The value of a digit to a base. -/
def digitValue? (base : Nat) (c : Char) : Option Nat := do
  let value ← hexValue? c
  if value < base then some value else none

/-- The number that digits to a base denote, if there are any. -/
def natural? (base : Nat) : List Char → Option Nat
  | [] => none
  | digits => digits.foldlM (fun n c => do return n * base + (← digitValue? base c)) 0

/-- As `natural?`, after an optional plus sign. -/
def positive? (base : Nat) (digits : List Char) : Option Nat :=
  match digits with
  | '+' :: rest => natural? base rest
  | _ => natural? base digits

/-- The base that is announced by a letter after a zero. -/
def base? : Char → Option Nat
  | 'x' => some 16
  | 'o' => some 8
  | 'b' => some 2
  | _ => none

/-- Whether an integer is at least `-2 ^ below` and less than `2 ^ above`. -/
def isBetween (below above : Nat) (n : Int) : Bool :=
  -(Nat.pow 2 below : Int) ≤ n && n < (Nat.pow 2 above : Int)

/-- An integer of at most 64 bits, written to a base that is announced. -/
def basedInteger? : List Char → Option Int
  | '-' :: '0' :: letter :: digits => do
    let n ← natural? (← base? letter) digits
    if n ≤ Nat.pow 2 63 then some (-(n : Int)) else none
  | '+' :: '0' :: letter :: digits | '0' :: letter :: digits => do
    let n ← positive? (← base? letter) digits
    if n < Nat.pow 2 64 then some n else none
  | _ => none

/-- A decimal integer with an optional sign. -/
def decimalInteger? : List Char → Option Int
  | '-' :: digits => (natural? 10 digits).map fun n => -(n : Int)
  | text => (positive? 10 text).map Int.ofNat

/-- What an integer is, if it has at most 128 bits. -/
def sized? (n : Int) : Option Found :=
  if isBetween 63 64 n then some (.integer n)
  else if isBetween 127 128 n then some (.wideInteger n)
  else none

/-- Whether digits begin with a zero that they do not need. Such a text is not
    a number. -/
def hasIdleZero (text : List Char) : Bool :=
  let digits := (Text.Real.splitSign text).2
  1 < digits.length && digits.head? = some '0' && digits.all Char.isDigit

/-- A number that is not an integer. -/
def real? (text : List Char) : Option Text.Real :=
  let s := String.ofList text
  if String.ofList (text.dropWhile (· = '+')) ∈ [".inf", ".Inf", ".INF"] then
    some (.infinity false)
  else if s ∈ ["-.inf", "-.Inf", "-.INF"] then some (.infinity true)
  else if s ∈ [".nan", ".NaN", ".NAN"] then some .notANumber
  else match Text.Real.ofText? s with
    | some (.finite d) => some (.finite d)
    | _ => none

/-- What a plain scalar without a tag denotes. -/
def untagged (text : String) : Found :=
  let chars := text.toList
  if text = "~" ∨ text = "null" then .nothing
  else if text = "true" then .boolean true
  else if text = "false" then .boolean false
  else match basedInteger? chars with
    | some n => .integer n
    | none =>
      if hasIdleZero chars then .text text
      else match (decimalInteger? chars).bind sized? with
        | some found => found
        | none =>
          match real? chars with
          | some x => .real x
          | none => .text text

/-- What a scalar denotes under a tag of the standard vocabulary. -/
def tagged (suffix text : String) : Except Mismatch Found :=
  match suffix with
  | "bool" =>
    if text = "true" then .ok (.boolean true)
    else if text = "false" then .ok (.boolean false)
    else .error (.value (.text text) "a boolean")
  | "int" =>
    match decimalInteger? text.toList with
    | some n =>
      if isBetween 63 63 n then .ok (.integer n)
      else .error (.value (.text text) "an integer")
    | none => .error (.value (.text text) "an integer")
  | "float" =>
    match Text.Real.ofText? text with
    | some x => .ok (.real x)
    | none => .error (.value (.text text) "a float")
  | "null" =>
    if text = "~" ∨ text = "null" then .ok .nothing
    else .error (.value (.text text) "null")
  | _ => .ok (.text text)

/-- What a scalar denotes. -/
def meaning (text : String) (style : Style) : Option Tag → Except Mismatch Found
  | some tag => if tag.handle = "!!" then tagged tag.suffix text else .ok (.text text)
  | none => .ok (if style = .plain then untagged text else .text text)

end Scalar

end Interconnect.Yaml
