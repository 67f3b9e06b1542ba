import Interconnect.Text.Binary64

/-! # Decimal texts

    Decimal numbers as texts: written out without an exponent, and read with
    or without one. A number is read as the binary64 number that is nearest to
    it, and shown with the fewest digits that mean the same one.
-/

namespace Interconnect.Text

/-- The digits of `digits * 10 ^ exponent` written out, without an exponent
    and without idle zeros after the point. -/
def positional (digits : Nat) (exponent : Int) : String :=
  if 0 ≤ exponent then toString (digits * Nat.pow 10 exponent.toNat)
  else
    let places : Nat := (-exponent).toNat
    let whole := digits / Nat.pow 10 places
    let part := toString (digits % Nat.pow 10 places)
    let padded := "".pushn '0' (places - part.length) ++ part
    let trimmed := (padded.toList.reverse.dropWhile (· == '0')).reverse
    if trimmed.isEmpty then toString whole
    else toString whole ++ "." ++ String.ofList trimmed

/-- A decimal number, `digits * 10 ^ exponent`, with a sign. -/
structure Decimal where
  negative : Bool
  digits : Nat
  exponent : Int
  deriving DecidableEq, Repr, Inhabited

namespace Decimal

/-- The number written out. -/
def text (d : Decimal) : String :=
  (if d.negative then "-" else "") ++ positional d.digits d.exponent

/-- The decimal number with the fewest digits that lies nearest to the same
    binary64 number. -/
def shortened (d : Decimal) : Decimal :=
  if d.digits = 0 then { d with exponent := 0 }
  else
    let (num, den) := Binary64.decimalFraction d.digits d.exponent
    match Binary64.nearest num den with
    | some b =>
      let (digits, exponent) := b.shortestDigits
      { d with digits, exponent }
    | none => d

end Decimal

/-- A number that a text may denote. -/
inductive Real where
  | finite (d : Decimal)
  | infinity (negative : Bool)
  | notANumber
  deriving DecidableEq, Repr, Inhabited

namespace Real

/-- The number as a message shows it: with a fraction, if it is finite. -/
def describe : Real → String
  | finite d => if d.text.toList.contains '.' then d.text else d.text ++ ".0"
  | infinity negative => if negative then "-inf" else "inf"
  | notANumber => "NaN"

/-- Split off a leading sign; the flag says that it is a minus sign. -/
def splitSign : List Char → Bool × List Char
  | '+' :: rest => (false, rest)
  | '-' :: rest => (true, rest)
  | text => (false, text)

/-- The number that decimal digits denote. -/
def ofDigits (digits : List Char) : Nat :=
  digits.foldl (fun n c => n * 10 + (c.toNat - '0'.toNat)) 0

/-- Read an exponent, or nothing. -/
def exponent? : List Char → Option Int
  | [] => some 0
  | c :: rest =>
    if c = 'e' ∨ c = 'E' then
      let (negative, digits) := splitSign rest
      if digits.isEmpty || !digits.all Char.isDigit then none
      else some (if negative then -(ofDigits digits : Int) else ofDigits digits)
    else none

/-- The number nearest to `digits * 10 ^ exponent`. The size is estimated
    first, so that no power is taken of an exponent that is out of range. -/
def ofDecimal (negative : Bool) (digits : Nat) (exponent : Int) : Real :=
  let size : Int := exponent + (Nat.toDigits 10 digits).length
  if digits = 0 ∨ size < -400 then .finite ⟨negative, 0, 0⟩
  else if 400 < size then .infinity negative
  else
    let (num, den) := Binary64.decimalFraction digits exponent
    match Binary64.nearest num den with
    | some _ => .finite (Decimal.shortened ⟨negative, digits, exponent⟩)
    | none => .infinity negative

/-- Read digits with an optional point among them and an optional exponent. -/
def unsigned? (negative : Bool) (text : List Char) : Option Real := do
  let whole := text.takeWhile Char.isDigit
  let rest := text.dropWhile Char.isDigit
  let behindPoint := if rest.head? = some '.' then rest.drop 1 else rest
  let part := if rest.head? = some '.' then behindPoint.takeWhile Char.isDigit else []
  let rest := behindPoint.drop part.length
  if whole.isEmpty && part.isEmpty then none
  else
    let e ← exponent? rest
    return ofDecimal negative (ofDigits (whole ++ part)) (e - part.length)

/-- Read a number: digits, or a word for what is not finite. -/
def ofText? (text : String) : Option Real :=
  let (negative, rest) := splitSign text.toList
  match (String.ofList rest).toLower with
  | "inf" | "infinity" => some (.infinity negative)
  | "nan" => some .notANumber
  | _ => unsigned? negative rest

end Real

end Interconnect.Text
