/-! # Binary floating-point numbers and their texts

    Numbers of the form `significand * 2 ^ exponent` with a significand of at
    most 53 bits, as IEEE binary64 has them. `nearest` rounds a fraction to
    such a number, ties to even; `shortestDigits` finds the fewest decimal
    digits that round back to it.
-/

namespace Interconnect.Text

/-- The quotient rounded to the nearest integer, ties to even. -/
def roundDiv (num den : Nat) : Nat :=
  let q := num / den
  let twice := 2 * (num % den)
  if den < twice ∨ (twice = den ∧ q % 2 = 1) then q + 1 else q

/-- A positive binary number, `significand * 2 ^ exponent`. -/
structure Binary64 where
  significand : Nat
  exponent : Int
  deriving DecidableEq, Repr, Inhabited

namespace Binary64

/-- The least exponent of a binary64 number. -/
def minExponent : Int := -1074

/-- The greatest exponent of a binary64 number. -/
def maxExponent : Int := 971

/-- `num / den * 2 ^ (-e)` rounded to an integer. -/
def scaled (num den : Nat) (e : Int) : Nat :=
  if 0 ≤ e then roundDiv num (den * Nat.pow 2 e.toNat)
  else roundDiv (num * Nat.pow 2 (-e).toNat) den

/-- The binary64 number nearest to a fraction; none if it is too large. -/
def nearest (num den : Nat) : Option Binary64 :=
  -- an exponent that leaves 53 or 54 bits before the point
  let guess : Int := (num.log2 : Int) - (den.log2 : Int) - 53
  let e := if Nat.pow 2 53 ≤ scaled num den guess then guess + 1 else guess
  let e := max e minExponent
  let s := scaled num den e
  let (s, e) := if s = Nat.pow 2 53 then (Nat.pow 2 52, e + 1) else (s, e)
  if maxExponent < e then none else some ⟨s, e⟩

/-- The value as a fraction. -/
def fraction (b : Binary64) : Nat × Nat :=
  if 0 ≤ b.exponent then (b.significand * Nat.pow 2 b.exponent.toNat, 1)
  else (b.significand, Nat.pow 2 (-b.exponent).toNat)

/-- The number of decimal digits before the point. -/
def integerDigits (num den : Nat) : Nat :=
  if num < den then 0 else (Nat.toDigits 10 (num / den)).length

/-- The number of zeros that follow the point, looking no further than
    `limit` places. -/
def leadingZeros : Nat → Nat → Nat → Nat
  | 0, _, _ => 0
  | limit + 1, num, den => if den ≤ num * 10 then 0 else 1 + leadingZeros limit (num * 10) den

/-- The place of the first digit: the value is in `[10 ^ (p - 1), 10 ^ p)`. -/
def firstPlace (num den : Nat) : Int :=
  if den ≤ num then integerDigits num den else -(leadingZeros 400 num den : Int)

/-- The fraction `digits * 10 ^ exponent`. -/
def decimalFraction (digits : Nat) (exponent : Int) : Nat × Nat :=
  if 0 ≤ exponent then (digits * Nat.pow 10 exponent.toNat, 1)
  else (digits, Nat.pow 10 (-exponent).toNat)

/-- Whether `digits * 10 ^ exponent` means the number. -/
def isMeantBy (b : Binary64) (digits : Nat) (exponent : Int) : Bool :=
  let (num, den) := decimalFraction digits exponent
  nearest num den == some b

/-- The digits of the decimal with a given last place that means the number, if
    there is one. Of the two decimals around the number the nearer one is
    taken, and the greater one if they are equally near. -/
def digitsAt? (b : Binary64) (exponent : Int) : Option Nat :=
  let (num, den) := b.fraction
  let (unit, unitDen) := decimalFraction 1 exponent
  let below := num * unitDen / (den * unit)
  let twice := 2 * (num * unitDen % (den * unit))
  match b.isMeantBy below exponent, b.isMeantBy (below + 1) exponent with
  | true, true => some (if twice < den * unit then below else below + 1)
  | true, false => some below
  | false, true => some (below + 1)
  | false, false => none

/-- The fewest digits that mean the number, as `digits * 10 ^ exponent`. Seventeen
    always do. -/
def shortestDigits (b : Binary64) : Nat × Int :=
  let (num, den) := b.fraction
  let place := firstPlace num den
  let shortest := (List.range 17).findSome? fun k =>
    let exponent : Int := place - (k + 1 : Nat)
    (b.digitsAt? exponent).map fun digits => (digits, exponent)
  shortest.getD (num / den, 0)

end Binary64

/-- A count of hundredths, with two places. -/
def hundredths (n : Nat) : String :=
  let part := toString (n % 100)
  toString (n / 100) ++ "." ++ "".pushn '0' (2 - part.length) ++ part

/-- The natural number nearest to `n` that has at most 53 significant bits,
    ties to even. -/
def round53 (n : Nat) : Nat :=
  let excess := n.log2 + 1 - 53
  roundDiv n (Nat.pow 2 excess) * Nat.pow 2 excess

theorem round53_eq_self {n : Nat} (h : n < Nat.pow 2 53) : round53 n = n := by
  have : n.log2 + 1 - 53 = 0 := by
    by_cases hn : n = 0
    · simp [hn]
    · have := (Nat.log2_lt hn).mpr h
      omega
  simp [round53, this, roundDiv]
  omega

/-- A non-negative number with two places, from its binary64 bits. -/
def twoPlaces (x : Float) : String :=
  let bits := x.toBits.toNat
  let biased : Nat := bits / Nat.pow 2 52 % 2048
  let low : Nat := bits % Nat.pow 2 52
  let (s, e) : Nat × Int :=
    if biased = 0 then (low, Binary64.minExponent) else (low + Nat.pow 2 52, (biased : Int) - 1075)
  hundredths <|
    if 0 ≤ e then s * Nat.pow 2 e.toNat * 100
    else roundDiv (s * 100) (Nat.pow 2 (-e).toNat)

end Interconnect.Text
