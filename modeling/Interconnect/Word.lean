/-! # Machine words

    Sizes, ranks and ids are natural numbers below `2 ^ 64`. The operations
    here compute on `Nat` and report a `Fault` where a 64-bit machine word
    cannot hold the result, so that a computation free of faults is one whose
    plain `Nat` reading is also its machine reading.

    The length of a list is bounded, too, by what its entries take: a list that no
    block of memory could hold is a fault before it is built, and so is a part of a
    list that starts beyond its end. The nodes and edges of a graph have indices, and
    one that no index is left for is a fault as well.
-/

namespace Interconnect

/-- A step of arithmetic, of listing or of wiring that has no result. -/
inductive Fault where
  | addOverflow
  | subOverflow
  | mulOverflow
  | divByZero
  | remByZero
  | capacityOverflow
  | nodeOverflow
  | edgeOverflow
  | sliceOutOfRange (start length : Nat)
  | selfLink (router : Nat)
  deriving DecidableEq, Repr, Inhabited

/-- What is reported when the fault stops a run. -/
def Fault.message : Fault → String
  | .addOverflow => "attempt to add with overflow"
  | .subOverflow => "attempt to subtract with overflow"
  | .mulOverflow => "attempt to multiply with overflow"
  | .divByZero => "attempt to divide by zero"
  | .remByZero => "attempt to calculate the remainder with a divisor of zero"
  | .capacityOverflow => "capacity overflow"
  | .nodeOverflow =>
    "assertion failed: <Ix as IndexType>::max().index() == !0 || NodeIndex::end() != node_idx"
  | .edgeOverflow =>
    "assertion failed: <Ix as IndexType>::max().index() == !0 || EdgeIndex::end() != edge_idx"
  | .sliceOutOfRange start length =>
    s!"range start index {start} out of range for slice of length {length}"
  | .selfLink router => s!"router {router} cannot link to itself"

/-- A value, or the fault that kept it from being computed. -/
abbrev Checked := Except Fault

namespace Word

/-- The first number that no longer fits a word. -/
def bound : Nat := 18446744073709551616

/-- The sum of two words, if it is one. -/
def add (a b : Nat) : Checked Nat :=
  if a + b < bound then .ok (a + b) else .error .addOverflow

/-- The difference of two words, if it is one. -/
def sub (a b : Nat) : Checked Nat :=
  if b ≤ a then .ok (a - b) else .error .subOverflow

/-- The product of two words, if it is one. -/
def mul (a b : Nat) : Checked Nat :=
  if a * b < bound then .ok (a * b) else .error .mulOverflow

/-- The quotient, unless the divisor is zero. -/
def div (a b : Nat) : Checked Nat :=
  if b = 0 then .error .divByZero else .ok (a / b)

/-- The remainder, unless the divisor is zero. -/
def rem (a b : Nat) : Checked Nat :=
  if b = 0 then .error .remByZero else .ok (a % b)

/-- The first number of bytes that no block of memory has. -/
def block : Nat := 9223372036854775808

/-- A length, if a list of entries of that many bytes each can have it. -/
def length (bytes n : Nat) : Checked Nat :=
  if n * bytes < block then .ok n else .error .capacityOverflow

/-- The entries of a list from a position on, if the list has that position. -/
def drop {α : Type} (entries : List α) (start : Nat) : Checked (List α) :=
  if start ≤ entries.length then .ok (entries.drop start)
  else .error (.sliceOutOfRange start entries.length)

theorem add_eq_ok {a b : Nat} (h : a + b < bound) : add a b = .ok (a + b) := if_pos h

theorem sub_eq_ok {a b : Nat} (h : b ≤ a) : sub a b = .ok (a - b) := if_pos h

theorem mul_eq_ok {a b : Nat} (h : a * b < bound) : mul a b = .ok (a * b) := if_pos h

theorem div_eq_ok {a b : Nat} (h : b ≠ 0) : div a b = .ok (a / b) := if_neg h

theorem rem_eq_ok {a b : Nat} (h : b ≠ 0) : rem a b = .ok (a % b) := if_neg h

theorem length_eq_ok {bytes n : Nat} (h : n * bytes < block) : length bytes n = .ok n := if_pos h

theorem drop_eq_ok {α : Type} {entries : List α} {start : Nat} (h : start ≤ entries.length) :
    drop entries start = .ok (entries.drop start) := if_pos h

end Word

end Interconnect
