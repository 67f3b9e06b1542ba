import Interconnect.SynthesisError
import Std.Data.HashSet

/-! # Ring segments

    A cycle lists at least three distinct routers in the order in which it
    visits them, and closes from the last to the first. Its role says which
    ring of a network it is.

    Main statements: `Cycle.ofRouters` refuses a list exactly when it is too
    short or repeats a router (`firstRepeat?_eq_none_iff`).
-/

namespace Interconnect.Escape

/-- The half of a grid that a half-ring lies in. -/
inductive Side where
  | left
  | right
  deriving DecidableEq, Repr, Inhabited

def Side.name : Side → String
  | left => "Left"
  | right => "Right"

/-- Which ring of a network a cycle is. -/
inductive Role where
  | /-- The single cycle of a ring network. -/
    ring
  | /-- A half-ring over the rows `2 * rowPair` and `2 * rowPair + 1`. -/
    halfRing (rowPair : Nat) (side : Side)
  | /-- The spine of a hierarchical ring. -/
    central
  deriving DecidableEq, Repr, Inhabited

namespace Role

/-- The escape channel is deadlock free; half-rings are fast and are not. -/
def isEscapeChannel : Role → Bool
  | halfRing _ _ => false
  | ring | central => true

/-- The role as journal entries show it. -/
def describe : Role → String
  | ring => "Ring"
  | halfRing rowPair side => s!"HalfRing \x7b row_pair: {rowPair}, side: {side.name} \x7d"
  | central => "Central"

end Role

/-- The first entry that occurred before, given those already seen. -/
def firstRepeat? (seen : Std.HashSet Nat) : List Nat → Option Nat
  | [] => none
  | r :: rest => if r ∈ seen then some r else firstRepeat? (seen.insert r) rest

theorem firstRepeat?_eq_none_iff {seen : Std.HashSet Nat} {routers : List Nat} :
    firstRepeat? seen routers = none ↔ routers.Nodup ∧ ∀ r ∈ routers, r ∉ seen := by
  induction routers generalizing seen with
  | nil => simp [firstRepeat?]
  | cons r rest ih =>
    by_cases h : r ∈ seen
    · simp [firstRepeat?, h]
    · simp only [firstRepeat?, h, if_false, ih, List.nodup_cons, List.mem_cons,
        Std.HashSet.mem_insert, beq_iff_eq, not_or]
      constructor
      · rintro ⟨hn, hs⟩
        refine ⟨⟨fun hr => (hs r hr).1 rfl, hn⟩, ?_⟩
        rintro x (rfl | hx)
        · exact h
        · exact (hs x hx).2
      · rintro ⟨⟨hr, hn⟩, hs⟩
        exact ⟨hn, fun x hx => ⟨fun hxr => hr (hxr ▸ hx), hs x (.inr hx)⟩⟩

/-- A closed tour of at least three distinct routers. -/
structure Cycle where
  role : Role
  routers : List Nat
  three_le : 3 ≤ routers.length
  nodup : routers.Nodup
  deriving DecidableEq, Repr

namespace Cycle

/-- A cycle through the given routers, unless there are fewer than three or
    one of them is repeated. -/
def ofRouters (role : Role) (routers : List Nat) : Except SynthesisError Cycle :=
  if short : routers.length < 3 then .error (.ringTooSmall routers.length)
  else match repeated : firstRepeat? ∅ routers with
    | some r => .error (.duplicateRouter r)
    | none => .ok ⟨role, routers, Nat.le_of_not_lt short, (firstRepeat?_eq_none_iff.mp repeated).1⟩

/-- The number of routers, which is also the number of edges. -/
def size (c : Cycle) : Nat :=
  c.routers.length

/-- The position of a router along the cycle. -/
def ordinal? (c : Cycle) (router : Nat) : Option Nat :=
  c.routers.findIdx? (· == router)

/-- Consecutive pairs of routers; the last pair closes the cycle. -/
def edges (c : Cycle) : List (Nat × Nat) :=
  c.routers.zip (c.routers.drop 1 ++ c.routers.take 1)

end Cycle

end Interconnect.Escape
