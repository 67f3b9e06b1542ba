/-! # UTF-8

    Octets as text. Decoding stops at the first octet that cannot belong to a
    character, and says how many octets are at fault, or that the octets end
    within a character.
-/

namespace Interconnect.Text.Utf8

/-- Where octets stop being text; the number of octets that are at fault is
    missing if more octets could make a character of them. -/
structure Malformed where
  index : Nat
  octets : Option Nat
  deriving DecidableEq, Repr, Inhabited

/-- The text of the error. -/
def Malformed.message (e : Malformed) : String :=
  match e.octets with
  | some n => s!"invalid utf-8 sequence of {n} bytes from index {e.index}"
  | none => s!"incomplete utf-8 byte sequence from index {e.index}"

/-- How many octets follow a leading octet, and the range of the first of
    them. -/
def tail? (octet : Nat) : Option (Nat × Nat × Nat) :=
  if 0xC2 ≤ octet ∧ octet ≤ 0xDF then some (1, 0x80, 0xBF)
  else if octet = 0xE0 then some (2, 0xA0, 0xBF)
  else if octet = 0xED then some (2, 0x80, 0x9F)
  else if 0xE1 ≤ octet ∧ octet ≤ 0xEF then some (2, 0x80, 0xBF)
  else if octet = 0xF0 then some (3, 0x90, 0xBF)
  else if 0xF1 ≤ octet ∧ octet ≤ 0xF3 then some (3, 0x80, 0xBF)
  else if octet = 0xF4 then some (3, 0x80, 0x8F)
  else none

/-- The payload of a leading octet that is followed by others. -/
def lead (octet following : Nat) : Nat :=
  match following with
  | 1 => octet % 0x20
  | 2 => octet % 0x10
  | _ => octet % 0x08

/-- A character that is being put together. -/
structure Pending where
  /-- Where it begins. -/
  index : Nat
  /-- How many of its octets were read. -/
  seen : Nat
  /-- How many are still to come; the next one lies in a range. -/
  missing : Nat
  least : Nat
  greatest : Nat
  code : Nat

/-- Decode octets from an index on, given the characters so far, backwards. -/
def decodeFrom (text : List Char) (pending : Option Pending) (index : Nat) :
    List UInt8 → Except Malformed (List Char)
  | [] =>
    match pending with
    | none => .ok text.reverse
    | some p => .error ⟨p.index, none⟩
  | octet :: rest =>
    let o := octet.toNat
    match pending with
    | none =>
      if o < 0x80 then decodeFrom (Char.ofNat o :: text) none (index + 1) rest
      else match tail? o with
        | none => .error ⟨index, some 1⟩
        | some (n, least, greatest) =>
          decodeFrom text (some ⟨index, 1, n, least, greatest, lead o n⟩) (index + 1) rest
    | some p =>
      if o < p.least ∨ p.greatest < o then .error ⟨p.index, some p.seen⟩
      else
        let code := p.code * 0x40 + o % 0x40
        if p.missing = 1 then decodeFrom (Char.ofNat code :: text) none (index + 1) rest
        else
          decodeFrom text (some ⟨p.index, p.seen + 1, p.missing - 1, 0x80, 0xBF, code⟩)
            (index + 1) rest

/-- The text of octets. -/
def decode (octets : ByteArray) : Except Malformed String := do
  return String.ofList (← decodeFrom [] none 0 octets.toList)

end Interconnect.Text.Utf8
