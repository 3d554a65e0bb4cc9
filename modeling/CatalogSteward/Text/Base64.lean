/-!
# Base 64

Four letters stand for three bytes. Characters outside the alphabet do not count, and reading ends where
the padding of the last group is complete.
-/

namespace CatalogSteward.Text.Base64

def value? (c : Char) : Option Nat :=
  if c.isUpper then some (c.toNat - 0x41)
  else if c.isLower then some (c.toNat - 0x61 + 26)
  else if c.isDigit then some (c.toNat - 0x30 + 52)
  else if c = '+' then some 62
  else if c = '/' then some 63
  else none

/-- The letters read of a group, how many, the bits that have not made up a byte, and the padding since
the last letter. -/
structure Group where
  letters : Nat
  bits : Nat
  pads : Nat
  deriving DecidableEq, Repr

/-- Reads on within a group; a group must be complete at the end of the text. -/
def decodeFrom (g : Group) : List Char → Option (List UInt8)
  | [] => if g.letters = 0 then some [] else none
  | c :: cs =>
    if c = '=' then
      if g.letters < 2 then decodeFrom g cs
      else if 4 ≤ g.letters + g.pads + 1 then some []
      else decodeFrom { g with pads := g.pads + 1 } cs
    else
      match value? c with
      | none => decodeFrom g cs
      | some v =>
        match g.letters with
        | 0 => decodeFrom ⟨1, v, 0⟩ cs
        | 1 => (decodeFrom ⟨2, v % 16, 0⟩ cs).map (UInt8.ofNat (g.bits * 4 + v / 16) :: ·)
        | 2 => (decodeFrom ⟨3, v % 4, 0⟩ cs).map (UInt8.ofNat (g.bits * 16 + v / 4) :: ·)
        | _ => (decodeFrom ⟨0, 0, 0⟩ cs).map (UInt8.ofNat (g.bits * 64 + v) :: ·)

def decode? (cs : List Char) : Option (List UInt8) := decodeFrom ⟨0, 0, 0⟩ cs

end CatalogSteward.Text.Base64
