/-!
# Hexadecimal numerals of fixed width
-/

namespace CatalogSteward.Text

def hexDigit (n : Nat) : Char :=
  if n < 10 then Char.ofNat (0x30 + n) else Char.ofNat (0x57 + n)

/-- The last `width` hexadecimal digits of a number, in lower case. -/
def hex (width : Nat) (n : Nat) : List Char :=
  match width with
  | 0 => []
  | width + 1 => hex width (n / 16) ++ [hexDigit (n % 16)]

def hexUpper (width : Nat) (n : Nat) : List Char := (hex width n).map Char.toUpper

def hexValue? (c : Char) : Option Nat :=
  let n := c.toNat
  if 0x30 ≤ n ∧ n ≤ 0x39 then some (n - 0x30)
  else if 0x61 ≤ n ∧ n ≤ 0x66 then some (n - 0x57)
  else if 0x41 ≤ n ∧ n ≤ 0x46 then some (n - 0x37)
  else none

/-- The number written by hexadecimal digits, none of which may be missing. -/
def ofHex? (cs : List Char) : Option Nat :=
  cs.foldl (fun number c => do return (← number) * 16 + (← hexValue? c)) (some 0)

@[simp] theorem length_hex (width n : Nat) : (hex width n).length = width := by
  induction width generalizing n with
  | zero => rfl
  | succ width ih => simp [hex, ih]

end CatalogSteward.Text
