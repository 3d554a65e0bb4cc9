import CatalogSteward.Text.Blank

/-!
# UTF-8

Text as bytes. Decoding is strict: it refuses bytes that are no character, characters written with
more bytes than they need, and surrogates.
-/

namespace CatalogSteward.Text

def encodeUtf8 (s : String) : List UInt8 := s.toList.flatMap String.utf8EncodeChar

def continuation? (b : UInt8) : Option Nat :=
  if 0x80 ≤ b ∧ b ≤ 0xBF then some (b.toNat - 0x80) else none

def decodeUtf8 : List UInt8 → Option (List Char)
  | [] => some []
  | a :: rest =>
    if a < 0x80 then (decodeUtf8 rest).map (Char.ofNat a.toNat :: ·)
    else if a < 0xC2 then none
    else if a < 0xE0 then
      match rest with
      | b :: rest => do
        let n := (a.toNat - 0xC0) * 0x40 + (← continuation? b)
        (decodeUtf8 rest).map (Char.ofNat n :: ·)
      | _ => none
    else if a < 0xF0 then
      match rest with
      | b :: c :: rest => do
        let n := ((a.toNat - 0xE0) * 0x40 + (← continuation? b)) * 0x40 + (← continuation? c)
        if n < 0x800 ∨ (0xD800 ≤ n ∧ n ≤ 0xDFFF) then none
        else (decodeUtf8 rest).map (Char.ofNat n :: ·)
      | _ => none
    else if a < 0xF5 then
      match rest with
      | b :: c :: d :: rest => do
        let n := (((a.toNat - 0xF0) * 0x40 + (← continuation? b)) * 0x40 + (← continuation? c)) * 0x40
          + (← continuation? d)
        if n < 0x10000 ∨ 0x10FFFF < n then none
        else (decodeUtf8 rest).map (Char.ofNat n :: ·)
      | _ => none
    else none

/-- The text of a string of bytes, all line breaks read as line feeds. -/
def readText? (bs : List UInt8) : Option String :=
  (decodeUtf8 bs).map fun cs => String.ofList (unifyBreaks cs)

end CatalogSteward.Text
