import CatalogSteward.Text.Utf8
import Mathlib.Data.String.Basic
import Mathlib.Tactic.Common

/-!
# Text and bytes

What is encoded is decoded again, one character at a time, and a text without carriage returns is read as
it was written.
-/

namespace CatalogSteward.Text

theorem toNat_byte {n : Nat} (h : n < 256) : (UInt8.ofNat n).toNat = n := by
  rw [UInt8.toNat_ofNat', Nat.mod_eq_of_lt h]

theorem byte_lt {n m : Nat} (hn : n < 256) (hm : m < 256) : UInt8.ofNat n < UInt8.ofNat m ↔ n < m := by
  rw [UInt8.lt_iff_toNat_lt, toNat_byte hn, toNat_byte hm]

/-- The six bits of a byte that continues a character. -/
theorem continuation?_byte (n : Nat) : continuation? (UInt8.ofNat (n % 64 + 128)) = some (n % 64) := by
  have hbyte : (UInt8.ofNat (n % 64 + 128)).toNat = n % 64 + 128 := toNat_byte (by omega)
  have hlow : (0x80 : UInt8).toNat = 128 := rfl
  have hhigh : (0xBF : UInt8).toNat = 191 := rfl
  rw [continuation?, if_pos, hbyte, Nat.add_sub_cancel]
  rw [UInt8.le_iff_toNat_le, UInt8.le_iff_toNat_le, hbyte, hlow, hhigh]
  omega

/-- A character is a number outside of the surrogates. -/
theorem toNat_valid (c : Char) : c.toNat < 0xD800 ∨ 0xDFFF < c.toNat ∧ c.toNat < 0x110000 := c.valid

theorem decodeUtf8_encoded (c : Char) (bs : List UInt8) :
    decodeUtf8 (String.utf8EncodeChar c ++ bs) = (decodeUtf8 bs).map (c :: ·) := by
  have hvalid := toNat_valid c
  have hchar : Char.ofNat c.toNat = c := Char.ofNat_toNat c
  unfold String.utf8EncodeChar
  dsimp only
  rw [show c.val.toNat = c.toNat from rfl]
  generalize c.toNat = v at hvalid hchar ⊢
  have hbelow (n m : Nat) (hn : n < 256) (hm : m < 256) : (UInt8.ofNat n < OfNat.ofNat m) = (n < m) :=
    propext (byte_lt hn hm)
  split_ifs with hone htwo hthree
  · have hascii : UInt8.ofNat v < 0x80 := (byte_lt (by omega) (by decide)).mpr (Nat.lt_succ_of_le hone)
    rw [List.singleton_append, decodeUtf8.eq_def]
    dsimp only
    rw [if_pos hascii, toNat_byte (by omega), hchar]
  · rw [List.cons_append, List.singleton_append, decodeUtf8]
    have hlead : v / 64 % 32 + 192 < 256 := by omega
    simp only [hbelow _ 0x80 hlead (by omega), hbelow _ 0xC2 hlead (by omega), hbelow _ 0xE0 hlead (by omega),
      toNat_byte hlead, continuation?_byte, Option.bind_eq_bind, Option.bind_some]
    rw [if_neg (by omega), if_neg (by omega), if_pos (by omega),
      show (v / 64 % 32 + 192 - 0xC0) * 0x40 + v % 64 = v by omega, hchar]
  · rw [List.cons_append, List.cons_append, List.singleton_append, decodeUtf8]
    have hlead : v / 4096 % 16 + 224 < 256 := by omega
    simp only [hbelow _ 0x80 hlead (by omega), hbelow _ 0xC2 hlead (by omega), hbelow _ 0xE0 hlead (by omega),
      hbelow _ 0xF0 hlead (by omega), toNat_byte hlead, continuation?_byte, Option.bind_eq_bind,
      Option.bind_some]
    have hv : ((v / 4096 % 16 + 224 - 0xE0) * 0x40 + v / 64 % 64) * 0x40 + v % 64 = v := by omega
    rw [if_neg (by omega), if_neg (by omega), if_neg (by omega), if_pos (by omega), hv, if_neg (by omega),
      hchar]
  · rw [List.cons_append, List.cons_append, List.cons_append, List.singleton_append, decodeUtf8]
    have hlead : v / 262144 % 8 + 240 < 256 := by omega
    simp only [hbelow _ 0x80 hlead (by omega), hbelow _ 0xC2 hlead (by omega), hbelow _ 0xE0 hlead (by omega),
      hbelow _ 0xF0 hlead (by omega), hbelow _ 0xF5 hlead (by omega), toNat_byte hlead, continuation?_byte,
      Option.bind_eq_bind, Option.bind_some]
    have hv : (((v / 262144 % 8 + 240 - 0xF0) * 0x40 + v / 4096 % 64) * 0x40 + v / 64 % 64) * 0x40 + v % 64 =
        v := by
      omega
    rw [if_neg (by omega), if_neg (by omega), if_neg (by omega), if_neg (by omega), if_pos (by omega), hv,
      if_neg (by omega), hchar]

theorem decodeUtf8_encodeUtf8 (s : String) : decodeUtf8 (encodeUtf8 s) = some s.toList := by
  unfold encodeUtf8
  induction s.toList with
  | nil => rfl
  | cons c cs ih => rw [List.flatMap_cons, decodeUtf8_encoded, ih, Option.map_some]

theorem unifyBreaks_eq_self {cs : List Char} (h : '\r' ∉ cs) : unifyBreaks cs = cs := by
  induction cs with
  | nil => rfl
  | cons c cs ih =>
      obtain ⟨hc, hcs⟩ := not_or.mp (mt List.mem_cons.mpr h)
      rw [unifyBreaks, ih hcs]
      · exact fun _ hreturn _ => hc hreturn.symm
      · exact fun hreturn => hc hreturn.symm

theorem readText?_encodeUtf8 {s : String} (h : '\r' ∉ s.toList) : readText? (encodeUtf8 s) = some s := by
  rw [readText?, decodeUtf8_encodeUtf8, Option.map_some, unifyBreaks_eq_self h, String.ofList_toList]

/-- A text has at most as many characters as bytes. -/
theorem length_le_utf8ByteSize (s : String) : s.toList.length ≤ s.utf8ByteSize := by
  have hlen (cs : List Char) : cs.length ≤ String.utf8Len cs := by
    induction cs with
    | nil => exact Nat.zero_le _
    | cons c cs ih =>
        have hc := c.utf8Size_pos
        rw [String.utf8Len_cons, List.length_cons]
        omega
  have hbytes := String.utf8ByteSize_ofList s.toList
  rw [String.ofList_toList] at hbytes
  exact hbytes ▸ hlen s.toList

end CatalogSteward.Text
