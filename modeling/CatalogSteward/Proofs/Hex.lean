import CatalogSteward.Text.Hex
import Mathlib.Algebra.Group.Nat.Defs
import Mathlib.Data.List.Basic

/-!
# Hexadecimal numerals are read back

A number that fits into the width of a numeral is read back from it, whether the letters among its digits
are small or capital.
-/

namespace CatalogSteward.Text

theorem hexValue?_hexDigit {n : Nat} (h : n < 16) : hexValue? (hexDigit n) = some n := by
  revert n
  decide

theorem hexValue?_toUpper {n : Nat} (h : n < 16) :
    hexValue? (hexDigit n).toUpper = hexValue? (hexDigit n) := by
  revert n
  decide

theorem mem_hex {width n : Nat} {c : Char} (h : c ∈ hex width n) : ∃ k < 16, c = hexDigit k := by
  induction width generalizing n with
  | zero => cases h
  | succ width ih =>
      rw [hex, List.mem_append] at h
      rcases h with h | h
      · exact ih h
      · exact ⟨n % 16, Nat.mod_lt n (by decide), List.mem_singleton.mp h⟩

theorem isSome_hexValue?_hexUpper {width n : Nat} {c : Char} (h : c ∈ hexUpper width n) :
    (hexValue? c).isSome = true := by
  obtain ⟨d, hd, rfl⟩ := List.mem_map.mp h
  obtain ⟨k, hk, rfl⟩ := mem_hex hd
  rw [hexValue?_toUpper hk, hexValue?_hexDigit hk]
  rfl

theorem foldl_hex (width n m : Nat) :
    (hex width n).foldl (fun number c => do return (← number) * 16 + (← hexValue? c)) (some m) =
      some (m * 16 ^ width + n % 16 ^ width) := by
  induction width generalizing n with
  | zero => simp [hex, Nat.mod_one]
  | succ width ih =>
      have hdigit := hexValue?_hexDigit (Nat.mod_lt n (by decide : 16 > 0))
      rw [hex, List.foldl_append, ih]
      simp only [List.foldl_cons, List.foldl_nil, hdigit]
      have hsplit : n % 16 ^ (width + 1) = n % 16 + 16 * (n / 16 % 16 ^ width) := by
        rw [Nat.pow_succ', Nat.mod_mul]
      simp only [Option.bind_eq_bind, Option.bind_some, Option.pure_def, Option.some.injEq]
      rw [hsplit, Nat.pow_succ, ← Nat.mul_assoc]
      omega

/-- A number that fits into the width is read back from its digits. -/
theorem ofHex?_hex {width n : Nat} (h : n < 16 ^ width) : ofHex? (hex width n) = some n := by
  rw [ofHex?, foldl_hex, Nat.mod_eq_of_lt h, Nat.zero_mul, Nat.zero_add]

theorem ofHex?_hexUpper {width n : Nat} (h : n < 16 ^ width) : ofHex? (hexUpper width n) = some n := by
  rw [← ofHex?_hex h, ofHex?, ofHex?, hexUpper, List.foldl_map]
  apply List.foldl_ext
  intro number c hc
  obtain ⟨k, hk, rfl⟩ := mem_hex hc
  rw [hexValue?_toUpper hk]

end CatalogSteward.Text
