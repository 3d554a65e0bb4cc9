import CatalogSteward.Number.Binary64
import CatalogSteward.Proofs.Decimal
import Mathlib.Data.List.Basic
import Mathlib.Data.Rat.Cast.Order
import Mathlib.Tactic.NormNum
import Mathlib.Tactic.Ring

/-!
# Numerals with a point and an exponent

A numeral has digits before its point, digits after it, and a power of ten. It is read as the number
nearest to its value. The layout of digits around a point is such a numeral, and its value is that of the
digits moved to the point.
-/

namespace CatalogSteward.Binary64

open Decimal

/-! ### Digits -/

theorem spanDigits_append {ds rest : List Char} (hds : ∀ c ∈ ds, IsDigit c)
    (hrest : ∀ c ∈ rest.head?, Text.isDecimal c = false) : spanDigits (ds ++ rest) = (ds, rest) := by
  have hall : ∀ c ∈ ds, Text.isDecimal c = true := fun c hc => (hds c hc).isDecimal
  have hrestTake : rest.takeWhile Text.isDecimal = [] := by
    cases rest with
    | nil => rfl
    | cons c rest => simp [hrest c (by simp)]
  have hrestDrop : rest.dropWhile Text.isDecimal = rest := by
    cases rest with
    | nil => rfl
    | cons c rest => simp [hrest c (by simp)]
  rw [spanDigits, List.takeWhile_append_of_pos hall, List.dropWhile_append_of_pos hall, hrestTake,
    hrestDrop, List.append_nil]

theorem digitsValue_eq {ds : List Char} (h : ∀ c ∈ ds, IsDigit c) : digitsValue ds = valueFrom 0 ds := by
  unfold digitsValue valueFrom
  apply List.foldl_ext
  intro n c hc
  rw [Text.decimalValue?_ascii (h c hc).1 (h c hc).2]
  rfl

theorem digitsValue_natChars (n : Nat) : digitsValue (natChars n) = n := by
  rw [digitsValue_eq (isDigit_natChars n), valueFrom_natChars]

theorem digitsValue_concat_zero (ds : List Char) : digitsValue (ds ++ ['0']) = digitsValue ds * 10 := by
  rw [digitsValue, List.foldl_append]
  rfl

theorem digitsValue_append_zeros (ds : List Char) (k : Nat) :
    digitsValue (ds ++ List.replicate k '0') = digitsValue ds * 10 ^ k := by
  induction k with
  | zero => simp
  | succ k ih =>
      rw [List.replicate_succ', ← List.append_assoc, digitsValue_concat_zero, ih]
      ring

theorem digitsValue_zeros_append (k : Nat) (ds : List Char) :
    digitsValue (List.replicate k '0' ++ ds) = digitsValue ds := by
  induction k with
  | zero => rfl
  | succ k ih => exact ih

theorem isDigit_zeros (k : Nat) : ∀ c ∈ List.replicate k '0', IsDigit c := by
  intro c hc
  rw [List.eq_of_mem_replicate hc]
  decide

/-! ### Numerals -/

/-- The digits of an exponent, at least two. -/
def powerDigits (n : Nat) : List Char :=
  if (natChars n).length < 2 then '0' :: natChars n else natChars n

def powerChars : Option Int → List Char
  | none => []
  | some e => 'e' :: (if e < 0 then '-' else '+') :: powerDigits e.natAbs

/-- A numeral that is not one of an integer. A point is written if a digit follows it. -/
structure Numeral where
  whole : List Char
  fraction : List Char
  power : Option Int
  whole_digits : ∀ c ∈ whole, IsDigit c
  fraction_digits : ∀ c ∈ fraction, IsDigit c
  whole_ne : whole ≠ []
  leading : whole = ['0'] ∨ whole.head? ≠ some '0'
  marked : fraction ≠ [] ∨ power ≠ none

namespace Numeral

variable (n : Numeral)

/-- What follows the digits before the point. -/
def tail : List Char := (if n.fraction = [] then [] else '.' :: n.fraction) ++ powerChars n.power

def chars : List Char := n.whole ++ n.tail

def digits : Nat := digitsValue (n.whole ++ n.fraction)

def exponent : Int := n.power.getD 0 - n.fraction.length

def value : ℚ := n.digits * 10 ^ n.exponent

end Numeral

theorem head?_powerChars (power : Option Int) : ∀ c ∈ (powerChars power).head?, c = 'e' := by
  intro c hc
  cases power with
  | none => cases hc
  | some e => exact (Option.some.inj hc).symm

theorem isDigit_powerDigits (n : Nat) : ∀ c ∈ powerDigits n, IsDigit c := by
  have hdigits := isDigit_natChars n
  unfold powerDigits
  split
  · exact List.forall_mem_cons.mpr ⟨by decide, hdigits⟩
  · exact hdigits

theorem digitsValue_powerDigits (n : Nat) : digitsValue (powerDigits n) = n := by
  unfold powerDigits
  split
  · exact (digitsValue_zeros_append 1 _).trans (digitsValue_natChars n)
  · exact digitsValue_natChars n

theorem powerDigits_ne_nil (n : Nat) : powerDigits n ≠ [] := by
  obtain ⟨c, cs, hcs, -⟩ := natChars_head n
  unfold powerDigits
  split
  · exact List.cons_ne_nil _ _
  · exact hcs ▸ List.cons_ne_nil c cs

theorem exponent?_powerChars (power : Option Int) : exponent? (powerChars power) = some (power.getD 0) := by
  cases power with
  | none => rfl
  | some e =>
      have hspan : spanDigits (powerDigits e.natAbs) = (powerDigits e.natAbs, []) := by
        simpa using @spanDigits_append _ [] (isDigit_powerDigits e.natAbs) (by simp)
      have hempty : (powerDigits e.natAbs).isEmpty = false := by simpa using powerDigits_ne_nil e.natAbs
      by_cases hneg : e < 0
      · simp only [powerChars, exponent?, hneg, splitSign, hspan, hempty, digitsValue_powerDigits, true_or,
          if_true, List.isEmpty_nil, Bool.not_true, Bool.false_eq_true, or_self, if_false,
          Option.getD_some, Option.some.injEq]
        omega
      · simp only [powerChars, exponent?, hneg, splitSign, hspan, hempty, digitsValue_powerDigits, true_or,
          if_true, List.isEmpty_nil, Bool.not_true, Bool.false_eq_true, or_self, if_false,
          Option.getD_some, Option.some.injEq]
        omega

namespace Numeral

theorem head?_tail (n : Numeral) : ∀ c ∈ n.tail.head?, c = '.' ∨ c = 'e' := by
  intro c hc
  unfold tail at hc
  split at hc
  · exact .inr (head?_powerChars _ c hc)
  · exact .inl (Option.some.inj hc).symm

theorem not_isDecimal_of_mark {c : Char} (h : c = '.' ∨ c = 'e') : Text.isDecimal c = false := by
  rcases h with rfl | rfl <;> decide

/-- A text that starts with a digit is no word. -/
theorem lower_ne {ds cs : List Char} (hds : ∀ c ∈ ds, IsDigit c) (hne : ds ≠ []) {word : String}
    (hword : (word.toList.head?.any fun c => IsDigit c) = false) :
    String.ofList ((ds ++ cs).map Char.toLower) ≠ word := by
  rintro rfl
  cases ds with
  | nil => exact hne rfl
  | cons d ds =>
      have hd := hds d List.mem_cons_self
      simp [hd.toLower, hd] at hword

/-- A numeral is read as the number nearest to its value. -/
theorem magnitude?_chars (n : Numeral) (negative : Bool) :
    magnitude? negative n.chars = some (ofDecimal negative n.digits n.exponent) := by
  have hword {word : String} (h : (word.toList.head?.any fun c => IsDigit c) = false) :
      String.ofList (n.chars.map Char.toLower) ≠ word := lower_ne n.whole_digits n.whole_ne h
  have hwhole : spanDigits n.chars = (n.whole, n.tail) :=
    spanDigits_append n.whole_digits fun c hc => not_isDecimal_of_mark (n.head?_tail c hc)
  have hpower : ∀ c ∈ (powerChars n.power).head?, Text.isDecimal c = false :=
    fun c hc => not_isDecimal_of_mark (.inr (head?_powerChars n.power c hc))
  have hempty : n.whole.isEmpty = false := by simpa using n.whole_ne
  unfold magnitude?
  dsimp only
  rw [if_neg (not_or.mpr ⟨hword (by decide), hword (by decide)⟩), if_neg (hword (by decide)), hwhole]
  dsimp only
  by_cases hfraction : n.fraction = []
  · have hread := exponent?_powerChars n.power
    rw [tail, if_pos hfraction, List.nil_append]
    cases hpower : n.power with
    | none => simp [powerChars, exponent?, hempty, digits, exponent, hfraction, hpower]
    | some e =>
        rw [hpower] at hread
        simp only [powerChars] at hread ⊢
        simp [hread, hempty, digits, exponent, hfraction, hpower]
  · rw [tail, if_neg hfraction, List.cons_append]
    simp [spanDigits_append n.fraction_digits hpower, hempty, exponent?_powerChars, digits, exponent]

end Numeral

/-! ### Digits around a point -/

/-- A text is a numeral whose value is that of the digits moved to the point. -/
def Shows (ds : List Char) (point : Int) (cs : List Char) : Prop :=
  ∃ n : Numeral, cs = n.chars ∧ n.value = digitsValue ds * 10 ^ (point - ds.length)

section

variable {ds : List Char} (hds : ∀ c ∈ ds, IsDigit c) (hne : ds ≠ []) (hhead : ds.head? ≠ some '0')

include hds hne

theorem shows_below {point : Int} (h : point ≤ 0) :
    Shows ds point ('0' :: '.' :: (List.replicate (-point).toNat '0' ++ ds)) := by
  refine ⟨⟨['0'], List.replicate (-point).toNat '0' ++ ds, none, isDigit_zeros 1,
    List.forall_mem_append.mpr ⟨isDigit_zeros _, hds⟩, by decide, .inl rfl, .inl (by simp [hne])⟩, ?_, ?_⟩
  · simp [Numeral.chars, Numeral.tail, powerChars, hne]
  · have hvalue : digitsValue ('0' :: (List.replicate (-point).toNat '0' ++ ds)) = digitsValue ds :=
      digitsValue_zeros_append ((-point).toNat + 1) ds
    have hexponent : (0 : Int) - (List.replicate (-point).toNat '0' ++ ds).length = point - ds.length := by
      rw [List.length_append, List.length_replicate]
      omega
    change (digitsValue ('0' :: (List.replicate (-point).toNat '0' ++ ds)) : ℚ) *
      10 ^ ((0 : Int) - (List.replicate (-point).toNat '0' ++ ds).length) = _
    rw [hvalue, hexponent]

include hhead

theorem shows_within {point : Nat} (h : 0 < point) :
    Shows ds point (ds.take point ++ List.replicate (point - (ds.take point).length) '0' ++
      '.' :: (if (ds.drop point).isEmpty then ['0'] else ds.drop point)) := by
  have hheadTake : ∀ rest, (ds.take point ++ rest).head? ≠ some '0' := by
    obtain ⟨c, cs, rfl⟩ := List.exists_cons_of_ne_nil hne
    obtain ⟨k, rfl⟩ : ∃ k, point = k + 1 := ⟨point - 1, by omega⟩
    simpa using hhead
  rcases Nat.lt_or_ge point ds.length with hlen | hlen
  · -- The point stands between two of the digits.
    have htake : ds.take point ≠ [] := by simp [hne]; omega
    have hdrop : ds.drop point ≠ [] := by simpa using hlen
    refine ⟨⟨ds.take point, ds.drop point, none, fun c hc => hds c (List.mem_of_mem_take hc),
      fun c hc => hds c (List.mem_of_mem_drop hc), htake, .inr (by simpa using hheadTake []),
      .inl hdrop⟩, ?_, ?_⟩
    · have hmin : min point ds.length = point := by omega
      simp [Numeral.chars, Numeral.tail, powerChars, hdrop, hmin]
    · have hexponent : (0 : Int) - (ds.drop point).length = point - ds.length := by
        rw [List.length_drop]
        omega
      change (digitsValue (ds.take point ++ ds.drop point) : ℚ) * 10 ^ ((0 : Int) - (ds.drop point).length) = _
      rw [List.take_append_drop, hexponent]
  · -- Zeros fill the places up to the point.
    have htake : ds.take point = ds := List.take_of_length_le hlen
    have hdrop : ds.drop point = [] := List.drop_of_length_le hlen
    refine ⟨⟨ds ++ List.replicate (point - ds.length) '0', ['0'], none,
      List.forall_mem_append.mpr ⟨hds, isDigit_zeros _⟩, isDigit_zeros 1, by simp [hne],
      .inr (by simpa [htake] using hheadTake (List.replicate (point - ds.length) '0')), .inl (by simp)⟩, ?_, ?_⟩
    · simp [Numeral.chars, Numeral.tail, powerChars, htake, hdrop]
    · change (digitsValue (ds ++ List.replicate (point - ds.length) '0' ++ ['0']) : ℚ) *
        10 ^ ((0 : Int) - 1) = _
      rw [digitsValue_concat_zero, digitsValue_append_zeros,
        show (point - ds.length : Int) = ((point - ds.length : Nat) : Int) by omega, zpow_natCast]
      push_cast
      norm_num
      ring

theorem shows_beyond (point : Int) :
    Shows ds point (ds.take 1 ++ (if ds.length > 1 then '.' :: ds.drop 1 else [])
      ++ 'e' :: (if point - 1 < 0 then '-' else '+') :: powerDigits (point - 1).natAbs) := by
  obtain ⟨c, cs, rfl⟩ := List.exists_cons_of_ne_nil hne
  obtain ⟨hc, hcs⟩ := List.forall_mem_cons.mp hds
  refine ⟨⟨[c], cs, some (point - 1), by simpa using hc, hcs, by simp, .inr (by simpa using hhead),
    .inr (by simp)⟩, ?_, ?_⟩
  · cases cs <;> simp [Numeral.chars, Numeral.tail, powerChars]
  · have hexponent : point - 1 - cs.length = point - (cs.length + 1) := by omega
    simp [Numeral.value, Numeral.digits, Numeral.exponent, hexponent]

/-- Digits are laid out as a numeral that has their value. -/
theorem shows_layout (point : Int) : Shows ds point (layout ds point) := by
  unfold layout
  split
  · next hnear =>
      split
      · next hsmall => exact shows_below hds hne hsmall
      · next hlarge =>
          lift point to ℕ using by omega
          exact shows_within hds hne hhead (by omega)
  · exact shows_beyond hds hne hhead point

end

end CatalogSteward.Binary64
