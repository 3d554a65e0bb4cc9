import CatalogSteward.Number.Binary64
import Mathlib.Algebra.Order.Field.Power
import Mathlib.Data.Rat.Cast.Order
import Mathlib.Tactic.FieldSimp
import Mathlib.Tactic.Linarith
import Mathlib.Tactic.NormNum
import Mathlib.Tactic.Positivity
import Mathlib.Tactic.Ring

/-!
# Rounding to the nearest number

Quotients that lie in the rounding interval of a number are rounded to this number. Everything is said
of the quotients as rational numbers, so it does not matter by which pair of natural numbers a quotient is
given.
-/

namespace CatalogSteward.Binary64

/-- Among the pairs that denote a number, the one with the greatest significand. -/
structure IsCanonical (m : Nat) (e : Int) : Prop where
  significand : m < 2 ^ 53
  least : minExponent ≤ e
  greatest : e ≤ maxExponent
  normal : minExponent < e → 2 ^ 52 ≤ m

theorem powerOfTwo_eq (n : Nat) : powerOfTwo n = 2 ^ n := rfl

/-! ### Quotients -/

theorem ratio_pos (m : Nat) (e : Int) : 0 < (ratio m e).2 := by
  unfold ratio
  split
  · exact Nat.one_pos
  · exact Nat.two_pow_pos _

theorem ratio_eq (m : Nat) (e : Int) : ((ratio m e).1 : ℚ) / (ratio m e).2 = m * 2 ^ e := by
  unfold ratio
  split
  · next h =>
      lift e to ℕ using h
      simp [powerOfTwo_eq]
  · next h =>
      obtain ⟨n, rfl⟩ : ∃ n : ℕ, e = -n := ⟨(-e).toNat, by omega⟩
      simp [powerOfTwo_eq, div_eq_mul_inv]

theorem scaled_pos {num den : Nat} (h : 0 < den) (e : Int) : 0 < (scaled num den e).2 := by
  unfold scaled
  split
  · exact Nat.mul_pos h (Nat.two_pow_pos _)
  · exact h

theorem scaled_eq (num den : Nat) (e : Int) :
    ((scaled num den e).1 : ℚ) / (scaled num den e).2 = num / den / 2 ^ e := by
  unfold scaled
  split
  · next h =>
      lift e to ℕ using h
      simp [powerOfTwo_eq, div_div]
  · next h =>
      obtain ⟨n, rfl⟩ : ∃ n : ℕ, e = -n := ⟨(-e).toNat, by omega⟩
      simp [powerOfTwo_eq, div_eq_mul_inv, mul_right_comm]

/-- A quotient that is not further from a natural number than one half, and not that far from an odd one,
is rounded to it. -/
theorem roundedQuotient_eq {a b n : Nat} (hb : 0 < b) (hlow : 2 * n * b ≤ 2 * a + b)
    (hhigh : 2 * a ≤ 2 * n * b + b)
    (hodd : n % 2 = 1 → 2 * n * b < 2 * a + b ∧ 2 * a < 2 * n * b + b) : roundedQuotient a b = n := by
  have hdiv : b * (a / b) + a % b = a := Nat.div_add_mod a b
  have hmod : a % b < b := Nat.mod_lt a hb
  unfold roundedQuotient
  dsimp only
  generalize a / b = q at *
  generalize a % b = r at *
  subst hdiv
  have hlower : q ≤ n := by
    by_contra hlt
    have hmul : (n + 1) * b ≤ q * b := Nat.mul_le_mul_right b (by omega)
    rw [Nat.add_mul, Nat.one_mul] at hmul
    have hcomm : b * q = q * b := Nat.mul_comm b q
    have hassoc : 2 * n * b = 2 * (n * b) := Nat.mul_assoc 2 n b
    omega
  have hupper : n ≤ q + 1 := by
    by_contra hlt
    have hmul : (q + 2) * b ≤ n * b := Nat.mul_le_mul_right b (by omega)
    rw [Nat.add_mul] at hmul
    have hcomm : b * q = q * b := Nat.mul_comm b q
    have hassoc : 2 * n * b = 2 * (n * b) := Nat.mul_assoc 2 n b
    omega
  have hcomm : b * q = q * b := Nat.mul_comm b q
  obtain rfl | rfl : n = q ∨ n = q + 1 := by omega
  · have hassoc : 2 * n * b = 2 * (n * b) := Nat.mul_assoc 2 n b
    rw [if_pos]
    rcases Nat.lt_or_ge (2 * r) b with h | h
    · exact .inl h
    · refine .inr ⟨by omega, ?_⟩
      by_contra hparity
      have := hodd (by omega)
      omega
  · have hassoc : 2 * (q + 1) * b = 2 * (q * b) + 2 * b := by ring
    rw [if_neg]
    rintro (h | ⟨h, hparity⟩)
    · omega
    · have := hodd (by omega)
      omega

/-- The same for the quotient as a rational number. -/
theorem roundedQuotient_of_near {a b n : Nat} (hb : 0 < b) (hlow : (n : ℚ) - 1 / 2 ≤ a / b)
    (hhigh : (a : ℚ) / b ≤ n + 1 / 2)
    (hodd : n % 2 = 1 → (n : ℚ) - 1 / 2 < a / b ∧ (a : ℚ) / b < n + 1 / 2) :
    roundedQuotient a b = n := by
  have hbq : (0 : ℚ) < b := by exact_mod_cast hb
  apply roundedQuotient_eq hb
  · rw [le_div_iff₀ hbq] at hlow
    have hcast : (2 * n * b : ℚ) ≤ 2 * a + b := by linarith
    exact_mod_cast hcast
  · rw [div_le_iff₀ hbq] at hhigh
    have hcast : (2 * a : ℚ) ≤ 2 * n * b + b := by linarith
    exact_mod_cast hcast
  · intro hparity
    obtain ⟨hlow, hhigh⟩ := hodd hparity
    rw [lt_div_iff₀ hbq] at hlow
    rw [div_lt_iff₀ hbq] at hhigh
    constructor
    · have hcast : (2 * n * b : ℚ) < 2 * a + b := by linarith
      exact_mod_cast hcast
    · have hcast : (2 * a : ℚ) < 2 * n * b + b := by linarith
      exact_mod_cast hcast

/-! ### The interval of a number -/

/-- The lower end of the quotients that round to `m · 2 ^ e`. Below the least significand the numbers are
twice as dense. -/
def lowEnd (m : Nat) (e : Int) : ℚ :=
  if m = 2 ^ 52 ∧ minExponent < e then (m - 1 / 4) * 2 ^ e else (m - 1 / 2) * 2 ^ e

def highEnd (m : Nat) (e : Int) : ℚ := (m + 1 / 2) * 2 ^ e

/-- A quotient that rounds to `m · 2 ^ e`. The ends of the interval belong to it if `m` is even. -/
structure IsNear (m : Nat) (e : Int) (x : ℚ) : Prop where
  low : lowEnd m e ≤ x
  high : x ≤ highEnd m e
  odd : m % 2 = 1 → lowEnd m e < x ∧ x < highEnd m e

theorem two_zpow_pos (e : Int) : (0 : ℚ) < 2 ^ e := zpow_pos (by norm_num) e

/-- The lower end as a quotient of natural numbers. -/
theorem ratio_low {m : Nat} (hm : 0 < m) (e : Int) :
    let low := if m = powerOfTwo 52 ∧ e > minExponent then ratio (4 * m - 1) (e - 2)
      else ratio (2 * m - 1) (e - 1)
    (low.1 : ℚ) / low.2 = lowEnd m e ∧ 0 < low.2 := by
  have hpow : (2 : ℚ) ^ (e - 2) = 2 ^ e / 4 := by rw [zpow_sub₀ (by norm_num)]; norm_num
  have hhalf : (2 : ℚ) ^ (e - 1) = 2 ^ e / 2 := by rw [zpow_sub_one₀ (by norm_num)]; ring
  unfold lowEnd
  simp only [powerOfTwo_eq, gt_iff_lt]
  split
  · refine ⟨?_, ratio_pos _ _⟩
    rw [ratio_eq, hpow, Nat.cast_sub (by omega)]
    push_cast
    ring
  · refine ⟨?_, ratio_pos _ _⟩
    rw [ratio_eq, hhalf, Nat.cast_sub (by omega)]
    push_cast
    ring

theorem ratio_high (m : Nat) (e : Int) :
    ((ratio (2 * m + 1) (e - 1)).1 : ℚ) / (ratio (2 * m + 1) (e - 1)).2 = highEnd m e := by
  have hhalf : (2 : ℚ) ^ (e - 1) = 2 ^ e / 2 := by rw [zpow_sub_one₀ (by norm_num)]; ring
  rw [ratio_eq, highEnd, hhalf]
  push_cast
  ring

theorem roundsTo_iff {m num den : Nat} (hm : 0 < m) (e : Int) (hden : 0 < den) :
    roundsTo m e num den = true ↔ IsNear m e (num / den) := by
  obtain ⟨hlow, hlowPos⟩ := ratio_low hm e
  have hhigh := ratio_high m e
  have hhighPos := ratio_pos (2 * m + 1) (e - 1)
  have hle (a b c d : Nat) (hb : 0 < b) (hd : 0 < d) : ((a : ℚ) / b ≤ c / d) ↔ a * d ≤ c * b := by
    rw [div_le_div_iff₀ (by exact_mod_cast hb) (by exact_mod_cast hd)]
    exact_mod_cast Iff.rfl
  have hlt (a b c d : Nat) (hb : 0 < b) (hd : 0 < d) : ((a : ℚ) / b < c / d) ↔ a * d < c * b := by
    rw [div_lt_div_iff₀ (by exact_mod_cast hb) (by exact_mod_cast hd)]
    exact_mod_cast Iff.rfl
  unfold roundsTo
  dsimp only at hlow hlowPos ⊢
  generalize (if m = powerOfTwo 52 ∧ e > minExponent then ratio (4 * m - 1) (e - 2)
    else ratio (2 * m - 1) (e - 1)) = low at *
  generalize ratio (2 * m + 1) (e - 1) = high at *
  obtain ⟨lowNum, lowDen⟩ := low
  obtain ⟨highNum, highDen⟩ := high
  dsimp only at *
  have hparts : IsNear m e (num / den) ↔ (lowNum * den ≤ num * lowDen ∧ num * highDen ≤ highNum * den) ∧
      (m % 2 = 1 → lowNum * den < num * lowDen ∧ num * highDen < highNum * den) := by
    rw [← hle _ _ _ _ hlowPos hden, ← hle _ _ _ _ hden hhighPos, ← hlt _ _ _ _ hlowPos hden,
      ← hlt _ _ _ _ hden hhighPos, hlow, hhigh]
    exact ⟨fun h => ⟨⟨h.low, h.high⟩, h.odd⟩, fun h => ⟨h.1.1, h.1.2, h.2⟩⟩
  rw [hparts]
  split
  · next heven => simp [heven]
  · next hparity =>
      have hodd : m % 2 = 1 := by omega
      simp only [hodd, Bool.and_eq_true, decide_eq_true_eq, forall_const]
      constructor
      · rintro ⟨h, k⟩
        exact ⟨⟨h.le, k.le⟩, h, k⟩
      · exact fun h => h.2

/-! ### Rounding -/

theorem log2_bounds {n : Nat} (h : n ≠ 0) : (2 : ℚ) ^ (n.log2 : Int) ≤ n ∧ (n : ℚ) < 2 ^ (n.log2 + 1 : Int) := by
  constructor
  · rw [zpow_natCast]
    exact_mod_cast Nat.log2_self_le h
  · have hlt : n < 2 ^ (n.log2 + 1) := Nat.lt_log2_self
    have hcast : ((n.log2 : Int) + 1) = ((n.log2 + 1 : Nat) : Int) := by push_cast; ring
    rw [hcast, zpow_natCast]
    exact_mod_cast hlt

theorem lt_of_two_zpow_lt {a b : Int} (h : (2 : ℚ) ^ a < 2 ^ b) : a < b :=
  (zpow_lt_zpow_iff_right₀ (by norm_num)).mp h

/-- The exponent with which a quotient is rounded. -/
theorem guess_bounds {num den : Nat} (hnum : num ≠ 0) (hden : den ≠ 0) :
    let guess : Int := num.log2 - den.log2 - 52
    (2 : ℚ) ^ (guess + 51) < num / den ∧ (num / den : ℚ) < 2 ^ (guess + 53) := by
  intro guess
  obtain ⟨hnumLow, hnumHigh⟩ := log2_bounds hnum
  obtain ⟨hdenLow, hdenHigh⟩ := log2_bounds hden
  have hdenPos : (0 : ℚ) < den := by exact_mod_cast Nat.pos_of_ne_zero hden
  constructor
  · rw [lt_div_iff₀ hdenPos]
    calc (2 : ℚ) ^ (guess + 51) * den
        < 2 ^ (guess + 51) * 2 ^ (den.log2 + 1 : Int) := by
          exact mul_lt_mul_of_pos_left hdenHigh (two_zpow_pos _)
      _ = 2 ^ (num.log2 : Int) := by
          rw [← zpow_add₀ (by norm_num)]
          congr 1
          omega
      _ ≤ num := hnumLow
  · rw [div_lt_iff₀ hdenPos]
    calc (num : ℚ) < 2 ^ (num.log2 + 1 : Int) := hnumHigh
      _ = 2 ^ (guess + 53) * 2 ^ (den.log2 : Int) := by
          rw [← zpow_add₀ (by norm_num)]
          congr 1
          omega
      _ ≤ 2 ^ (guess + 53) * den := by
          exact mul_le_mul_of_nonneg_left hdenLow (two_zpow_pos _).le

theorem natDiv_lt_iff {a b n : Nat} (hb : 0 < b) : a / b < n ↔ (a : ℚ) / b < n := by
  rw [Nat.div_lt_iff_lt_mul hb, div_lt_iff₀ (by exact_mod_cast hb)]
  exact_mod_cast Iff.rfl

/-- The exponent of the power of two that leads the quotient, less 52. -/
theorem leading_bounds {num den a b : Nat} {guess : Int} (hnum : num ≠ 0) (hden : den ≠ 0)
    (hguess : guess = num.log2 - den.log2 - 52) (hscaled : scaled num den guess = (a, b)) :
    let leading := if a / b < powerOfTwo 52 then guess - 1 else guess
    (2 : ℚ) ^ (leading + 52) ≤ num / den ∧ (num / den : ℚ) < 2 ^ (leading + 53) := by
  have hb : 0 < b := by simpa [hscaled] using @scaled_pos num den (Nat.pos_of_ne_zero hden) guess
  have hquotient : (a : ℚ) / b = num / den / 2 ^ guess := by simpa [hscaled] using scaled_eq num den guess
  obtain ⟨hlow, hhigh⟩ := guess_bounds hnum hden
  rw [← hguess] at hlow hhigh
  have hsplit : a / b < powerOfTwo 52 ↔ (num / den : ℚ) < 2 ^ (guess + 52) := by
    rw [powerOfTwo_eq, natDiv_lt_iff hb, hquotient, div_lt_iff₀ (two_zpow_pos guess),
      zpow_add₀ (by norm_num), mul_comm]
    norm_num
  intro leading
  by_cases h : a / b < powerOfTwo 52
  · rw [show leading = guess - 1 from if_pos h, show guess - 1 + 52 = guess + 51 by ring,
      show guess - 1 + 53 = guess + 52 by ring]
    exact ⟨hlow.le, hsplit.mp h⟩
  · rw [show leading = guess from if_neg h]
    exact ⟨not_lt.mp (mt hsplit.mpr h), hhigh⟩

theorem le_lowEnd (m : Nat) (e : Int) : ((m : ℚ) - 1 / 2) * 2 ^ e ≤ lowEnd m e := by
  have hpos := two_zpow_pos e
  unfold lowEnd
  split
  · nlinarith
  · exact le_rfl

theorem IsCanonical.high_lt {m : Nat} {e : Int} (hc : IsCanonical m e) : highEnd m e < 2 ^ (e + 53) := by
  have hm : (m : ℚ) + 1 ≤ 2 ^ 53 := by exact_mod_cast hc.significand
  rw [highEnd, zpow_add₀ (by norm_num), mul_comm]
  apply mul_lt_mul_of_pos_left _ (two_zpow_pos e)
  norm_num at hm ⊢
  linarith

/-- A quotient near a number has the exponent of the number; only below a power of two it has the one
before. -/
theorem IsNear.leading {m : Nat} {e leading : Int} {x : ℚ} (hc : IsCanonical m e) (h : IsNear m e x)
    (hlow : (2 : ℚ) ^ (leading + 52) ≤ x) (hhigh : x < 2 ^ (leading + 53)) :
    max leading minExponent = e ∨
      max leading minExponent = e - 1 ∧ m = 2 ^ 52 ∧ minExponent < e ∧ x < 2 ^ (e + 52) := by
  have hle : leading + 52 < e + 53 := lt_of_two_zpow_lt (hlow.trans_lt (h.high.trans_lt hc.high_lt))
  rcases hc.least.eq_or_lt with hleast | hleast
  · exact .inl (by omega)
  have hm := hc.normal hleast
  have hpow : (2 : ℚ) ^ (e + 52) = 2 ^ 52 * 2 ^ e := by
    rw [zpow_add₀ (by norm_num), mul_comm]
    norm_num
  have hpos := two_zpow_pos e
  rcases hm.eq_or_lt with heq | hlt
  · have hhalf : (2 : ℚ) ^ (e + 51) < x := by
      have hlowEnd : lowEnd m e = ((m : ℚ) - 1 / 4) * 2 ^ e := if_pos ⟨heq.symm, hleast⟩
      have hpow : (2 : ℚ) ^ (e + 51) = 2 ^ 51 * 2 ^ e := by
        rw [zpow_add₀ (by norm_num), mul_comm]
        norm_num
      refine lt_of_lt_of_le ?_ h.low
      rw [hlowEnd, hpow, ← heq]
      apply mul_lt_mul_of_pos_right _ hpos
      norm_num
    have hge := lt_of_two_zpow_lt (hhalf.trans hhigh)
    by_cases hlead : leading = e
    · exact .inl (by omega)
    · refine .inr ⟨by omega, heq.symm, hleast, ?_⟩
      rwa [show e + 52 = leading + 53 by omega]
  · have hwhole : (2 : ℚ) ^ (e + 52) < x := by
      have hlowEnd : lowEnd m e = ((m : ℚ) - 1 / 2) * 2 ^ e := if_neg fun h => by omega
      have hcast : (2 : ℚ) ^ 52 + 1 ≤ m := by exact_mod_cast hlt
      refine lt_of_lt_of_le ?_ h.low
      rw [hlowEnd, hpow]
      apply mul_lt_mul_of_pos_right _ hpos
      linarith
    have hge := lt_of_two_zpow_lt (hwhole.trans hhigh)
    exact .inl (by omega)

theorem IsNear.rounded {m a b : Nat} {e : Int} {x : ℚ} (h : IsNear m e x)
    (hb : 0 < b) (hquotient : (a : ℚ) / b = x / 2 ^ e) : roundedQuotient a b = m := by
  have hpos := two_zpow_pos e
  have hlow := le_lowEnd m e
  have hhigh : highEnd m e = ((m : ℚ) + 1 / 2) * 2 ^ e := rfl
  apply roundedQuotient_of_near hb
  · rw [hquotient, le_div_iff₀ hpos]
    exact hlow.trans h.low
  · rw [hquotient, div_le_iff₀ hpos, ← hhigh]
    exact h.high
  · intro hodd
    obtain ⟨hlowOdd, hhighOdd⟩ := h.odd hodd
    rw [hquotient, lt_div_iff₀ hpos, div_lt_iff₀ hpos, ← hhigh]
    exact ⟨hlow.trans_lt hlowOdd, hhighOdd⟩

/-- Below a power of two the quotient is rounded up to it. -/
theorem IsNear.rounded_up {a b : Nat} {e : Int} {x : ℚ} (h : IsNear (2 ^ 52) e x) (he : minExponent < e)
    (hx : x < 2 ^ (e + 52)) (hb : 0 < b) (hquotient : (a : ℚ) / b = x / 2 ^ (e - 1)) :
    roundedQuotient a b = 2 ^ 53 := by
  have hpos := two_zpow_pos (e - 1)
  have htwice : (2 : ℚ) ^ e = 2 * 2 ^ (e - 1) := by
    rw [← zpow_one_add₀ (by norm_num), add_sub_cancel]
  have hlow := h.low
  rw [lowEnd, if_pos ⟨rfl, he⟩, htwice] at hlow
  rw [show e + 52 = e - 1 + 53 by ring, zpow_add₀ (by norm_num)] at hx
  norm_num at hlow hx
  apply roundedQuotient_of_near hb
  · rw [hquotient, le_div_iff₀ hpos]
    norm_num
    linarith
  · rw [hquotient, div_le_iff₀ hpos]
    norm_num
    linarith
  · intro hodd
    norm_num at hodd

/-- A quotient in the interval of a number is rounded to it, by whatever pair it is given. -/
theorem ofRatio_eq {m num den : Nat} {e : Int} (negative : Bool) (hc : IsCanonical m e) (hm : 0 < m)
    (hden : 0 < den) (h : IsNear m e (num / den)) : ofRatio negative num den = .finite negative m e := by
  have hmq : (1 : ℚ) ≤ m := by exact_mod_cast hm
  have hpositive : 0 < (num / den : ℚ) := by
    refine lt_of_lt_of_le ?_ ((le_lowEnd m e).trans h.low)
    exact mul_pos (by linarith) (two_zpow_pos e)
  have hnum : num ≠ 0 := by
    rintro rfl
    norm_num at hpositive
  unfold ofRatio
  rw [if_neg hnum]
  dsimp only
  generalize hguess : (num.log2 - den.log2 - 52 : Int) = guess
  rcases hscaled : scaled num den guess with ⟨a, b⟩
  obtain ⟨hlow, hhigh⟩ := leading_bounds hnum hden.ne' hguess.symm hscaled
  dsimp only at hlow hhigh ⊢
  generalize (if a / b < powerOfTwo 52 then guess - 1 else guess) = leading at *
  have hexponent := h.leading hc hlow hhigh
  generalize max leading minExponent = exponent at *
  rcases hrescaled : scaled num den exponent with ⟨c, d⟩
  have hd : 0 < d := by simpa [hrescaled] using @scaled_pos num den hden exponent
  have hquotient : (c : ℚ) / d = num / den / 2 ^ exponent := by
    simpa [hrescaled] using scaled_eq num den exponent
  dsimp only
  rw [powerOfTwo_eq, powerOfTwo_eq]
  have hfits : ¬e > maxExponent := not_lt.mpr hc.greatest
  rcases hexponent with rfl | ⟨rfl, rfl, he, hbelow⟩
  · rw [h.rounded hd hquotient, if_neg hc.significand.ne]
    exact if_neg hfits
  · rw [h.rounded_up he hbelow hd hquotient, if_pos rfl, sub_add_cancel]
    exact if_neg hfits

end CatalogSteward.Binary64
