import CatalogSteward.Proofs.Number.Numerals
import CatalogSteward.Proofs.Number.Rounding

/-!
# The shortest text is read back

Seventeen digits tell any two numbers apart: the step of a grid of so many digits is smaller than the
interval of the number. So among the digits tried for a number some lie in its interval, and a text that
shows such digits is read as the number.
-/

namespace CatalogSteward.Binary64

open Decimal

theorem ten_zpow_pos (k : Int) : (0 : ℚ) < 10 ^ k := zpow_pos (by norm_num) k

theorem powerOfTen_pos (n : Nat) : 0 < powerOfTen n := Nat.pow_pos (by norm_num)

theorem cast_powerOfTen (n : Nat) : (powerOfTen n : ℚ) = 10 ^ n := by simp [powerOfTen]

/-! ### Numbers close to a number -/

theorem IsNear.pos {m : Nat} {e : Int} {x : ℚ} (hm : 0 < m) (h : IsNear m e x) : 0 < x := by
  have hmq : (1 : ℚ) ≤ m := by exact_mod_cast hm
  refine lt_of_lt_of_le ?_ ((le_lowEnd m e).trans h.low)
  exact mul_pos (by linarith) (two_zpow_pos e)

/-- The interval of a number reaches further than the 2^54th part of the number in both directions. -/
theorem IsNear.of_close {m : Nat} {e : Int} {x : ℚ} (hc : IsCanonical m e)
    (hlow : (m * 2 ^ e : ℚ) - m * 2 ^ e / 2 ^ 54 < x) (hhigh : x < m * 2 ^ e + m * 2 ^ e / 2 ^ 54) :
    IsNear m e x := by
  have hpos := two_zpow_pos e
  have hm : (m : ℚ) * 2 ^ e ≤ 2 ^ 53 * 2 ^ e := by
    apply mul_le_mul_of_nonneg_right _ hpos.le
    exact_mod_cast hc.significand.le
  have hlowEnd : lowEnd m e < x := by
    refine lt_of_le_of_lt ?_ hlow
    unfold lowEnd
    split
    · next h =>
        rw [h.1]
        push_cast
        norm_num
        linarith
    · norm_num at hm ⊢
      linarith
  have hhighEnd : x < highEnd m e := by
    refine lt_of_lt_of_le hhigh ?_
    rw [highEnd]
    norm_num at hm ⊢
    linarith
  exact ⟨hlowEnd.le, hhighEnd.le, fun _ => ⟨hlowEnd, hhighEnd⟩⟩

/-! ### The grid -/

theorem pointPosition_le {num den : Nat} (hnum : 0 < num) (hden : 0 < den) :
    (10 : ℚ) ^ (pointPosition num den - 1) ≤ num / den := by
  have hdenq : (0 : ℚ) < den := by exact_mod_cast hden
  have hlength (n : Nat) : 0 < (natChars n).length := by
    obtain ⟨c, cs, hcs, -⟩ := natChars_head n
    simp [hcs]
  unfold pointPosition
  split
  · next hle =>
      have hquotient := pow_length_natChars_le (Nat.div_pos hle hden)
      have hpos := hlength (num / den)
      have hexponent : ((natChars (num / den)).length : Int) - 1 =
          (((natChars (num / den)).length - 1 : Nat) : Int) := by omega
      rw [hexponent, zpow_natCast, le_div_iff₀ hdenq]
      have hmul : 10 ^ ((natChars (num / den)).length - 1) * den ≤ num :=
        (Nat.mul_le_mul_right den hquotient).trans (Nat.div_mul_le_self num den)
      exact_mod_cast hmul
  · next hlt =>
      dsimp only
      have hpos := hlength (den / num)
      have hquotient : den < 10 ^ (natChars (den / num)).length * num :=
        (Nat.div_lt_iff_lt_mul hnum).mp (lt_pow_length_natChars (den / num))
      generalize (natChars (den / num)).length = places at *
      split
      · next hge =>
          rw [show (2 - (places : Int) - 1) = -((places - 1 : Nat) : Int) by omega, zpow_neg, zpow_natCast,
            inv_eq_one_div, div_le_div_iff₀ (by positivity) hdenq, one_mul]
          exact_mod_cast hge
      · rw [show (1 - (places : Int) - 1) = -(places : Int) by omega, zpow_neg, zpow_natCast,
          inv_eq_one_div, div_le_div_iff₀ (by positivity) hdenq, one_mul, mul_comm]
        exact_mod_cast hquotient.le

/-- Rounding moves a quotient by one half at most. -/
theorem roundedQuotient_near {a b : Nat} (hb : 0 < b) :
    (a : ℚ) / b - 1 / 2 ≤ roundedQuotient a b ∧ (roundedQuotient a b : ℚ) ≤ a / b + 1 / 2 := by
  have hbq : (0 : ℚ) < b := by exact_mod_cast hb
  have hdiv : (b : ℚ) * (a / b : Nat) + (a % b : Nat) = a := by exact_mod_cast Nat.div_add_mod a b
  have hquotient : (a : ℚ) / b = (a / b : Nat) + (a % b : Nat) / b := by
    rw [eq_comm, ← hdiv]
    field_simp
  have hrest : ((a % b : Nat) : ℚ) / b < 1 := by
    rw [div_lt_one hbq]
    exact_mod_cast Nat.mod_lt a hb
  have hrestPos : 0 ≤ ((a % b : Nat) : ℚ) / b := by positivity
  unfold roundedQuotient
  dsimp only
  rw [hquotient]
  split
  · next h =>
      have hhalf : ((a % b : Nat) : ℚ) / b ≤ 1 / 2 := by
        rw [div_le_div_iff₀ hbq (by norm_num), one_mul]
        exact_mod_cast (show a % b * 2 ≤ b by omega)
      constructor <;> linarith
  · next h =>
      have hhalf : 1 / 2 ≤ ((a % b : Nat) : ℚ) / b := by
        rw [div_le_div_iff₀ (by norm_num) hbq, one_mul]
        exact_mod_cast (show b ≤ a % b * 2 by omega)
      push_cast
      constructor <;> linarith

section

variable {m : Nat} (hm : 0 < m)

include hm

/-- A point of the grid fits if it lies in the interval. -/
theorem fits_iff (e k : Int) (d : Nat) :
    (if 0 ≤ k then roundsTo m e (d * powerOfTen k.natAbs) 1 else roundsTo m e d (powerOfTen k.natAbs)) = true ↔
      IsNear m e (d * 10 ^ k) := by
  split
  · next h =>
      lift k to ℕ using h
      rw [roundsTo_iff hm e Nat.one_pos]
      simp [powerOfTen]
  · next h =>
      obtain ⟨n, rfl⟩ : ∃ n : ℕ, k = -n := ⟨(-k).toNat, by omega⟩
      rw [roundsTo_iff hm e (powerOfTen_pos _)]
      simp [powerOfTen, div_eq_mul_inv]

theorem isNear_of_gridPoint? {e k : Int} {num den d : Nat} (h : gridPoint? m e num den k = some d) :
    IsNear m e (d * 10 ^ k) := by
  unfold gridPoint? at h
  dsimp only at h
  generalize (if 0 ≤ k then (num, den * powerOfTen k.natAbs) else (num * powerOfTen k.natAbs, den)) = pair at h
  generalize roundedQuotient pair.1 pair.2 = nearest at h
  generalize (if nearest = pair.1 / pair.2 then pair.1 / pair.2 + 1 else pair.1 / pair.2) = other at h
  by_cases hnearest : IsNear m e (nearest * 10 ^ k)
  · rw [if_pos ((fits_iff hm e k nearest).mpr hnearest)] at h
    rwa [← Option.some.inj h]
  · rw [if_neg (mt (fits_iff hm e k nearest).mp hnearest)] at h
    by_cases hother : IsNear m e (other * 10 ^ k)
    · rw [if_pos ((fits_iff hm e k other).mpr hother)] at h
      rwa [← Option.some.inj h]
    · rw [if_neg (mt (fits_iff hm e k other).mp hother)] at h
      cases h

/-- The nearest point of a fine grid lies in the interval. -/
theorem gridPoint?_isSome {e k : Int} {num den : Nat} (hc : IsCanonical m e) (hden : 0 < den)
    (hvalue : (num : ℚ) / den = m * 2 ^ e) (hfine : (10 : ℚ) ^ k / 2 < m * 2 ^ e / 2 ^ 54) :
    (gridPoint? m e num den k).isSome = true := by
  have hscaled : ∃ a b : Nat, (if 0 ≤ k then (num, den * powerOfTen k.natAbs)
      else (num * powerOfTen k.natAbs, den)) = (a, b) ∧ 0 < b ∧ (a : ℚ) / b * 10 ^ k = m * 2 ^ e := by
    rw [← hvalue]
    split
    · next h =>
        lift k to ℕ using h
        refine ⟨num, den * powerOfTen k, rfl, Nat.mul_pos hden (powerOfTen_pos k), ?_⟩
        rw [Nat.cast_mul, cast_powerOfTen, zpow_natCast]
        field_simp
    · next h =>
        obtain ⟨n, rfl⟩ : ∃ n : ℕ, k = -n := ⟨(-k).toNat, by omega⟩
        refine ⟨num * powerOfTen n, den, by simp, hden, ?_⟩
        rw [Nat.cast_mul, cast_powerOfTen, zpow_neg, zpow_natCast]
        field_simp
  obtain ⟨a, b, hpair, hb, hab⟩ := hscaled
  obtain ⟨hlow, hhigh⟩ := roundedQuotient_near (a := a) hb
  have hpos := ten_zpow_pos k
  have hnear : IsNear m e (roundedQuotient a b * 10 ^ k) := by
    have hlowMul := mul_le_mul_of_nonneg_right hlow hpos.le
    have hhighMul := mul_le_mul_of_nonneg_right hhigh hpos.le
    rw [sub_mul, hab] at hlowMul
    rw [add_mul, hab] at hhighMul
    apply IsNear.of_close hc <;> linarith
  unfold gridPoint?
  dsimp only
  rw [hpair]
  dsimp only
  rw [if_pos ((fits_iff hm e k _).mpr hnear)]
  rfl

/-- The shortest digits of a number lie in its interval. -/
theorem isNear_shortest {e : Int} (hc : IsCanonical m e) :
    IsNear m e ((shortest m e).1 * 10 ^ (shortest m e).2) := by
  have hvalue := ratio_eq m e
  have hden := ratio_pos m e
  unfold shortest
  generalize ratio m e = pair at *
  obtain ⟨num, den⟩ := pair
  dsimp only at *
  have hmq : (1 : ℚ) ≤ m := by exact_mod_cast hm
  have hpositive : (0 : ℚ) < m * 2 ^ e := mul_pos (by linarith) (two_zpow_pos e)
  have hnum : 0 < num := by
    rcases Nat.eq_zero_or_pos num with rfl | h
    · simp [← hvalue] at hpositive
    · exact h
  generalize hpoint : pointPosition num den = point
  split
  · next d k h =>
      obtain ⟨n, -, hn⟩ := List.exists_of_findSome?_eq_some h
      obtain ⟨d', hd, heq⟩ := Option.map_eq_some_iff.mp hn
      cases heq
      exact isNear_of_gridPoint? hm hd
  · next h =>
      -- The grid of seventeen digits is fine enough.
      have hleast := pointPosition_le hnum hden
      rw [hvalue, hpoint] at hleast
      have hfine : (10 : ℚ) ^ (point - ((16 + 1 : Nat) : Int)) / 2 < m * 2 ^ e / 2 ^ 54 := by
        have hsplit : (10 : ℚ) ^ (point - ((16 + 1 : Nat) : Int)) = 10 ^ (point - 1) / 10 ^ 16 := by
          rw [show point - ((16 + 1 : Nat) : Int) = point - 1 - (16 : Nat) by push_cast; ring,
            zpow_sub₀ (by norm_num), zpow_natCast]
        rw [hsplit]
        norm_num
        linarith
      have hsome := gridPoint?_isSome hm hc hden hvalue hfine
      have hnone := List.findSome?_eq_none_iff.mp h 16 (by decide)
      rw [Option.map_eq_none_iff] at hnone
      rw [hnone] at hsome
      cases hsome

end

/-! ### Decimals -/

theorem two_zpow_lt_ten_zpow : (2 : ℚ) ^ (1090 : Int) < 10 ^ (330 : Int) := by
  have h : ((2 : ℚ) ^ 109) ^ 10 < (10 ^ 33) ^ 10 := by
    apply pow_lt_pow_left₀ _ (by positivity) (by norm_num)
    norm_num
  rw [zpow_ofNat, zpow_ofNat]
  rwa [← pow_mul, ← pow_mul] at h

/-- The decimals in the interval of a number have a moderate number of places. -/
theorem places_bounds {m digits : Nat} {e exponent : Int} (hc : IsCanonical m e) (hm : 0 < m)
    (hdigits : 0 < digits) (h : IsNear m e (digits * 10 ^ exponent)) :
    -330 ≤ (natChars digits).length + exponent ∧ (natChars digits).length + exponent ≤ 330 := by
  have hpos := ten_zpow_pos exponent
  have hlower : (10 : ℚ) ^ ((natChars digits).length - 1 + exponent : Int) ≤ digits * 10 ^ exponent := by
    obtain ⟨c, cs, hcs, -⟩ := natChars_head digits
    have hle := pow_length_natChars_le hdigits
    rw [hcs, List.length_cons, Nat.add_sub_cancel] at hle
    rw [hcs, List.length_cons, zpow_add₀ (by norm_num),
      show ((cs.length + 1 : Nat) : Int) - 1 = (cs.length : Int) by push_cast; ring, zpow_natCast]
    apply mul_le_mul_of_nonneg_right _ hpos.le
    exact_mod_cast hle
  have hupper : (digits * 10 ^ exponent : ℚ) < 10 ^ ((natChars digits).length + exponent : Int) := by
    rw [zpow_add₀ (by norm_num), zpow_natCast]
    apply mul_lt_mul_of_pos_right _ hpos
    exact_mod_cast lt_pow_length_natChars digits
  constructor
  · by_contra hfew
    have hleast : (2 : ℚ) ^ (-1075 : Int) ≤ digits * 10 ^ exponent := by
      have hmq : (1 : ℚ) ≤ m := by exact_mod_cast hm
      calc (2 : ℚ) ^ (-1075 : Int) ≤ 2 ^ (e - 1) :=
            zpow_le_zpow_right₀ (by norm_num) (by have := hc.least; unfold minExponent at this; omega)
        _ = 1 / 2 * 2 ^ e := by rw [zpow_sub_one₀ (by norm_num)]; ring
        _ ≤ (m - 1 / 2) * 2 ^ e := mul_le_mul_of_nonneg_right (by linarith) (two_zpow_pos e).le
        _ ≤ digits * 10 ^ exponent := (le_lowEnd m e).trans h.low
    have htiny : (10 : ℚ) ^ ((natChars digits).length + exponent : Int) ≤ 10 ^ (-330 : Int) :=
      zpow_le_zpow_right₀ (by norm_num) (by omega)
    have hinverse : (10 : ℚ) ^ (-330 : Int) < 2 ^ (-1090 : Int) := by
      rw [zpow_neg, zpow_neg]
      exact inv_strictAnti₀ (two_zpow_pos _) two_zpow_lt_ten_zpow
    have hexponent := lt_of_two_zpow_lt (hleast.trans_lt (hupper.trans_le htiny) |>.trans hinverse)
    omega
  · by_contra hmany
    have hgreatest : (digits * 10 ^ exponent : ℚ) < 2 ^ (1024 : Int) :=
      h.high.trans_lt (hc.high_lt.trans_le (zpow_le_zpow_right₀ (by norm_num)
        (by have := hc.greatest; unfold maxExponent at this; omega)))
    have hhuge : (10 : ℚ) ^ (330 : Int) ≤ 10 ^ ((natChars digits).length - 1 + exponent : Int) :=
      zpow_le_zpow_right₀ (by norm_num) (by omega)
    have hexponent :=
      lt_of_two_zpow_lt (two_zpow_lt_ten_zpow.trans_le (hhuge.trans hlower) |>.trans hgreatest)
    omega

/-- A decimal in the interval of a number is read as the number. -/
theorem ofDecimal_eq {m digits : Nat} {e exponent : Int} (negative : Bool) (hc : IsCanonical m e)
    (hm : 0 < m) (h : IsNear m e (digits * 10 ^ exponent)) :
    ofDecimal negative digits exponent = .finite negative m e := by
  have hdigits : 0 < digits := by
    rcases Nat.eq_zero_or_pos digits with rfl | hpos
    · simpa using h.pos hm
    · exact hpos
  obtain ⟨hleast, hgreatest⟩ := places_bounds hc hm hdigits h
  unfold ofDecimal
  dsimp only
  rw [if_neg (by omega), if_neg (by omega)]
  split
  · next hexponent =>
      lift exponent to ℕ using hexponent
      apply ofRatio_eq negative hc hm Nat.one_pos
      simpa [powerOfTen] using h
  · next hexponent =>
      obtain ⟨n, rfl⟩ : ∃ n : ℕ, exponent = -n := ⟨(-exponent).toNat, by omega⟩
      apply ofRatio_eq negative hc hm (powerOfTen_pos _)
      simpa [powerOfTen, div_eq_mul_inv] using h

/-! ### The text of a number -/

/-- A finite number is kept as the pair with the greatest significand. -/
def IsKept : Binary64 → Prop
  | .finite _ m e => IsCanonical m e
  | _ => True

theorem dropZeros_append (cs : List Char) : ∃ k, cs = dropZeros cs ++ List.replicate k '0' := by
  refine ⟨(cs.reverse.takeWhile (· = '0')).length, ?_⟩
  have hzeros : cs.reverse.takeWhile (· = '0') =
      List.replicate (cs.reverse.takeWhile (· = '0')).length '0' := by
    rw [List.eq_replicate_iff]
    exact ⟨rfl, fun c hc => by simpa using List.all_eq_true.mp (List.all_takeWhile) c hc⟩
  have hsplit := List.takeWhile_append_dropWhile (p := (· = '0')) (l := cs.reverse)
  rw [hzeros] at hsplit
  have hreverse := congrArg List.reverse hsplit
  rw [List.reverse_append, List.reverse_replicate, List.reverse_reverse] at hreverse
  exact hreverse.symm

/-- The digits of a number without the zeros at their end. -/
theorem dropZeros_natChars {d : Nat} (hd : 0 < d) :
    ∃ zeros, (natChars d).length = (dropZeros (natChars d)).length + zeros ∧
      digitsValue (dropZeros (natChars d)) * 10 ^ zeros = d ∧
      (∀ c ∈ dropZeros (natChars d), IsDigit c) ∧ dropZeros (natChars d) ≠ [] ∧
      (dropZeros (natChars d)).head? ≠ some '0' := by
  obtain ⟨zeros, hzeros⟩ := dropZeros_append (natChars d)
  have hvalue : digitsValue (dropZeros (natChars d)) * 10 ^ zeros = d := by
    rw [← digitsValue_append_zeros, ← hzeros, digitsValue_natChars]
  refine ⟨zeros, ?_, hvalue, ?_, ?_, ?_⟩
  · rw [congrArg List.length hzeros, List.length_append, List.length_replicate]
  · exact fun c hc => isDigit_natChars d c (hzeros ▸ List.mem_append_left _ hc)
  · intro h
    rw [h] at hvalue
    simp [digitsValue] at hvalue
    omega
  · intro h
    obtain ⟨c, cs, hcs, hzero⟩ := natChars_head d
    have hfirst : (natChars d).head? = some '0' := by
      rw [hzeros, List.head?_append, h]
      rfl
    rw [hcs] at hfirst
    have := (hzero (Option.some.inj hfirst)).1
    omega

def signChars (negative : Bool) : List Char := if negative then ['-'] else []

/-- The text of a finite number is a numeral that is read as the number. -/
theorem chars_finite {m : Nat} {e : Int} (negative : Bool) (hc : IsCanonical m e) :
    ∃ n : Numeral, (finite negative m e).chars = signChars negative ++ n.chars ∧
      magnitude? negative n.chars = some (.finite negative m e) := by
  rcases Nat.eq_zero_or_pos m with rfl | hm
  · have he : e = minExponent := by
      by_contra hne
      have := hc.normal (lt_of_le_of_ne hc.least (Ne.symm hne))
      omega
    subst he
    refine ⟨⟨['0'], ['0'], none, isDigit_zeros 1, isDigit_zeros 1, by decide, .inl rfl, .inl (by decide)⟩, rfl, ?_⟩
    rw [Numeral.magnitude?_chars]
    rfl
  · have hnear := isNear_shortest hm hc
    have hd : 0 < (shortest m e).1 := by
      rcases Nat.eq_zero_or_pos (shortest m e).1 with h | h
      · simpa [h] using hnear.pos hm
      · exact h
    have hchars : (finite negative m e).chars = signChars negative ++
        layout (dropZeros (natChars (shortest m e).1))
          ((shortest m e).2 + (natChars (shortest m e).1).length) := if_neg hm.ne'
    rw [hchars]
    generalize (shortest m e).1 = d at *
    generalize (shortest m e).2 = k at *
    obtain ⟨zeros, hlength, hvalue, hdigits, hne, hhead⟩ := dropZeros_natChars hd
    obtain ⟨n, hlayout, hshown⟩ := shows_layout hdigits hne hhead (k + (natChars d).length)
    refine ⟨n, by rw [hlayout], ?_⟩
    have hexponent : k + ((natChars d).length : Int) - (dropZeros (natChars d)).length = k + zeros := by omega
    have hsame : n.value = d * 10 ^ k := by
      have hcast : (digitsValue (dropZeros (natChars d)) : ℚ) * 10 ^ zeros = d := by exact_mod_cast hvalue
      rw [hshown, hexponent, zpow_add₀ (by norm_num), zpow_natCast, ← hcast]
      ring
    rw [← hsame] at hnear
    rw [Numeral.magnitude?_chars, ofDecimal_eq negative hc hm hnear]

end CatalogSteward.Binary64
