import CatalogSteward.Number.Decimal
import Mathlib.Algebra.Group.Nat.Defs
import Mathlib.Tactic.Common

/-!
# Decimal numerals are read back

The numeral of a natural number is made of decimal digits, does not start with a zero unless it is one
digit long, and is read as the number, if it is not too long to be read.
-/

namespace CatalogSteward.Decimal

/-! ### Digits -/

/-- One of the ten decimal digits of ASCII. -/
def IsDigit (c : Char) : Prop := 0x30 ≤ c.toNat ∧ c.toNat ≤ 0x39

instance (c : Char) : Decidable (IsDigit c) := inferInstanceAs (Decidable (_ ∧ _))

def digit (n : Nat) : Char := Char.ofNat (0x30 + n)

theorem toNat_digit {n : Nat} (h : n < 10) : (digit n).toNat = 0x30 + n := by
  revert n
  decide

theorem isDigit_digit {n : Nat} (h : n < 10) : IsDigit (digit n) := by
  rw [IsDigit, toNat_digit h]
  omega

namespace IsDigit

variable {c : Char}

theorem ne (h : IsDigit c) {d : Char} (hd : d.toNat < 0x30 ∨ 0x39 < d.toNat) : c ≠ d := by
  rintro rfl
  obtain ⟨low, high⟩ := h
  omega

theorem isDigit (h : IsDigit c) : c.isDigit = true := by
  obtain ⟨low, high⟩ := h
  simp only [Char.isDigit, Bool.and_eq_true, decide_eq_true_eq, UInt32.le_iff_toNat_le]
  exact ⟨low, high⟩

theorem digit? (h : IsDigit c) : digit? 10 c = some (c.toNat - 0x30) := by
  obtain ⟨low, high⟩ := h
  have hlower : c.isLower = false := by
    change (decide ((97 : UInt32) ≤ c.val) && decide (c.val ≤ 122)) = false
    rw [Bool.and_eq_false_iff, decide_eq_false_iff_not, UInt32.le_iff_toNat_le]
    exact .inl (by change ¬97 ≤ c.toNat; omega)
  have hupper : c.isUpper = false := by
    refine decide_eq_false ?_
    rintro ⟨h, -⟩
    exact absurd (show 65 ≤ c.toNat from UInt32.le_iff_toNat_le.mp h) (by omega)
  have hvalue : c.toNat - 0x30 < 10 := by omega
  simp [Decimal.digit?, hlower, hupper, Text.decimalValue?_ascii low high, hvalue]

theorem isBlank (h : IsDigit c) : Text.isBlank c = false := by
  obtain ⟨low, high⟩ := h
  simp only [Text.isBlank, Bool.or_eq_false_iff, Bool.and_eq_false_iff, decide_eq_false_iff_not,
    beq_eq_false_iff_ne]
  omega

theorem isDecimal (h : IsDigit c) : Text.isDecimal c = true := by
  rw [Text.isDecimal, Text.decimalValue?_ascii h.1 h.2]
  rfl

theorem toLower (h : IsDigit c) : c.toLower = c := by
  obtain ⟨low, high⟩ := h
  refine dif_neg ?_
  rintro ⟨hupper, -⟩
  have : 0x41 ≤ c.toNat := UInt32.le_iff_toNat_le.mp hupper
  omega

end IsDigit

/-! ### Numerals -/

theorem isDigit_natChars (n : Nat) : ∀ c ∈ natChars n, IsDigit c := by
  induction n using natChars.induct with
  | case1 n h =>
      rw [natChars, if_pos h]
      exact List.forall_mem_singleton.mpr (isDigit_digit h)
  | case2 n h ih =>
      rw [natChars, if_neg h]
      exact List.forall_mem_append.mpr
        ⟨ih, List.forall_mem_singleton.mpr (isDigit_digit (Nat.mod_lt n (by decide)))⟩

/-- The first digit is a zero for zero alone. -/
theorem natChars_head (n : Nat) : ∃ c cs, natChars n = c :: cs ∧ (c = '0' → n = 0 ∧ cs = []) := by
  induction n using natChars.induct with
  | case1 n h =>
      refine ⟨digit n, [], by rw [natChars, if_pos h]; rfl, fun hzero => ⟨?_, rfl⟩⟩
      have hn := toNat_digit h
      rw [hzero] at hn
      have : ('0' : Char).toNat = 48 := rfl
      omega
  | case2 n h ih =>
      obtain ⟨c, cs, hcs, hzero⟩ := ih
      refine ⟨c, cs ++ [digit (n % 10)], by rw [natChars, if_neg h, hcs]; rfl, fun hc => ?_⟩
      have := (hzero hc).1
      omega

/-- The number that a list of digits goes on to when it starts with another one. -/
def valueFrom (number : Nat) (cs : List Char) : Nat :=
  cs.foldl (fun n c => n * 10 + (c.toNat - 0x30)) number

theorem valueFrom_natChars (n : Nat) : valueFrom 0 (natChars n) = n := by
  induction n using natChars.induct with
  | case1 n h =>
      have hdigit := toNat_digit h
      rw [natChars, if_pos h]
      change 0 * 10 + ((digit n).toNat - 0x30) = n
      omega
  | case2 n h ih =>
      have hdigit := toNat_digit (Nat.mod_lt n (by decide : 10 > 0))
      rw [natChars, if_neg h, valueFrom, List.foldl_append]
      change valueFrom 0 (natChars (n / 10)) * 10 + ((digit (n % 10)).toNat - 0x30) = n
      rw [ih]
      omega

theorem length_natChars {n k : Nat} (h : n < 10 ^ (k + 1)) : (natChars n).length ≤ k + 1 := by
  induction k generalizing n with
  | zero =>
      rw [natChars, if_pos (by omega)]
      exact Nat.le_refl 1
  | succ k ih =>
      rw [natChars]
      split
      · exact Nat.succ_le_succ (Nat.zero_le _)
      · have hdiv : n / 10 < 10 ^ (k + 1) := Nat.div_lt_of_lt_mul (by rwa [← Nat.pow_succ'])
        rw [List.length_append]
        exact Nat.succ_le_succ (ih hdiv)

theorem lt_pow_length_natChars (n : Nat) : n < 10 ^ (natChars n).length := by
  induction n using natChars.induct with
  | case1 n h =>
      rw [natChars, if_pos h]
      exact h
  | case2 n h ih =>
      rw [natChars, if_neg h, List.length_append, List.length_singleton, Nat.pow_succ]
      omega

theorem pow_length_natChars_le {n : Nat} (h : 0 < n) : 10 ^ ((natChars n).length - 1) ≤ n := by
  induction n using natChars.induct with
  | case1 n hn =>
      rw [natChars, if_pos hn]
      exact h
  | case2 n hn ih =>
      have hpos : 0 < (natChars (n / 10)).length := by
        obtain ⟨c, cs, hcs, -⟩ := natChars_head (n / 10)
        simp [hcs]
      have hquotient := ih (by omega)
      rw [natChars, if_neg hn, List.length_append, List.length_singleton, Nat.add_sub_cancel,
        show (natChars (n / 10)).length = (natChars (n / 10)).length - 1 + 1 by omega, Nat.pow_succ]
      omega

/-- An integer is written in digits, behind a sign if it is negative. -/
theorem mem_chars {n : Int} {c : Char} (h : c ∈ chars n) : IsDigit c ∨ c = '-' := by
  cases n with
  | ofNat n => exact .inl (isDigit_natChars n c h)
  | negSucc n =>
      obtain rfl | hc := List.mem_cons.mp h
      · exact .inr rfl
      · exact .inl (isDigit_natChars (n + 1) c hc)

theorem natChars_injective : Function.Injective natChars := by
  intro m n h
  rw [← valueFrom_natChars m, h, valueFrom_natChars]

theorem chars_injective : Function.Injective chars := by
  have hsign (m n : Nat) : natChars m ≠ '-' :: natChars (n + 1) := by
    intro h
    have hminus : '-' ∈ natChars m := h ▸ List.mem_cons_self
    exact absurd (isDigit_natChars m '-' hminus) (by decide)
  intro m n h
  cases m with
  | ofNat m =>
      cases n with
      | ofNat n => exact congrArg Int.ofNat (natChars_injective h)
      | negSucc n => exact absurd h (hsign m n)
  | negSucc m =>
      cases n with
      | ofNat n => exact absurd h.symm (hsign n m)
      | negSucc n => exact congrArg Int.negSucc (Nat.succ.inj (natChars_injective (List.cons.inj h).2))

/-! ### Reading -/

theorem digitsFrom_eq {cs : List Char} (h : ∀ c ∈ cs, IsDigit c) (number : Nat) :
    digitsFrom 10 number cs = some (valueFrom number cs) := by
  induction cs generalizing number with
  | nil => rfl
  | cons c cs ih =>
      obtain ⟨hc, hcs⟩ := List.forall_mem_cons.mp h
      rw [digitsFrom.eq_3 _ _ _ _ fun _ _ h _ => hc.ne (by decide) h, hc.digit?]
      exact ih hcs _

theorem numeral?_eq {cs : List Char} (hne : cs ≠ []) (h : ∀ c ∈ cs, IsDigit c) :
    numeral? 10 cs = some (valueFrom 0 cs) := by
  cases cs with
  | nil => exact absurd rfl hne
  | cons c cs =>
      obtain ⟨hc, hcs⟩ := List.forall_mem_cons.mp h
      rw [numeral?, hc.digit?]
      refine (digitsFrom_eq hcs (c.toNat - 0x30)).trans ?_
      rw [valueFrom, valueFrom, List.foldl_cons, Nat.zero_mul, Nat.zero_add]

theorem dropWhile_eq_self {p : Char → Bool} {cs : List Char} (h : ∀ c ∈ cs, p c = false) :
    cs.dropWhile p = cs := by
  cases cs with
  | nil => rfl
  | cons c cs => rw [List.dropWhile_cons, h c List.mem_cons_self, if_neg Bool.false_ne_true]

theorem trimBy_eq_self {p : Char → Bool} {cs : List Char} (h : ∀ c ∈ cs, p c = false) :
    Text.trimBy p cs = cs := by
  have hreverse : ∀ c ∈ cs.reverse, p c = false := fun c hc => h c (List.mem_reverse.mp hc)
  rw [Text.trimBy, dropWhile_eq_self h, dropWhile_eq_self hreverse, List.reverse_reverse]

theorem length_natChars_of_isWritable {n : Nat} (h : isWritable n = true) :
    (natChars n).length ≤ digitLimit := by
  obtain ⟨k, hk⟩ : ∃ k, digitLimit = k + 1 := ⟨4299, rfl⟩
  rw [isWritable, decide_eq_true_eq, hk] at h
  rw [hk]
  exact length_natChars h

/-- No base of ten has a marker. -/
theorem dropMarker_ten (cs : List Char) : dropMarker 10 cs = cs := by
  rw [dropMarker.eq_def]
  split
  · rw [if_neg (by omega)]
  · rfl

/-- A numeral without blanks and without a sign is read as it stands. -/
theorem read_unsigned {base : Nat} {cs : List Char} (hblank : ∀ c ∈ cs, Text.isBlank c = false)
    (hsign : ∀ c ∈ cs.head?, c ≠ '-' ∧ c ≠ '+') :
    read base (String.ofList cs) =
      match magnitude? base cs with
      | some (.ok n) => .ok n
      | some (.error digits) => .error (.tooLong digits)
      | none => .error (.malformed base (String.ofList cs)) := by
  have hkept : ∀ c ∈ cs, (if cs.all (·.toNat < 128) then Text.isWhiteSpace else Text.isBlank) c = false := by
    intro c hc
    split
    · rw [Text.isWhiteSpace, hblank c hc]
      rfl
    · exact hblank c hc
  have hunsigned : splitSign cs = (false, cs) := by
    cases cs with
    | nil => rfl
    | cons c cs =>
        obtain ⟨hminus, hplus⟩ := hsign c rfl
        rw [splitSign.eq_3]
        · exact fun _ h => hminus (List.cons.inj h).1
        · exact fun _ h => hplus (List.cons.inj h).1
  rw [read, String.toList_ofList]
  dsimp only
  rw [trimBy_eq_self hkept, hunsigned]
  rfl

/-- What is made of a numeral of decimal digits depends on its length. -/
theorem read_decimal {cs : List Char} (hne : cs ≠ []) (hdigits : ∀ c ∈ cs, IsDigit c) :
    read 10 (String.ofList cs) =
      if cs.length ≤ digitLimit then .ok (valueFrom 0 cs : Int) else .error (.tooLong cs.length) := by
  have hunderscore : cs.filter (· ≠ '_') = cs :=
    List.filter_eq_self.mpr fun c hc => by simpa using (hdigits c hc).ne (d := '_') (by decide)
  have hsign : ∀ c ∈ cs.head?, c ≠ '-' ∧ c ≠ '+' := by
    intro c hc
    have hdigit := hdigits c (List.mem_of_mem_head? hc)
    exact ⟨hdigit.ne (by decide), hdigit.ne (by decide)⟩
  have hall : cs.all (fun c => c = '_' ∨ (digit? 10 c).isSome) = true := by
    simp only [List.all_eq_true, decide_eq_true_eq]
    intro c hc
    exact .inr (by rw [(hdigits c hc).digit?]; rfl)
  rw [read_unsigned (fun c hc => (hdigits c hc).isBlank) hsign, magnitude?, hunderscore, dropMarker_ten,
    numeral?_eq hne hdigits, if_pos hall]
  by_cases hlength : cs.length ≤ digitLimit <;> simp [hlength]

/-- A numeral of decimal digits that is not too long is read. -/
theorem read_digits {cs : List Char} (hne : cs ≠ []) (hdigits : ∀ c ∈ cs, IsDigit c)
    (hlength : cs.length ≤ digitLimit) : read 10 (String.ofList cs) = .ok (valueFrom 0 cs) := by
  rw [read_decimal hne hdigits, if_pos hlength]

/-- A number is read back from its numeral. -/
theorem read_natChars {n : Nat} (h : isWritable n = true) :
    read 10 (String.ofList (natChars n)) = .ok n := by
  obtain ⟨c, cs, hcs, -⟩ := natChars_head n
  rw [read_digits (hcs ▸ List.cons_ne_nil c cs) (isDigit_natChars n) (length_natChars_of_isWritable h),
    valueFrom_natChars]

/-! ### Digits of every script -/

/-- The blanks, by number. -/
def blankCodes : List Nat :=
  [9, 10, 11, 12, 13, 28, 29, 30, 31, 32, 0x85, 0xA0, 0x1680, 0x2000, 0x2001, 0x2002, 0x2003, 0x2004, 0x2005,
    0x2006, 0x2007, 0x2008, 0x2009, 0x200A, 0x2028, 0x2029, 0x202F, 0x205F, 0x3000]

theorem isBlank_of_isDigit {c : Char} (h : Text.isDigit c = true) : Text.isBlank c = false := by
  rw [← Bool.not_eq_true]
  intro hblank
  have hcode : c.toNat ∈ blankCodes := by
    simp only [Text.isBlank, Bool.or_eq_true, Bool.and_eq_true, decide_eq_true_eq, beq_iff_eq] at hblank
    simp only [blankCodes, List.mem_cons, List.not_mem_nil, or_false]
    omega
  have hnone : ∀ n ∈ blankCodes, Text.isDigit (Char.ofNat n) = false := by decide +kernel
  have hc := hnone _ hcode
  rw [Char.ofNat_toNat, h] at hc
  cases hc

theorem decimalValue?_lt {c : Char} {n : Nat} (h : Text.decimalValue? c = some n) : n < 10 := by
  simp only [Text.decimalValue?] at h
  split_ifs at h with hlow hascii
  · simp only [Bool.and_eq_true, decide_eq_true_eq, Option.some.injEq] at hascii h
    omega
  · obtain ⟨start, hstart, rfl⟩ := Option.map_eq_some_iff.mp h
    have hblock := Array.find?_some hstart
    simp only [Bool.and_eq_true, decide_eq_true_eq] at hblock
    omega

/-- A digit is no letter. -/
theorem not_isLetter_of_isDigit {c : Char} (h : Text.isDigit c = true) :
    c.isLower = false ∧ c.isUpper = false := by
  have hcode : c.toNat ≤ 0x39 ∨ 0x80 ≤ c.toNat := by
    by_contra hletter
    have hvalue : Text.decimalValue? c = none := by
      rw [Text.decimalValue?, if_pos (by omega), if_neg (by simp; omega)]
    rw [Text.isDigit, hvalue, decide_eq_true (show c.toNat < 0x80 by omega)] at h
    cases h
  constructor
  · rw [← Bool.not_eq_true]
    intro hlower
    change (decide ((97 : UInt32) ≤ c.val) && decide (c.val ≤ 122)) = true at hlower
    simp only [Bool.and_eq_true, decide_eq_true_eq, UInt32.le_iff_toNat_le] at hlower
    change 97 ≤ c.toNat ∧ c.toNat ≤ 122 at hlower
    omega
  · rw [← Bool.not_eq_true]
    intro hupper
    obtain ⟨low, high⟩ := of_decide_eq_true hupper
    change 65 ≤ c.toNat at low
    change c.toNat ≤ 90 at high
    omega

theorem isSome_digit? {c : Char} (h : Text.isDigit c = true) :
    (digit? 10 c).isSome = Text.isDecimal c := by
  obtain ⟨hlower, hupper⟩ := not_isLetter_of_isDigit h
  rw [digit?, hlower, hupper, Text.isDecimal]
  cases hvalue : Text.decimalValue? c with
  | none => rfl
  | some n => simp [decimalValue?_lt hvalue]

theorem isSome_digitsFrom {cs : List Char} (h : '_' ∉ cs) (number : Nat) :
    (digitsFrom 10 number cs).isSome = cs.all fun c => (digit? 10 c).isSome := by
  induction cs generalizing number with
  | nil => rfl
  | cons c cs ih =>
      rw [List.mem_cons, not_or] at h
      rw [digitsFrom.eq_3 _ _ _ _ fun _ _ hc _ => h.1 hc.symm, List.all_cons]
      cases digit? 10 c with
      | none => rfl
      | some d => exact ih h.2 _

/-- Which numerals of digits are read: those of decimal digits that are not too long. -/
theorem read_eq_ok_iff {cs : List Char} (hne : cs ≠ []) (h : ∀ c ∈ cs, Text.isDigit c = true) :
    (∃ n, read 10 (String.ofList cs) = .ok n) ↔
      (∀ c ∈ cs, Text.isDecimal c = true) ∧ cs.length ≤ digitLimit := by
  have hother {d : Char} (hd : Text.isDigit d = false) : ∀ c ∈ cs, c ≠ d := by
    rintro c hc rfl
    exact Bool.false_ne_true (hd.symm.trans (h c hc))
  have hline : ∀ c ∈ cs, c ≠ '_' := hother (by decide)
  have hdigits : (cs.all fun c => (digit? 10 c).isSome) = true ↔ ∀ c ∈ cs, Text.isDecimal c = true := by
    rw [List.all_eq_true]
    exact forall₂_congr fun c hc => by rw [isSome_digit? (h c hc)]
  have hnumeral : (numeral? 10 cs).isSome = cs.all fun c => (digit? 10 c).isSome := by
    cases cs with
    | nil => exact absurd rfl hne
    | cons c cs =>
        rw [numeral?, List.all_cons]
        cases digit? 10 c with
        | none => rfl
        | some d => exact isSome_digitsFrom (fun hmem => hline '_' (List.mem_cons_of_mem _ hmem) rfl) d
  have hunderscore : cs.filter (· ≠ '_') = cs :=
    List.filter_eq_self.mpr fun c hc => by simpa using hline c hc
  have hsign : ∀ c ∈ cs.head?, c ≠ '-' ∧ c ≠ '+' := fun c hc =>
    ⟨hother (by decide) c (List.mem_of_mem_head? hc), hother (by decide) c (List.mem_of_mem_head? hc)⟩
  rw [read_unsigned (fun c hc => isBlank_of_isDigit (h c hc)) hsign, magnitude?, hunderscore, dropMarker_ten,
    ← hdigits, ← hnumeral]
  by_cases hlength : cs.length ≤ digitLimit
  · rw [if_pos (.inl hlength)]
    cases numeral? 10 cs <;> simp [hlength]
  · rw [if_neg (by simp [hlength])]
    split <;> simp_all

end CatalogSteward.Decimal
