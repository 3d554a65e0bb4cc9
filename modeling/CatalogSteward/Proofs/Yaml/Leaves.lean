import CatalogSteward.Proofs.Decimal
import CatalogSteward.Proofs.Yaml.Parsing

/-!
# Truth values and numbers are read back

The words for truth values and the numerals of natural numbers have the form of their type, and the reader
gives the value that was written.
-/

namespace CatalogSteward.Yaml
open Style Lexer

/-- Characters without a meaning of their own, and without blanks between them, stand without quotes. -/
theorem isFlowing_of_word {cs : List Char} (hne : cs ≠ []) (hstart : startsWithMark cs = false)
    (h : ∀ c ∈ cs, IsShown c ∧ c ≠ ' ' ∧ c ≠ ':' ∧ c ≠ '#') : IsFlowing cs ∧ ' ' ∉ cs := by
  have hflows (last : Option Char) (hlast : last ≠ some ' ' ∧ last ≠ some '\n') : Plain.Flows last cs := by
    clear hne hstart
    induction cs generalizing last with
    | nil => exact hlast
    | cons c cs ih =>
        obtain ⟨⟨hc, hspace, hcolon, hnumber⟩, hcs⟩ := List.forall_mem_cons.mp h
        refine ⟨hc, fun h => absurd h hcolon, fun h => absurd h hnumber, ih hcs _ ?_⟩
        exact ⟨by simpa using hspace, by simpa using hc.ne_of_lt (d := '\n') (by decide)⟩
  have hspace : ' ' ∉ cs := fun hmem => (h _ hmem).2.1 rfl
  exact ⟨⟨hne, fun hhead => hspace (List.mem_of_mem_head? hhead), hstart, hflows none (by simp)⟩, hspace⟩

namespace Leaf

theorem isFlowing_bool (b : Bool) : (Leaf.bool b).IsFlowing := by
  cases b <;> exact isFlowing_of_word (by decide) (by decide) (List.all_iff_forall_prop.mp (by decide))

theorem isRead_bool (b : Bool) : (Leaf.bool b).IsRead := by
  cases b <;> rfl

/-! ### Numerals -/

open Decimal

theorem isFlowing_nat (n : Nat) : (Leaf.int n).IsFlowing := by
  obtain ⟨c, cs, hcs, -⟩ := natChars_head n
  have hdigits := isDigit_natChars n
  have hc : IsDigit c := hdigits c (hcs ▸ List.mem_cons_self)
  have hne : natChars n ≠ [] := hcs ▸ List.cons_ne_nil c cs
  have hmark (marks : List Char) (hmarks : marks.all (fun d => d.toNat < 0x30 ∨ 0x39 < d.toNat) = true) :
      marks.contains c = false := by
    rw [List.contains_eq_mem, decide_eq_false_iff_not]
    exact fun hmem => hc.ne (List.all_iff_forall_prop.mp hmarks c hmem) rfl
  have hstart : startsWithMark (natChars n) = false := by
    rw [hcs, startsWithMark, hmark _ (by decide), hmark _ (by decide)]
    rfl
  refine isFlowing_of_word hne hstart fun d hd => ?_
  have hd := hdigits d hd
  refine ⟨?_, hd.ne (by decide), hd.ne (by decide), hd.ne (by decide)⟩
  obtain ⟨low, high⟩ := hd
  exact ⟨by omega, by omega⟩

section
variable {c : Char} {cs : List Char}

/-- A text that starts with a digit is no word. -/
theorem beq_word (hc : IsDigit c) (cs : List Char) {word : List Char}
    (hword : word.head?.any (fun d => d.toNat < 0x30 || 0x39 < d.toNat) = true) :
    (c :: cs == word) = false := by
  rw [beq_eq_false_iff_ne]
  rintro rfl
  obtain ⟨low, high⟩ := hc
  simp only [List.head?_cons, Option.any_some, Bool.or_eq_true, decide_eq_true_eq] at hword
  omega

theorem isBool_digits (hc : IsDigit c) (cs : List Char) : Tag.isBool (c :: cs) = false := by
  have hwords : ∀ entry ∈ Tag.boolWords,
      [entry.1.toList, entry.1.toList.map Char.toUpper, entry.1.capitalize.toList].all
        (·.head?.any fun d => d.toNat < 0x30 || 0x39 < d.toNat) = true := by decide
  rw [Tag.isBool, List.any_eq_false]
  intro entry hentry
  have hword := hwords entry hentry
  simp only [List.all_cons, List.all_nil, Bool.and_true, Bool.and_eq_true] at hword
  simp [Tag.isSpelling, beq_word hc cs hword.1, beq_word hc cs hword.2.1, beq_word hc cs hword.2.2]

theorem dropSign_digits (hc : IsDigit c) (cs : List Char) : Tag.dropSign (c :: cs) = c :: cs := by
  rw [Tag.dropSign.eq_3]
  · rintro _ h
    exact hc.ne (by decide) (List.cons.inj h).1
  · rintro _ h
    exact hc.ne (by decide) (List.cons.inj h).1

theorem splitAtPoint_digits (h : ∀ d ∈ cs, IsDigit d) : Tag.splitAtPoint cs = none := by
  have hpoint : cs.dropWhile (· ≠ '.') = [] := by
    induction cs with
    | nil => rfl
    | cons d cs ih =>
        obtain ⟨hd, hcs⟩ := List.forall_mem_cons.mp h
        rw [List.dropWhile_cons, if_pos (by simpa using hd.ne (d := '.') (by decide))]
        exact ih hcs
  rw [Tag.splitAtPoint, hpoint]

theorem isReal_digits (h : ∀ d ∈ c :: cs, IsDigit d) : Tag.isReal (c :: cs) = false := by
  have hc := h c List.mem_cons_self
  have hword (words : List String)
      (hwords : ∀ word ∈ words, word.toList.head?.any (fun d => d.toNat < 0x30 || 0x39 < d.toNat) = true) :
      words.any (·.toList == c :: cs) = false := by
    rw [List.any_eq_false]
    intro word hmem
    rw [Bool.beq_comm, beq_word hc cs (hwords word hmem)]
    exact Bool.false_ne_true
  rw [Tag.isReal, dropSign_digits hc, splitAtPoint_digits h, hword _ (by decide), hword _ (by decide)]
  rfl

theorem isInt_digits (h : ∀ d ∈ c :: cs, IsDigit d) (hzero : c ≠ '0') : Tag.isInt (c :: cs) = true := by
  have hc := h c List.mem_cons_self
  have hdigits : Tag.isDigits (c :: cs) = true := by
    rw [Tag.isDigits, hc.isDigit, Bool.true_and, List.all_eq_true]
    intro d hd
    rw [Tag.isDigitOrLine, (h d (List.mem_cons_of_mem c hd)).isDigit]
    rfl
  rw [Tag.isInt, dropSign_digits hc]
  split
  · simp_all
  · simp_all
  · simp_all
  · simp_all
  · simp [hdigits, hzero]

theorem ofPlain_digits (h : ∀ d ∈ c :: cs, IsDigit d) (hzero : c ≠ '0') : Tag.ofPlain (c :: cs) = .int := by
  have hlast : (c :: cs).getLast? ≠ some '\n' := fun hlast =>
    (h _ (List.mem_of_getLast? hlast)).ne (by decide) rfl
  rw [Tag.ofPlain, Tag.dropFinalBreak, if_neg fun hbreak => hlast hbreak.2, Tag.ofForm,
    isBool_digits (h c List.mem_cons_self), isReal_digits h, isInt_digits h hzero]
  rfl

end

/-- A numeral has the form of an integer and of nothing else. -/
theorem ofPlain_natChars (n : Nat) : Tag.ofPlain (natChars n) = .int := by
  obtain ⟨c, cs, hcs, hzero⟩ := natChars_head n
  have hdigits := isDigit_natChars n
  rw [hcs] at hdigits ⊢
  by_cases hc : c = '0'
  · obtain ⟨-, rfl⟩ := hzero hc
    rw [hc]
    rfl
  · exact ofPlain_digits hdigits hc

theorem integerValue_natChars {n : Nat} (h : isWritable n = true) : integerValue (natChars n) = .ok n := by
  obtain ⟨c, cs, hcs, hzero⟩ := natChars_head n
  have hdigits := isDigit_natChars n
  have hunderscore : (natChars n).filter (· ≠ '_') = natChars n :=
    List.filter_eq_self.mpr fun c hc => by simpa using (hdigits c hc).ne (d := '_') (by decide)
  have hread := read_natChars h
  have hcolon : (natChars n).contains ':' = false := by
    rw [List.contains_eq_mem, decide_eq_false_iff_not]
    exact fun hmem => (hdigits _ hmem).ne (d := ':') (by decide) rfl
  rw [integerValue, hunderscore]
  rw [hcs] at hdigits hread hcolon ⊢
  have hc : IsDigit c := hdigits c List.mem_cons_self
  have hsign : splitNumber (c :: cs) = .ok (false, c :: cs) := by
    rw [splitNumber]
    · exact List.cons_ne_nil c cs
    · rintro _ h
      exact hc.ne (by decide) (List.cons.inj h).1
    · rintro _ h
      exact hc.ne (by decide) (List.cons.inj h).1
  rw [hsign]
  by_cases hfirst : c = '0'
  · obtain ⟨rfl, rfl⟩ := hzero hfirst
    rw [hfirst]
    rfl
  · dsimp only [bind, Except.bind]
    split
    case h_6 =>
      rw [hcolon, if_neg Bool.false_ne_true, readInteger, hread]
      rfl
    case h_5 hnil => cases hnil
    all_goals next hcons => exact absurd (List.cons.inj hcons).1 hfirst

theorem isRead_nat {n : Nat} (h : isWritable n = true) : (Leaf.int n).IsRead := by
  change Node.buildScalar (Tag.ofPlain (natChars n)) (String.ofList (natChars n)) = _
  rw [ofPlain_natChars, Node.buildScalar, if_neg (by decide), scalarValue, String.toList_ofList,
    integerValue_natChars h]
  rfl

end Leaf

end CatalogSteward.Yaml
