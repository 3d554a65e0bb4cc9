import CatalogSteward.Rules
import CatalogSteward.Proofs.Decimal
import Mathlib.Data.Bool.AllAny
import Mathlib.Data.List.DropRight
import Mathlib.Tactic.SplitIfs

/-!
# Versions that have a number

A dotted version is one to three groups of digits with points between them. It has a number if its digits
are numerals, in whatever script, and no group is too long to be read. A text of ASCII digits and points
has a number unless it is no dotted version at all or has a group that is too long.
-/

namespace CatalogSteward.Version
open Decimal

variable {text : String}

/-! ### Groups of digits -/

/-- The parts of a text are what stands between its points. -/
theorem intercalate_partsFrom (held cs : List Char) :
    ['.'].intercalate (partsFrom held cs) = held.reverse ++ cs := by
  have hne (held cs : List Char) : partsFrom held cs ≠ [] := by
    induction held, cs using partsFrom.induct with
    | case1 held => exact List.cons_ne_nil _ _
    | case2 held cs ih => exact List.cons_ne_nil _ _
    | case3 held c cs hpoint ih => rwa [partsFrom.eq_3 _ _ _ hpoint]
  induction held, cs using partsFrom.induct with
  | case1 held => simp [partsFrom]
  | case2 held cs ih =>
      rw [partsFrom, List.intercalate_cons_of_ne_nil (hne [] cs), ih]
      simp
  | case3 held c cs hpoint ih =>
      rw [partsFrom.eq_3 _ _ _ hpoint, ih, List.reverse_cons, List.append_assoc]
      rfl

/-- What holds no point goes to the part that is being read. -/
theorem partsFrom_append {part : List Char} (h : '.' ∉ part) (held rest : List Char) :
    partsFrom held (part ++ rest) = partsFrom (part.reverse ++ held) rest := by
  induction part generalizing held with
  | nil => rfl
  | cons c part ih =>
      rw [List.mem_cons, not_or] at h
      rw [List.cons_append, partsFrom.eq_3 _ _ _ (Ne.symm h.1), ih h.2, List.reverse_cons, List.append_assoc]
      rfl

/-- Groups without points are the parts of their text. -/
theorem partsFrom_intercalate {groups : List (List Char)} (hne : groups ≠ []) (h : ∀ g ∈ groups, '.' ∉ g) :
    partsFrom [] (['.'].intercalate groups) = groups := by
  induction groups with
  | nil => exact absurd rfl hne
  | cons g groups ih =>
      obtain ⟨hg, hgroups⟩ := List.forall_mem_cons.mp h
      have hsplit := partsFrom_append hg []
      cases groups with
      | nil =>
          rw [List.intercalate_singleton, ← List.append_nil g, hsplit]
          simp [partsFrom]
      | cons next groups =>
          rw [List.intercalate_cons_cons, List.append_assoc, hsplit, List.singleton_append, partsFrom,
            ih (List.cons_ne_nil _ _) hgroups]
          simp

/-- One to three groups of digits, with points between them. -/
def IsGrouped (text : String) : Prop :=
  ∃ groups : List (List Char), groups ≠ [] ∧ groups.length ≤ 3 ∧
    (∀ g ∈ groups, g ≠ [] ∧ ∀ c ∈ g, Text.isDigit c = true) ∧
    text = String.ofList (['.'].intercalate groups)

theorem isDotted_iff : isDotted text = true ↔ IsGrouped (Text.strip text) := by
  have hdotted : isDotted text = true ↔
      (parts text).length ≤ 3 ∧ ∀ g ∈ parts text, g ≠ [] ∧ ∀ c ∈ g, Text.isDigit c = true := by
    simp [isDotted]
  rw [hdotted]
  constructor
  · rintro ⟨hlength, hgroups⟩
    have htext : ['.'].intercalate (parts text) = (Text.strip text).toList := by
      rw [parts, intercalate_partsFrom, List.reverse_nil, List.nil_append]
    refine ⟨parts text, ?_, hlength, hgroups, by rw [htext, String.ofList_toList]⟩
    intro hnone
    rw [hnone] at htext
    rw [parts, ← htext] at hnone
    cases hnone
  · rintro ⟨groups, hne, hlength, hgroups, htext⟩
    have hparts : parts text = groups := by
      rw [parts, htext, String.toList_ofList]
      exact partsFrom_intercalate hne fun g hg hpoint =>
        absurd ((hgroups g hg).2 '.' hpoint) (by decide)
    rw [hparts]
    exact ⟨hlength, hgroups⟩

theorem strip_strip (s : String) : Text.strip (Text.strip s) = Text.strip s := by
  have htrim (cs : List Char) : Text.trimBy Text.isBlank cs =
      (cs.dropWhile Text.isBlank).rdropWhile Text.isBlank := rfl
  rw [Text.strip, Text.strip, String.toList_ofList]
  generalize s.toList = cs
  have hfront : (Text.trimBy Text.isBlank cs).dropWhile Text.isBlank = Text.trimBy Text.isBlank cs := by
    rw [List.dropWhile_eq_self_iff]
    intro hlength
    have htrimmed : Text.trimBy Text.isBlank cs <+: cs.dropWhile Text.isBlank :=
      htrim cs ▸ List.rdropWhile_prefix _ _
    have hfirst := List.dropWhile_eq_self_iff.mp (List.dropWhile_idempotent Text.isBlank cs)
    rw [htrimmed.getElem hlength]
    exact hfirst (Nat.lt_of_lt_of_le hlength htrimmed.length_le)
  rw [htrim (Text.trimBy Text.isBlank cs), hfront, htrim cs, List.rdropWhile_idempotent _ _]

/-- The rule for versions lets groups of digits through, without the blanks around them. -/
theorem checkVersion_eq_ok_iff {version : String} :
    Rules.checkVersion text = .ok version ↔ version = Text.strip text ∧ IsGrouped version := by
  rw [Rules.checkVersion]
  split_ifs with hdotted
  · constructor
    · intro h
      obtain rfl := Except.ok.inj h
      exact ⟨rfl, isDotted_iff.mp hdotted⟩
    · rintro ⟨rfl, -⟩
      rfl
  · exact ⟨fun h => (by cases h), fun ⟨hversion, hgrouped⟩ =>
      absurd (isDotted_iff.mpr (hversion ▸ hgrouped)) hdotted⟩

/-- A version that passed once passes again, as it is. -/
theorem checkVersion_checked {version : String} (h : Rules.checkVersion text = .ok version) :
    Rules.checkVersion version = .ok version := by
  obtain ⟨rfl, hgrouped⟩ := checkVersion_eq_ok_iff.mp h
  exact checkVersion_eq_ok_iff.mpr ⟨(strip_strip text).symm, hgrouped⟩

/-! ### Numbers -/

/-- A version whose digits are numerals of any script, with no group that is too long to be read. -/
def IsNumeric (text : String) : Prop :=
  ∀ part ∈ parts text, (∀ c ∈ part, Text.isDecimal c = true) ∧ part.length ≤ digitLimit

instance (text : String) : Decidable (IsNumeric text) :=
  decidable_of_iff
    ((parts text).all (fun part => part.all Text.isDecimal && decide (part.length ≤ digitLimit)) = true)
    (by simp only [IsNumeric, List.all_eq_true, Bool.and_eq_true, decide_eq_true_eq])

theorem mapM_eq_ok_iff {α β ε : Type} {f : α → Except ε β} {xs : List α} :
    (∃ ys, xs.mapM f = .ok ys) ↔ ∀ x ∈ xs, ∃ y, f x = .ok y := by
  induction xs with
  | nil => exact ⟨fun _ _ h => (by cases h), fun _ => ⟨[], rfl⟩⟩
  | cons x xs ih =>
      rw [List.forall_mem_cons, ← ih, List.mapM_cons]
      cases f x with
      | error e => exact ⟨fun ⟨_, h⟩ => (by cases h), fun ⟨⟨_, h⟩, _⟩ => (by cases h)⟩
      | ok y =>
          cases xs.mapM f with
          | error e => exact ⟨fun ⟨_, h⟩ => (by cases h), fun ⟨_, ⟨_, h⟩⟩ => (by cases h)⟩
          | ok ys => exact ⟨fun _ => ⟨⟨y, rfl⟩, ys, rfl⟩, fun _ => ⟨y :: ys, rfl⟩⟩

/-- A dotted version has a number exactly if it is numeric. -/
theorem parse_dotted (h : isDotted text = true) :
    (IsNumeric text → ∃ n, parse text = .ok n) ∧
      (¬IsNumeric text → ∃ refusal, parse text = .error (.notNumber refusal)) := by
  have hread :
      (∃ ns, (parts text).mapM (fun part => read 10 (String.ofList part)) = .ok ns) ↔ IsNumeric text := by
    simp only [isDotted, Bool.and_eq_true, List.all_eq_true, Bool.not_eq_true', List.isEmpty_eq_false_iff] at h
    rw [mapM_eq_ok_iff, IsNumeric]
    exact forall₂_congr fun part hpart => read_eq_ok_iff (h.2 part hpart).1 (h.2 part hpart).2
  rw [← hread, parse, if_pos h]
  cases (parts text).mapM fun part => read 10 (String.ofList part) with
  | ok ns => exact ⟨fun _ => ⟨_, rfl⟩, fun hnone => absurd ⟨ns, rfl⟩ hnone⟩
  | error r => exact ⟨fun ⟨_, hns⟩ => (by cases hns), fun _ => ⟨r, rfl⟩⟩

/-- Blanks around a dotted version do not matter to its number. -/
theorem parse_strip (h : isDotted text = true) : parse (Text.strip text) = parse text := by
  have hparts : parts (Text.strip text) = parts text := by rw [parts, parts, strip_strip]
  have hdotted : isDotted (Text.strip text) = true := by
    rw [isDotted_iff, strip_strip]
    exact isDotted_iff.mp h
  rw [parse, if_pos hdotted, parse, if_pos h, hparts]

/-! ### ASCII digits -/

/-- A text of ASCII digits and points that has no part too long for a number. -/
structure IsPlain (text : String) : Prop where
  chars : ∀ c ∈ text.toList, c = '.' ∨ IsDigit c
  short : ∀ part ∈ parts text, part.length ≤ digitLimit

instance (text : String) : Decidable (IsPlain text) :=
  decidable_of_iff
    (text.toList.all (fun c => c = '.' ∨ IsDigit c) = true ∧ ∀ part ∈ parts text, part.length ≤ digitLimit)
    ⟨fun h => ⟨List.all_iff_forall_prop.mp h.1, h.2⟩,
      fun h => ⟨List.all_iff_forall_prop.mpr h.chars, h.short⟩⟩

theorem mem_partsFrom {held cs part : List Char} (h : part ∈ partsFrom held cs) :
    ∀ c ∈ part, c ∈ held ∨ c ∈ cs ∧ c ≠ '.' := by
  induction held, cs using partsFrom.induct with
  | case1 held =>
      intro c hc
      rw [partsFrom, List.mem_singleton] at h
      rw [h] at hc
      exact .inl (List.mem_reverse.mp hc)
  | case2 held cs ih =>
      intro c hc
      rw [partsFrom, List.mem_cons] at h
      obtain rfl | h := h
      · exact .inl (List.mem_reverse.mp hc)
      · obtain hnone | ⟨hmem, hpoint⟩ := ih h c hc
        · cases hnone
        · exact .inr ⟨List.mem_cons_of_mem _ hmem, hpoint⟩
  | case3 held d cs hpoint ih =>
      intro c hc
      rw [partsFrom.eq_3 _ _ _ hpoint] at h
      obtain hheld | ⟨hmem, hne⟩ := ih h c hc
      · obtain rfl | hheld := List.mem_cons.mp hheld
        · exact .inr ⟨List.mem_cons_self, hpoint⟩
        · exact .inl hheld
      · exact .inr ⟨List.mem_cons_of_mem _ hmem, hne⟩

theorem IsPlain.parts_eq (h : IsPlain text) : parts text = partsFrom [] text.toList := by
  have hblank : ∀ c ∈ text.toList, Text.isBlank c = false := by
    intro c hc
    obtain rfl | hdigit := h.chars c hc
    · decide
    · exact hdigit.isBlank
  rw [parts, Text.strip, String.toList_ofList, trimBy_eq_self hblank]

theorem IsPlain.isDigit (h : IsPlain text) : ∀ part ∈ parts text, ∀ c ∈ part, IsDigit c := by
  intro part hpart c hc
  rw [h.parts_eq] at hpart
  obtain hnone | ⟨hmem, hpoint⟩ := mem_partsFrom hpart c hc
  · cases hnone
  · exact (h.chars c hmem).resolve_left hpoint

theorem IsPlain.isNumeric (h : IsPlain text) : IsNumeric text := by
  intro part hpart
  exact ⟨fun c hc => (h.isDigit part hpart c hc).isDecimal, h.short part hpart⟩

/-- A plain text has a number, unless it is no dotted version at all. -/
theorem IsPlain.parse_ne (h : IsPlain text) (refusal : Decimal.Refusal) :
    parse text ≠ .error (.notNumber refusal) := by
  by_cases hdotted : isDotted text = true
  · obtain ⟨n, hn⟩ := (parse_dotted hdotted).1 h.isNumeric
    rw [hn]
    simp
  · rw [parse, if_neg hdotted]
    simp

theorem partsFrom_digits {held cs : List Char} (h : ∀ c ∈ cs, IsDigit c) :
    partsFrom held cs = [held.reverse ++ cs] := by
  induction cs generalizing held with
  | nil => rw [partsFrom, List.append_nil]
  | cons c cs ih =>
      obtain ⟨hc, hcs⟩ := List.forall_mem_cons.mp h
      rw [partsFrom.eq_3 _ _ _ (hc.ne (by decide)), ih hcs, List.reverse_cons, List.append_assoc]
      rfl

theorem strip_digits {cs : List Char} (h : ∀ c ∈ cs, IsDigit c) :
    Text.strip (String.ofList cs) = String.ofList cs := by
  rw [Text.strip, String.toList_ofList, trimBy_eq_self fun c hc => (h c hc).isBlank]

/-- A text of digits alone is a version of one part. -/
theorem parts_digits {cs : List Char} (h : ∀ c ∈ cs, IsDigit c) : parts (String.ofList cs) = [cs] := by
  rw [parts, strip_digits h, String.toList_ofList, partsFrom_digits h]
  rfl

theorem isDotted_digits {cs : List Char} (hne : cs ≠ []) (h : ∀ c ∈ cs, IsDigit c) :
    isDotted (String.ofList cs) = true := by
  have hdigits : cs.all Text.isDigit = true :=
    List.all_eq_true.mpr fun c hc => Text.isDigit_of_isDecimal (h c hc).isDecimal
  rw [isDotted, parts_digits h]
  simp [hne, hdigits]

theorem checkVersion_digits {cs : List Char} (hne : cs ≠ []) (h : ∀ c ∈ cs, IsDigit c) :
    Rules.checkVersion (String.ofList cs) = .ok (String.ofList cs) := by
  rw [Rules.checkVersion, if_pos (isDotted_digits hne h), strip_digits h]

/-- A version of too many digits has no number. -/
theorem parse_long {cs : List Char} (h : ∀ c ∈ cs, IsDigit c) (hlong : digitLimit < cs.length) :
    parse (String.ofList cs) = .error (.notNumber (.tooLong cs.length)) := by
  have hne : cs ≠ [] := List.ne_nil_of_length_pos (Nat.zero_lt_of_lt hlong)
  have hread : read 10 (String.ofList cs) = .error (.tooLong cs.length) := by
    rw [read_decimal hne h, if_neg (Nat.not_le.mpr hlong)]
  rw [parse, if_pos (isDotted_digits hne h), parts_digits h, List.mapM_cons, hread]
  rfl

example : IsPlain "9.6.3" ∧ (parse "9.6.3").toOption = some 90603 := by decide +kernel

end CatalogSteward.Version
