import CatalogSteward.Proofs.Version
import Mathlib.Data.List.GetD
import Mathlib.Data.Prod.Lex
import Mathlib.Tactic.Lift

/-!
# The numbers of versions

The number of a version packs its parts into decimal places, four of them below the major part, which a
version before 10 divides between its second and its third part. A text made for a number keeps every part
within its places, and is read back as the number. A text made by hand may hold any parts: before version
10 what does not fit its two places is carried into the part before it. The gate for extensions compares
numbers, so it follows the dotted order of the carried version; no version that has extensions is turned
away, and one without them is let in only if its parts are carried.
-/

namespace CatalogSteward.Version
open Decimal

/-! ### Versions in ASCII digits -/

/-- A version written in ASCII digits: one to three groups with points between them, and blanks around. -/
structure IsWritten (text : String) (groups : List (List Char)) : Prop where
  nonempty : groups ≠ []
  few : groups.length ≤ 3
  digits : ∀ g ∈ groups, g ≠ [] ∧ ∀ c ∈ g, IsDigit c
  text_eq : ∃ front back : List Char, (∀ c ∈ front ++ back, Text.isBlank c = true) ∧
    text = String.ofList (front ++ ['.'].intercalate groups ++ back)

/-- A part of a version, counting from the major part; absent parts count as zero. -/
def part (groups : List (List Char)) (i : Nat) : Nat := (groups.map (valueFrom 0)).getD i 0

theorem trimBy_surrounded {p : Char → Bool} {front cs back : List Char}
    (hblank : ∀ c ∈ front ++ back, p c = true) (hcs : ∀ c ∈ cs, p c = false) :
    Text.trimBy p (front ++ cs ++ back) = cs := by
  obtain ⟨hfront, hback⟩ := List.forall_mem_append.mp hblank
  have hreverse : ∀ c ∈ cs.reverse, p c = false := fun c hc => hcs c (List.mem_reverse.mp hc)
  rw [Text.trimBy, List.append_assoc, List.dropWhile_append_of_pos hfront]
  cases cs with
  | nil =>
      rw [List.nil_append, List.dropWhile_eq_nil_iff.mpr hback]
      rfl
  | cons c cs =>
      have hfirst : ¬p c = true := Bool.eq_false_iff.mp (hcs c List.mem_cons_self)
      rw [List.cons_append, List.dropWhile_cons_of_neg hfirst, ← List.cons_append, List.reverse_append,
        List.dropWhile_append_of_pos fun c hc => hback c (List.mem_reverse.mp hc),
        dropWhile_eq_self hreverse, List.reverse_reverse]

theorem mem_intercalate {groups : List (List Char)} {c : Char} (h : c ∈ ['.'].intercalate groups) :
    c = '.' ∨ ∃ g ∈ groups, c ∈ g := by
  induction groups with
  | nil => cases h
  | cons g groups ih =>
      cases groups with
      | nil =>
          rw [List.intercalate_singleton] at h
          exact .inr ⟨g, List.mem_cons_self, h⟩
      | cons next groups =>
          rw [List.intercalate_cons_cons, List.append_assoc, List.mem_append, List.singleton_append,
            List.mem_cons] at h
          rcases h with hg | hpoint | hrest
          · exact .inr ⟨g, List.mem_cons_self, hg⟩
          · exact .inl hpoint
          · exact (ih hrest).imp_right fun ⟨other, hother, hmem⟩ => ⟨other, List.mem_cons_of_mem _ hother, hmem⟩

section

variable {α β ε : Type} {f : α → Except ε β} {xs : List α}

theorem mapM_ok {g : α → β} (h : ∀ x ∈ xs, f x = .ok (g x)) : xs.mapM f = .ok (xs.map g) := by
  induction xs with
  | nil => rfl
  | cons x xs ih =>
      obtain ⟨hx, hxs⟩ := List.forall_mem_cons.mp h
      rw [List.mapM_cons, hx, ih hxs]
      rfl

theorem mapM_error {e : ε} (h : xs.mapM f = .error e) : ∃ x ∈ xs, f x = .error e := by
  induction xs with
  | nil => cases h
  | cons x xs ih =>
      rw [List.mapM_cons] at h
      cases hx : f x with
      | error d =>
          rw [hx] at h
          cases h
          exact ⟨x, List.mem_cons_self, hx⟩
      | ok y =>
          rw [hx] at h
          cases hxs : xs.mapM f with
          | error d =>
              rw [hxs] at h
              cases h
              obtain ⟨z, hz, hfails⟩ := ih hxs
              exact ⟨z, List.mem_cons_of_mem _ hz, hfails⟩
          | ok ys =>
              rw [hxs] at h
              cases h

end

namespace IsWritten

variable {text : String} {groups : List (List Char)}

theorem strip_eq (h : IsWritten text groups) :
    Text.strip text = String.ofList (['.'].intercalate groups) := by
  obtain ⟨front, back, hblank, rfl⟩ := h.text_eq
  have hkept : ∀ c ∈ ['.'].intercalate groups, Text.isBlank c = false := by
    intro c hc
    obtain rfl | ⟨g, hg, hmem⟩ := mem_intercalate hc
    · decide
    · exact ((h.digits g hg).2 c hmem).isBlank
  rw [Text.strip, String.toList_ofList, trimBy_surrounded hblank hkept]

theorem isDotted (h : IsWritten text groups) : Version.isDotted text = true := by
  refine isDotted_iff.mpr ⟨groups, h.nonempty, h.few, fun g hg => ?_, h.strip_eq⟩
  obtain ⟨hne, hdigits⟩ := h.digits g hg
  exact ⟨hne, fun c hc => Text.isDigit_of_isDecimal (hdigits c hc).isDecimal⟩

theorem parts_eq (h : IsWritten text groups) : parts text = groups := by
  rw [parts, h.strip_eq, String.toList_ofList]
  exact partsFrom_intercalate h.nonempty fun g hg hpoint =>
    absurd ((h.digits g hg).2 '.' hpoint) (by decide)

/-- What is made of a group depends on its length. -/
theorem read_group (h : IsWritten text groups) {g : List Char} (hg : g ∈ groups) :
    read 10 (String.ofList g) =
      if g.length ≤ digitLimit then .ok (valueFrom 0 g : Int) else .error (.tooLong g.length) :=
  read_decimal (h.digits g hg).1 (h.digits g hg).2

/-- A written version has the number of its parts, if no group is too long to be read. -/
theorem parse_eq (h : IsWritten text groups) (hshort : ∀ g ∈ groups, g.length ≤ digitLimit) :
    parse text = .ok (number (part groups 0) (part groups 1) (part groups 2)) := by
  have hread : groups.mapM (fun g => read 10 (String.ofList g)) =
      .ok (groups.map fun g => (valueFrom 0 g : Int)) :=
    mapM_ok fun g hg => by rw [h.read_group hg, if_pos (hshort g hg)]
  have hpart (i : Nat) : (groups.map fun g => (valueFrom 0 g : Int)).getD i 0 = part groups i := by
    have hcast : groups.map (fun g => (valueFrom 0 g : Int)) = (groups.map (valueFrom 0)).map Nat.cast := by
      rw [List.map_map]
      rfl
    rw [hcast]
    exact List.getD_map _ 0 Nat.cast
  rw [parse, if_pos h.isDotted, h.parts_eq, hread]
  dsimp only
  rw [hpart, hpart, hpart]

/-- A written version with a group that is too long has no number. -/
theorem parse_long (h : IsWritten text groups) (hlong : ∃ g ∈ groups, digitLimit < g.length) :
    ∃ digits, digitLimit < digits ∧ parse text = .error (.notNumber (.tooLong digits)) := by
  obtain ⟨long, hlong, hlength⟩ := hlong
  cases hread : groups.mapM fun g => read 10 (String.ofList g) with
  | ok ns =>
      obtain ⟨n, hn⟩ := mapM_eq_ok_iff.mp ⟨ns, hread⟩ long hlong
      rw [h.read_group hlong, if_neg (Nat.not_le.mpr hlength)] at hn
      cases hn
  | error refusal =>
      obtain ⟨g, hg, hrefused⟩ := mapM_error hread
      rw [h.read_group hg] at hrefused
      split at hrefused
      · cases hrefused
      · next hlength =>
          obtain rfl := Except.error.inj hrefused
          refine ⟨g.length, Nat.not_le.mp hlength, ?_⟩
          rw [parse, if_pos h.isDotted, h.parts_eq, hread]

end IsWritten

/-! ### Numbers are written and read back -/

/-- The groups of digits that are written for a number. -/
def groupsOf (n : Nat) : List (List Char) :=
  if 10 ≤ n / 10000 then [natChars (n / 10000), natChars (n % 10000)]
  else [natChars (n / 10000), natChars (n / 100 % 100), natChars (n % 100)]

theorem mem_groupsOf {n : Nat} {g : List Char} (h : g ∈ groupsOf n) : ∃ m ≤ n, g = natChars m := by
  unfold groupsOf at h
  split at h
  all_goals
    simp only [List.mem_cons, List.not_mem_nil, or_false] at h
  · rcases h with rfl | rfl
    · exact ⟨_, Nat.div_le_self .., rfl⟩
    · exact ⟨_, Nat.mod_le .., rfl⟩
  · rcases h with rfl | rfl | rfl
    · exact ⟨_, Nat.div_le_self .., rfl⟩
    · exact ⟨_, (Nat.mod_le ..).trans (Nat.div_le_self ..), rfl⟩
    · exact ⟨_, Nat.mod_le .., rfl⟩

theorem format_eq (n : Nat) : format n = String.ofList (['.'].intercalate (groupsOf n)) := by
  have hmajor : (n : Int).fdiv 10000 = (n / 10000 : Nat) := (Int.ofNat_fdiv n 10000).symm
  have hminor : (n : Int).fmod 10000 = (n % 10000 : Nat) := (Int.ofNat_fmod n 10000).symm
  have hsecond : ((n : Int).fdiv 100).fmod 100 = (n / 100 % 100 : Nat) := by
    rw [Int.ofNat_fmod, Int.ofNat_fdiv]
    rfl
  have hthird : (n : Int).fmod 100 = (n % 100 : Nat) := (Int.ofNat_fmod n 100).symm
  have htext (m : Nat) : (Decimal.text (m : Int)).toList = natChars m := String.toList_ofList ..
  apply String.toList_injective
  unfold format groupsOf
  rw [hmajor, hminor, hsecond, hthird]
  by_cases hmodern : 10 ≤ n / 10000
  · rw [if_pos hmodern, if_pos (by omega), String.toList_append, String.toList_append, htext, htext]
    simp [List.intercalate]
  · rw [if_neg hmodern, if_neg (by omega), String.toList_append, String.toList_append, String.toList_append,
      String.toList_append, htext, htext, htext]
    simp [List.intercalate]

theorem isWritten_format (n : Nat) : IsWritten (format n) (groupsOf n) where
  nonempty := by
    unfold groupsOf
    split <;> exact List.cons_ne_nil _ _
  few := by
    unfold groupsOf
    split <;> simp
  digits := by
    intro g hg
    obtain ⟨m, -, rfl⟩ := mem_groupsOf hg
    obtain ⟨c, cs, hcs, -⟩ := natChars_head m
    exact ⟨hcs ▸ List.cons_ne_nil c cs, isDigit_natChars m⟩
  text_eq := ⟨[], [], by simp, by rw [format_eq, List.nil_append, List.append_nil]⟩

/-- The parts that are written for a number make up the number again. -/
theorem number_groupsOf (n : Nat) :
    number (part (groupsOf n) 0) (part (groupsOf n) 1) (part (groupsOf n) 2) = n := by
  unfold number part groupsOf
  by_cases hmodern : 10 ≤ n / 10000
  · simp [hmodern, valueFrom_natChars]
    omega
  · simp [hmodern, valueFrom_natChars]
    omega

/-- The text of a version number that can be written is read back as the number, and passes the rule for
versions as it is. So numbers with the same text are the same. -/
theorem number_survives_format (n : Int) (hn : 0 ≤ n) (hwritable : isWritable n = true) :
    parse (format n) = .ok n ∧ Rules.checkVersion (format n) = .ok (format n) ∧
      ∀ m : Int, 0 ≤ m → isWritable m = true → format m = format n → m = n := by
  have hread (n : Int) (hn : 0 ≤ n) (hwritable : isWritable n = true) : parse (format n) = .ok n := by
    lift n to Nat using hn
    rw [(isWritten_format n).parse_eq, number_groupsOf]
    intro g hg
    obtain ⟨m, hm, rfl⟩ := mem_groupsOf hg
    apply length_natChars_of_isWritable
    simp only [isWritable, decide_eq_true_eq, Int.natAbs_natCast] at hwritable ⊢
    exact Nat.lt_of_le_of_lt hm hwritable
  refine ⟨hread n hn hwritable, ?_, ?_⟩
  · lift n to Nat using hn
    have hwritten := isWritten_format n
    rw [Rules.checkVersion, if_pos hwritten.isDotted, hwritten.strip_eq, ← format_eq]
  · intro m hm hmwritable htext
    have hboth := hread m hm hmwritable
    rw [htext, hread n hn hwritable] at hboth
    exact (Except.ok.inj hboth).symm

/-- The first numbers with a version of two parts and the last with three, and the largest of 4300 digits. -/
theorem number_survives_format_boundary :
    isWritable 99999 = true ∧ isWritable 100000 = true ∧
      parse (format 99999) = .ok 99999 ∧ parse (format 100000) = .ok 100000 ∧
      format 99999 = "9.99.99" ∧ format 100000 = "10.0" := by
  have hlast : isWritable 99999 = true := by decide +kernel
  have hfirst : isWritable 100000 = true := by decide +kernel
  exact ⟨hlast, hfirst, (number_survives_format 99999 (by decide) hlast).1,
    (number_survives_format 100000 (by decide) hfirst).1, by decide +kernel, by decide +kernel⟩

/-! ### The gate for extensions -/

/-- Before version 10 a second and a third part have two places each. -/
def IsNarrow (groups : List (List Char)) : Prop :=
  part groups 0 < 10 → part groups 1 < 100 ∧ part groups 2 < 100

/-- The major and the minor part once what does not fit two places has been carried into the part before. -/
def carried (groups : List (List Char)) : Nat × Nat :=
  let minor := part groups 1 + part groups 2 / 100
  (part groups 0 + minor / 100, minor % 100)

theorem supportsExtensions_number (major minor patch : Nat) :
    supportsExtensions (number major minor patch) = true ↔
      9 < major + (minor + patch / 100) / 100 ∨
        9 = major + (minor + patch / 100) / 100 ∧ 1 ≤ (minor + patch / 100) % 100 := by
  rw [supportsExtensions, decide_eq_true_eq, firstWithExtensions, number]
  split <;> omega

/-- The gate follows the dotted order of the carried version, for parts of any value that can be read. So
from 9.1 on a version is let in; and if no part is carried, no other version is. A version with a part
that is too long to be read has no number. -/
theorem gate_follows_carried_order {text : String} {groups : List (List Char)} (h : IsWritten text groups) :
    ((∀ g ∈ groups, g.length ≤ digitLimit) →
      ∃ n, parse text = .ok n ∧
        (supportsExtensions n = true ↔ toLex (9, 1) ≤ toLex (carried groups)) ∧
        (toLex (9, 1) ≤ toLex (part groups 0, part groups 1) → supportsExtensions n = true) ∧
        (IsNarrow groups →
          (supportsExtensions n = true ↔ toLex (9, 1) ≤ toLex (part groups 0, part groups 1)))) ∧
      ((∃ g ∈ groups, digitLimit < g.length) →
        ∃ digits, digitLimit < digits ∧ parse text = .error (.notNumber (.tooLong digits))) := by
  refine ⟨fun hshort => ⟨_, h.parse_eq hshort, ?_, ?_, ?_⟩, h.parse_long⟩
  · rw [supportsExtensions_number, Prod.Lex.toLex_le_toLex, carried]
  · rw [supportsExtensions_number, Prod.Lex.toLex_le_toLex]
    dsimp only
    omega
  · intro hnarrow
    rw [supportsExtensions_number, Prod.Lex.toLex_le_toLex]
    unfold IsNarrow at hnarrow
    dsimp only
    omega

/-- The first version with extensions, between blanks, and one before it. -/
theorem gate_follows_carried_order_padded :
    IsWritten "\t9.1 \n" [['9'], ['1']] ∧
      (∃ n, parse "\t9.1 \n" = .ok n ∧ supportsExtensions n = true) ∧
      IsWritten "9.0.23" [['9'], ['0'], ['2', '3']] ∧
      ∃ n, parse "9.0.23" = .ok n ∧ ¬supportsExtensions n = true := by
  have hnew : IsWritten "\t9.1 \n" [['9'], ['1']] :=
    ⟨by decide, by decide, by simp [IsDigit], ['\t'], [' ', '\n'], by simp [Text.isBlank], by decide⟩
  have hold : IsWritten "9.0.23" [['9'], ['0'], ['2', '3']] :=
    ⟨by decide, by decide, by simp [IsDigit], [], [], by simp, by decide⟩
  obtain ⟨n, hn, -, hlets, -⟩ := (gate_follows_carried_order hnew).1 (by decide)
  obtain ⟨m, hm, -, -, hdecides⟩ := (gate_follows_carried_order hold).1 (by decide)
  refine ⟨hnew, ⟨n, hn, hlets (by decide)⟩, hold, m, hm, ?_⟩
  rw [hdecides fun _ => by decide, Prod.Lex.toLex_le_toLex]
  decide

/-- A version before 9.1 is let in when its third part is carried. -/
theorem carried_patch_opens_the_gate :
    IsWritten "9.0.100" [['9'], ['0'], ['1', '0', '0']] ∧ parse "9.0.100" = .ok 90100 ∧
      supportsExtensions 90100 = true ∧
      ¬toLex (9, 1) ≤ toLex (part [['9'], ['0'], ['1', '0', '0']] 0, part [['9'], ['0'], ['1', '0', '0']] 1) := by
  have hwritten : IsWritten "9.0.100" [['9'], ['0'], ['1', '0', '0']] :=
    ⟨by decide, by decide, by simp [IsDigit], [], [], by simp, by decide⟩
  refine ⟨hwritten, hwritten.parse_eq (by decide), by decide, ?_⟩
  rw [Prod.Lex.toLex_le_toLex]
  decide

end CatalogSteward.Version
