import CatalogSteward.Proofs.Hex
import CatalogSteward.Proofs.Yaml.Words
import Mathlib.Tactic.SplitIfs

/-!
# Escapes are read back

A text between double quotes is written character by character, with an escape for every character that
is no printable ASCII. A line may be broken behind a backslash; then a space at the start of the next line
is escaped too, because the reader does not count the blanks there.
-/

namespace CatalogSteward.Yaml.Quoted
open Style

variable {gap : Gap} {p : Position}

/-! ### Single characters -/

theorem escape?_letter {c l : Char} (h : letter? c = some l) : escape? l = some c := by
  have hcode {n : Nat} (hn : c.toNat = n) : Char.ofNat n = c := by rw [← hn, Char.ofNat_toNat]
  rw [letter?.eq_def] at h
  split at h
  case h_12 =>
    split_ifs at h with h85 hA0 h2028 h2029
    · obtain rfl := Option.some.inj h
      exact congrArg some (hcode h85)
    · obtain rfl := Option.some.inj h
      exact congrArg some (hcode hA0)
    · obtain rfl := Option.some.inj h
      exact congrArg some (hcode h2028)
    · obtain rfl := Option.some.inj h
      exact congrArg some (hcode h2029)
  all_goals
    obtain rfl := Option.some.inj h
    rfl

theorem isShown_of_letter? {c l : Char} (h : letter? c = some l) : IsShown l := by
  rw [letter?.eq_def] at h
  split at h
  case h_12 =>
    split_ifs at h
    all_goals
      obtain rfl := Option.some.inj h
      decide
  all_goals
    obtain rfl := Option.some.inj h
    decide

theorem charOfCode_hexUpper {width : Nat} {c : Char} (h : c.toNat < 16 ^ width) :
    charOfCode (Text.hexUpper width c.toNat) = .ok c := by
  have hvalid : c.toNat < 0xD800 ∨ 0xDFFF < c.toNat ∧ c.toNat < 0x110000 := c.valid
  rw [charOfCode, Text.ofHex?_hexUpper h]
  dsimp only
  rw [if_neg (by omega), if_neg (by omega), Char.ofNat_toNat]

/-- An escape is a letter, or the code of the character after a letter that tells its length. -/
theorem escape_cases (c : Char) :
    (∃ l, letter? c = some l ∧ escape c = ['\\', l]) ∨
      ∃ l width, codeLength? l = some (width + 1) ∧ escape? l = none ∧ c.toNat < 16 ^ (width + 1) ∧
        escape c = '\\' :: l :: Text.hexUpper (width + 1) c.toNat := by
  have hvalid : c.toNat < 0xD800 ∨ 0xDFFF < c.toNat ∧ c.toNat < 0x110000 := c.valid
  rw [escape]
  split
  next l hl => exact .inl ⟨l, hl, rfl⟩
  next =>
    refine .inr ?_
    split_ifs with hbyte hplane
    · exact ⟨'x', 1, rfl, rfl, by omega, rfl⟩
    · exact ⟨'u', 3, rfl, rfl, by omega, rfl⟩
    · exact ⟨'U', 7, rfl, rfl, by omega, rfl⟩

/-! ### Steps of the reader -/

/-- The text that the reader holds back. -/
def Place.held : Place → List Char
  | .text gap | .escape gap | .code gap _ _ => gap.text

theorem double_space (h : gap.isBroken = false) (p : Position) (cs : List Char) :
    Advances doubleFrom Place.held (.text gap) (p.spots (' ' :: cs)) [' '] (.text (gap.addBlank ' '))
      ((p.after ' ').spots cs) := by
  refine advances_of_eq ?_ (text_addBlank h ' ')
  rw [Position.spots_cons, doubleFrom, Position.spot_char, if_neg (by decide), if_pos (by decide)]

theorem double_word {c : Char} (hc : IsShown c) (hspace : c ≠ ' ') (hquote : c ≠ '"') (hslash : c ≠ '\\')
    (hpos : gap.isBroken = true → p.column ≠ 0) (cs : List Char) :
    Advances doubleFrom Place.held (.text gap) (p.spots (c :: cs)) [c] (.text .none)
      ((p.after c).spots cs) := by
  refine advances_of_before ?_ rfl rfl
  have hmark := unmarked hpos (c :: cs)
  rw [Position.spots_cons] at hmark ⊢
  rw [doubleFrom, Position.spot_char, hc.isBreak, if_neg Bool.false_ne_true, hc.isSpaceOrTab hspace,
    if_neg Bool.false_ne_true, hmark, if_neg Bool.false_ne_true, if_neg hquote, if_neg hslash]

/-- A backslash starts an escape. -/
theorem double_slash (hpos : gap.isBroken = true → p.column ≠ 0) (cs : List Char) :
    doubleFrom (.text gap) (p.spots ('\\' :: cs)) = doubleFrom (.escape gap) ((p.after '\\').spots cs) := by
  have hmark := unmarked hpos ('\\' :: cs)
  rw [Position.spots_cons] at hmark ⊢
  rw [doubleFrom, Position.spot_char, if_neg (by decide), if_neg (by decide), hmark,
    if_neg Bool.false_ne_true, if_neg (by decide), if_pos rfl]

theorem double_letter {c l : Char} (h : escape? l = some c) (gap : Gap) (p : Position) (cs : List Char) :
    doubleFrom (.escape gap) (p.spots (l :: cs)) =
      before gap [c] (doubleFrom (.text .none) ((p.after l).spots cs)) := by
  rw [Position.spots_cons, doubleFrom, Position.spot_char, h]

theorem double_code {width : Nat} {digits code cs : List Char} (hlength : code.length = width + 1)
    (hcode : ∀ d ∈ code, (Text.hexValue? d).isSome = true) {c : Char}
    (hc : charOfCode (digits.reverse ++ code) = .ok c) (gap : Gap) (p : Position) :
    doubleFrom (.code gap (width + 1) digits) (p.spots (code ++ cs)) =
      before gap [c] (doubleFrom (.text .none) ((p.afterAll code).spots cs)) := by
  induction code generalizing width digits p with
  | nil => cases hlength
  | cons d code ih =>
      have hd : ¬(Text.hexValue? d).isNone = true := by
        rw [Bool.not_eq_true, Option.isNone_eq_false_iff]
        exact hcode d List.mem_cons_self
      have hlast : (d :: digits).reverse ++ code = digits.reverse ++ d :: code := by simp
      rw [List.cons_append, Position.spots_cons, doubleFrom, Position.spot_char, if_neg hd]
      cases width with
      | zero =>
          obtain rfl := List.eq_nil_of_length_eq_zero (Nat.succ.inj hlength)
          rw [if_pos (Nat.le_refl 1), ← List.append_nil (d :: digits).reverse, hlast, hc]
          rfl
      | succ width =>
          rw [if_neg (by omega), Nat.add_sub_cancel]
          exact ih (Nat.succ.inj hlength) (fun e he => hcode e (List.mem_cons_of_mem d he)) (hlast ▸ hc) _

theorem length_hexUpper (width n : Nat) : (Text.hexUpper width n).length = width := by
  rw [Text.hexUpper, List.length_map, Text.length_hex]

theorem double_escape (c : Char) (hpos : gap.isBroken = true → p.column ≠ 0) (cs : List Char) :
    Advances doubleFrom Place.held (.text gap) (p.spots (escape c ++ cs)) [c] (.text .none)
      ((p.afterAll (escape c)).spots cs) := by
  refine advances_of_before ?_ rfl rfl
  rcases escape_cases c with ⟨l, hl, hescape⟩ | ⟨l, width, hlength, hnone, hc, hescape⟩
  · rw [hescape, List.cons_append, double_slash hpos, List.singleton_append,
      double_letter (escape?_letter hl)]
    rfl
  · rw [hescape, List.cons_append, double_slash hpos, List.cons_append, Position.spots_cons, doubleFrom,
      Position.spot_char, hnone, hlength]
    refine double_code (length_hexUpper _ _) (fun d hd => Text.isSome_hexValue?_hexUpper hd) ?_ gap _
    exact charOfCode_hexUpper hc

/-- The place behind an escaped break: after the backslash for a space that follows, if one follows. -/
def lineStart (spaceFollows : Bool) : Place :=
  if spaceFollows then .escape (.joined []) else .text (.joined [])

theorem double_lineBreak {indent : Nat} (hindent : indent ≠ 0) (hpos : gap.isBroken = true → p.column ≠ 0)
    (spaceFollows : Bool) :
    ∃ q : Position, q.column ≠ 0 ∧ ∀ cs,
      Advances doubleFrom Place.held (.text gap) (p.spots (escapedBreak indent spaceFollows ++ cs)) []
        (lineStart spaceFollows) (q.spots cs) := by
  have hline : ((p.after '\\').nextLine indent).column = indent := Position.nextLine_column _ _
  have hbreak (cs : List Char) :
      doubleFrom (.text gap) (p.spots ('\\' :: newLine indent ++ cs)) =
        before gap [] (doubleFrom (.text (.joined [])) (((p.after '\\').nextLine indent).spots cs)) := by
    rw [List.cons_append, double_slash hpos, newLine, List.cons_append, Position.spots_cons, doubleFrom]
    refine congrArg (before gap []) (Position.pass_spaces _ (fun q cs => ?_) indent cs)
    rw [Position.spots_cons, doubleFrom, Position.spot_char, if_neg (by decide), if_pos (by decide)]
    rfl
  cases spaceFollows with
  | false =>
      refine ⟨(p.after '\\').nextLine indent, by rwa [hline], fun cs => ?_⟩
      refine advances_of_before ?_ rfl rfl
      rw [escapedBreak, if_neg Bool.false_ne_true, List.append_nil]
      exact hbreak cs
  | true =>
      refine ⟨((p.after '\\').nextLine indent).after '\\', ?_, fun cs => ?_⟩
      · rw [Position.after_shown _ (by decide)]
        exact Nat.succ_ne_zero _
      · refine advances_of_before ?_ rfl rfl
        rw [escapedBreak, if_pos rfl, List.append_assoc, hbreak, List.singleton_append,
          double_slash (fun _ => by rwa [hline])]
        rfl

/-- A quote ends the scalar. -/
theorem double_quote (hpos : gap.isBroken = true → p.column ≠ 0) (cs : List Char) :
    doubleFrom (.text gap) (p.spots ('"' :: cs)) = .ok (gap.text, (p.after '"').spots cs) := by
  have hmark := unmarked hpos ('"' :: cs)
  rw [Position.spots_cons] at hmark ⊢
  rw [doubleFrom, Position.spot_char, if_neg (by decide), if_neg (by decide), hmark,
    if_neg Bool.false_ne_true, if_pos rfl]

/-! ### Whole texts -/

/-- Where the reader may stand before a text that is written from a column on. -/
inductive Stands (p : Position) (column : Nat) (cs : List Char) : Place → Prop
  | text (gap : Gap) (hgap : gap.isBroken = false) : Stands p column cs (.text gap)
  | line (hpos : p.column ≠ 0) (hcs : ∃ c ∈ cs.head?, c ≠ ' ') : Stands p column cs (.text (.joined []))
  | space (hcolumn : column ≤ width) (hcs : cs.head? = some ' ') :
      Stands p column cs (.escape (.joined []))

theorem stands_lineStart {p : Position} {column : Nat} {cs : List Char} (hpos : p.column ≠ 0)
    (hcolumn : cs.head? = some ' ' → column ≤ width) (hcs : cs.isEmpty = false) :
    Stands p column cs (lineStart (cs.head? == some ' ')) := by
  cases cs with
  | nil => cases hcs
  | cons c cs =>
      by_cases hc : c = ' '
      · subst hc
        exact .space (hcolumn rfl) rfl
      · have hhead : ((c :: cs).head? == some ' ') = false := by simpa using hc
        rw [hhead]
        exact .line hpos ⟨c, rfl, hc⟩

theorem isShown_of_not_isEscaped {c : Char} (h : isEscaped c = false) :
    IsShown c ∧ c ≠ '"' ∧ c ≠ '\\' := by
  simp only [isEscaped, Bool.or_eq_false_iff, beq_eq_false_iff_ne, Bool.not_eq_false', Bool.and_eq_true,
    decide_eq_true_eq] at h
  exact ⟨h.2, h.1.1, h.1.2⟩

/-- One character that stands for itself, not behind a backslash. -/
theorem Stands.shown {column : Nat} {c : Char} {cs : List Char} {gap : Gap}
    (h : Stands p column (c :: cs) (.text gap)) (hc : isEscaped c = false) :
    ∃ next : Gap, next.isBroken = false ∧ ∀ ds,
      Advances doubleFrom Place.held (.text gap) (p.spots (c :: ds)) [c] (.text next)
        ((p.after c).spots ds) := by
  obtain ⟨hshown, hquote, hslash⟩ := isShown_of_not_isEscaped hc
  by_cases hspace : c = ' '
  · subst hspace
    cases h with
    | text _ hgap =>
        refine ⟨gap.addBlank ' ', ?_, double_space hgap p⟩
        cases gap <;> first | rfl | cases hgap
    | line hpos hcs => simp at hcs
  · refine ⟨.none, rfl, double_word hshown hspace hquote hslash ?_⟩
    cases h with
    | text _ hgap => simp [hgap]
    | line hpos hcs => exact fun _ => hpos

theorem Stands.column_ne {column : Nat} {cs : List Char} (h : Stands p column cs (.text gap)) :
    gap.isBroken = true → p.column ≠ 0 := by
  cases h with
  | text _ hgap => simp [hgap]
  | line hpos _ => exact fun _ => hpos

/-- A character that stands for itself at the start of a line that an escaped break has opened. -/
theorem advances_lineStart {q : Position} {c : Char} (hc : isEscaped c = false) (hq : q.column ≠ 0)
    (cs : List Char) :
    Advances doubleFrom Place.held (lineStart (c == ' ')) (q.spots (c :: cs)) [c] (.text .none)
      ((q.after c).spots cs) := by
  obtain ⟨hshown, hquote, hslash⟩ := isShown_of_not_isEscaped hc
  by_cases hspace : c = ' '
  · subst hspace
    exact advances_of_before (double_letter rfl (.joined []) q cs) rfl rfl
  · rw [beq_false_of_ne hspace]
    exact double_word hshown hspace hquote hslash (fun _ => hq) cs

/-- The escaped text is read back as the text. -/
theorem advances_escaped {fold : Bool} {indent column : Nat} {first fresh : Bool} {cs : List Char}
    {place : Place} (hindent : indent ≠ 0) (hwidth : indent + 1 ≤ width)
    (hplace : Stands p column cs place) :
    ∃ (gap : Gap) (q : Position), gap.isBroken = false ∧ ∀ tail,
      Advances doubleFrom Place.held place (p.spots (escapedFrom fold indent column first fresh cs ++ tail)) cs
        (.text gap) (q.spots tail) := by
  induction cs generalizing place p column first fresh with
  | nil =>
      cases hplace with
      | text gap hgap => exact ⟨gap, p, hgap, fun tail => .refl _ _⟩
      | line _ hcs => simp at hcs
      | space _ hcs => cases hcs
  | cons c cs ih =>
      by_cases hspace : place = .escape (.joined [])
      · -- the space whose backslash has been read is not behind the width
        subst hspace
        obtain ⟨hcolumn, hc⟩ : column ≤ width ∧ c = ' ' := by
          cases hplace with
          | space hcolumn hcs => exact ⟨hcolumn, Option.some.inj hcs⟩
        subst hc
        obtain ⟨gap, q, hgap, hrest⟩ := ih (p := p.after ' ') (.text .none rfl)
        refine ⟨gap, q, hgap, fun tail => ?_⟩
        have hnot : ¬width < column := Nat.not_lt.mpr hcolumn
        rw [escapedFrom, if_neg (by decide), if_neg (by simp [hnot]), List.cons_append]
        exact (advances_of_before (double_letter rfl (.joined []) p _) rfl rfl).trans (hrest tail)
      · obtain ⟨gap, rfl⟩ : ∃ gap, place = .text gap := by
          cases hplace with
          | text gap _ => exact ⟨gap, rfl⟩
          | line _ _ => exact ⟨_, rfl⟩
          | space _ _ => exact absurd rfl hspace
        have hpos := hplace.column_ne
        rw [escapedFrom]
        dsimp only
        split
        · -- an escape, behind which the line may be broken
          split
          · next hbreak =>
            have hcs : cs.isEmpty = false := by simp_all
            obtain ⟨r, hr, hline⟩ := double_lineBreak (p := p.afterAll (escape c)) hindent
              (fun h : Gap.none.isBroken = true => absurd h (by decide)) (cs.head? == some ' ')
            have hstands : Stands r (indent + if (cs.head? == some ' ') = true then 1 else 0) cs
                (lineStart (cs.head? == some ' ')) :=
              stands_lineStart hr (fun h => by rwa [h, beq_self_eq_true, if_pos rfl]) hcs
            obtain ⟨next, q, hnext, hrest⟩ := ih hstands
            refine ⟨next, q, hnext, fun tail => ?_⟩
            rw [List.append_assoc, List.append_assoc]
            exact (double_escape c hpos _).trans ((hline _).trans (hrest tail))
          · obtain ⟨next, q, hnext, hrest⟩ := ih (p := p.afterAll (escape c)) (.text .none rfl)
            refine ⟨next, q, hnext, fun tail => ?_⟩
            rw [List.append_assoc]
            exact (double_escape c hpos _).trans (hrest tail)
        · next hescaped =>
          have hc : isEscaped c = false := by simpa using hescaped
          split
          · -- a character in front of which the line is broken
            obtain ⟨r, hr, hline⟩ := double_lineBreak hindent hpos (c == ' ')
            obtain ⟨next, q, hnext, hrest⟩ := ih (p := r.after c) (.text .none rfl)
            refine ⟨next, q, hnext, fun tail => ?_⟩
            rw [List.append_assoc, List.cons_append]
            exact (hline _).trans ((advances_lineStart hc hr _).trans (hrest tail))
          · obtain ⟨middle, hmiddle, hstep⟩ := hplace.shown hc
            obtain ⟨next, q, hnext, hrest⟩ := ih (p := p.after c) (.text middle hmiddle)
            refine ⟨next, q, hnext, fun tail => ?_⟩
            exact (hstep _).trans (hrest tail)

theorem suffix_double {place : Place} {spots rest : List Spot} {cs : List Char}
    (h : doubleFrom place spots = .ok (cs, rest)) : rest <:+ spots := by
  fun_induction doubleFrom place spots generalizing cs with
  | case1 | case4 | case11 | case12 | case14 => cases h
  | case5 _ s =>
      cases h
      exact List.suffix_cons s _
  | case2 _ s spots _ ih => exact (ih h).trans (List.suffix_cons s spots)
  | case3 _ s spots _ _ ih => exact (ih h).trans (List.suffix_cons s spots)
  | case6 _ s spots _ _ _ _ _ ih => exact (ih h).trans (List.suffix_cons s spots)
  | case9 _ s spots _ _ _ ih => exact (ih h).trans (List.suffix_cons s spots)
  | case15 _ _ _ s spots _ _ ih => exact (ih h).trans (List.suffix_cons s spots)
  | case7 _ s spots _ _ _ _ _ ih =>
      obtain ⟨_, h⟩ := of_before h
      exact (ih h).trans (List.suffix_cons s spots)
  | case8 _ s spots _ _ ih =>
      obtain ⟨_, h⟩ := of_before h
      exact (ih h).trans (List.suffix_cons s spots)
  | case10 _ s spots _ _ _ ih =>
      obtain ⟨_, h⟩ := of_before h
      exact (ih h).trans (List.suffix_cons s spots)
  | case13 _ _ _ s spots _ _ _ _ ih =>
      obtain ⟨_, h⟩ := of_before h
      exact (ih h).trans (List.suffix_cons s spots)

/-- A text between double quotes is read back, however its lines are broken. -/
theorem double_escaped (fold : Bool) {indent : Nat} (column : Nat) (hindent : indent ≠ 0)
    (hwidth : indent + 1 ≤ width) (p : Position) (cs tail : List Char) :
    doubleFrom (.text .none) (p.spots (escapedFrom fold indent column true false cs ++ '"' :: tail)) =
      .ok (cs, (p.afterAll (escapedFrom fold indent column true false cs ++ ['"'])).spots tail) := by
  obtain ⟨gap, q, hgap, hread⟩ := advances_escaped (p := p) hindent hwidth (.text .none rfl)
  have hend : doubleFrom (.text gap) (q.spots ('"' :: tail)) =
      .ok ((Place.text gap).held ++ [], (q.after '"').spots tail) := by
    rw [double_quote (by simp [hgap]), List.append_nil]
    rfl
  have hdouble := hread ('"' :: tail) [] _ hend
  rw [List.append_nil, Place.held, Gap.text, List.nil_append] at hdouble
  have hsuffix := suffix_double hdouble
  rw [← List.singleton_append, ← List.append_assoc] at hsuffix
  rw [hdouble, p.spots_of_suffix hsuffix (Position.length_spots _ _)]

/-! ### The characters of escaped texts -/

theorem isShown_of_hexValue? {c : Char} (h : (Text.hexValue? c).isSome = true) : IsShown c := by
  rw [Text.hexValue?] at h
  split_ifs at h with h1 h2 h3
  · exact ⟨by omega, by omega⟩
  · exact ⟨by omega, by omega⟩
  · exact ⟨by omega, by omega⟩
  · cases h

theorem isShown_escape (c : Char) : ∀ d ∈ escape c, IsShown d := by
  rcases escape_cases c with ⟨l, hl, h⟩ | ⟨l, width, hlength, -, -, h⟩
  · rw [h]
    exact List.forall_mem_cons.mpr ⟨by decide, List.forall_mem_singleton.mpr (isShown_of_letter? hl)⟩
  · have hl : IsShown l := by
      rw [codeLength?.eq_def] at hlength
      split at hlength <;> first | decide | cases hlength
    rw [h]
    refine List.forall_mem_cons.mpr ⟨by decide, List.forall_mem_cons.mpr ⟨hl, fun d hd => ?_⟩⟩
    exact isShown_of_hexValue? (Text.isSome_hexValue?_hexUpper hd)

theorem isEasy_escape (c : Char) : ∀ d ∈ escape c, isEasy d = true :=
  fun d hd => isEasy_of_isShown (isShown_escape c d hd)

theorem isEasy_escapedBreak (indent : Nat) (spaceFollows : Bool) :
    ∀ c ∈ escapedBreak indent spaceFollows, isEasy c = true := by
  rw [escapedBreak]
  refine List.forall_mem_append.mpr ⟨List.forall_mem_cons.mpr ⟨rfl, isEasy_newLine indent⟩, ?_⟩
  split
  · exact List.forall_mem_singleton.mpr rfl
  · exact List.forall_mem_nil _

theorem isEasy_escaped (cs : List Char) (fold : Bool) (indent column : Nat) (first fresh : Bool) :
    ∀ c ∈ escapedFrom fold indent column first fresh cs, isEasy c = true := by
  induction cs generalizing column first fresh with
  | nil => simp [escapedFrom]
  | cons d cs ih =>
      have hd (h : ¬isEscaped d = true) : isEasy d = true :=
        isEasy_of_isShown (isShown_of_not_isEscaped (Bool.eq_false_iff.mpr h)).1
      rw [escapedFrom]
      dsimp only
      split
      · split
        · exact List.forall_mem_append.mpr
            ⟨List.forall_mem_append.mpr ⟨isEasy_escape d, isEasy_escapedBreak _ _⟩, ih _ _ _⟩
        · exact List.forall_mem_append.mpr ⟨isEasy_escape d, ih _ _ _⟩
      · next h =>
        split
        · exact List.forall_mem_append.mpr
            ⟨isEasy_escapedBreak _ _, List.forall_mem_cons.mpr ⟨hd h, ih _ _ _⟩⟩
        · exact List.forall_mem_cons.mpr ⟨hd h, ih _ _ _⟩

/-- On one line a text between double quotes is written in printable characters. -/
theorem isShown_escaped (cs : List Char) (indent column : Nat) (first fresh : Bool) :
    ∀ c ∈ escapedFrom false indent column first fresh cs, IsShown c := by
  induction cs generalizing column first fresh with
  | nil => simp [escapedFrom]
  | cons d cs ih =>
      rw [escapedFrom]
      simp only [Bool.false_and, Bool.false_eq_true, if_false]
      split
      · exact List.forall_mem_append.mpr ⟨isShown_escape d, ih _ _ _⟩
      · next h =>
        exact List.forall_mem_cons.mpr ⟨(isShown_of_not_isEscaped (Bool.eq_false_iff.mpr h)).1, ih _ _ _⟩

theorem length_escape (c : Char) : (escape c).length ≤ 10 := by
  unfold escape
  split
  · exact (by decide : 2 ≤ 10)
  · split_ifs <;> simp only [List.length_cons, length_hexUpper] <;> decide

theorem length_escaped (indent column : Nat) (first fresh : Bool) (cs : List Char) :
    (escapedFrom false indent column first fresh cs).length ≤ 10 * cs.length := by
  induction cs generalizing column first fresh with
  | nil => exact Nat.zero_le _
  | cons c cs ih =>
      simp only [escapedFrom, Bool.false_and, Bool.false_eq_true, if_false]
      split
      · have hescape := length_escape c
        have hrest := ih (column + (escape c).length) false true
        simp only [List.length_append, List.length_cons]
        omega
      · have hrest := ih (column + 1) false false
        simp only [List.length_cons]
        omega

/-- On one line it does not matter where a text stands. -/
theorem escaped_unfolded (cs : List Char) (indent indent' column column' : Nat)
    (first first' fresh fresh' : Bool) :
    escapedFrom false indent column first fresh cs = escapedFrom false indent' column' first' fresh' cs := by
  induction cs generalizing column column' first first' fresh fresh' with
  | nil => rfl
  | cons c cs ih =>
      simp only [escapedFrom, Bool.false_and, Bool.false_eq_true, if_false]
      split
      · exact congrArg (escape c ++ ·) (ih _ _ _ _ _ _)
      · exact congrArg (c :: ·) (ih _ _ _ _ _ _)

end CatalogSteward.Yaml.Quoted
