import CatalogSteward.Proofs.Json.Strings
import CatalogSteward.Proofs.Number.Shortest
import Mathlib.Data.Bool.AllAny

/-!
# Values are read back

A value is read back from its text, whatever follows the text, as long as no number goes on there. The
depth that the reader is given suffices, since every level of a value takes at least one character.
-/

namespace CatalogSteward.Json

open Decimal (IsDigit natChars)
open Binary64 (Numeral signChars digitsValue powerChars)

mutual

/-- All numbers of a value are kept as the pair with the greatest significand. -/
def IsKept : Json → Prop
  | .real x => x.IsKept
  | .list items => AreKept items
  | .object fields => FieldsAreKept fields
  | _ => True

def AreKept : List Json → Prop
  | [] => True
  | j :: js => j.IsKept ∧ AreKept js

def FieldsAreKept : List (String × Json) → Prop
  | [] => True
  | (_, j) :: fs => j.IsKept ∧ FieldsAreKept fs

end

/-! ### Numbers -/

/-- A text is read as a number, if no more of it follows. -/
structure IsNumber (j : Json) (cs : List Char) : Prop where
  number : number? cs = some j
  chars : ∀ c ∈ cs, isNumberChar c = true
  ne : cs ≠ []
  ne_sign : cs ≠ ['-']

theorem isAsciiDigit_iff {c : Char} : isAsciiDigit c = true ↔ IsDigit c := by
  simp only [isAsciiDigit, Bool.and_eq_true, decide_eq_true_eq, Char.le_def, UInt32.le_iff_toNat_le]
  exact Iff.rfl

theorem isNumberChar_of_isDigit {c : Char} (h : IsDigit c) : isNumberChar c = true := by
  have hdigit := isAsciiDigit_iff.mpr h
  rw [isAsciiDigit] at hdigit
  simp [isNumberChar, hdigit]

theorem isPlain_of_isNumberChar {c : Char} (h : isNumberChar c = true) : IsPlain c := by
  simp only [isNumberChar, Bool.or_eq_true, decide_eq_true_eq] at h
  rcases h with ((((h | rfl) | rfl) | rfl) | rfl) | rfl
  · obtain ⟨hlow, hhigh⟩ := isAsciiDigit_iff.mp h
    exact ⟨by omega, by omega⟩
  all_goals decide

theorem isSpace_of_isNumberChar {c : Char} (h : isNumberChar c = true) : isSpace c = false := by
  by_contra hspace
  simp only [isSpace, Bool.not_eq_false, Bool.or_eq_true, decide_eq_true_eq] at hspace
  rcases hspace with ((rfl | rfl) | rfl) | rfl
  all_goals exact absurd h (by decide)

theorem takeWhile_digits {ds rest : List Char} (hds : ∀ c ∈ ds, IsDigit c)
    (hrest : ∀ c ∈ rest.head?, ¬IsDigit c) :
    (ds ++ rest).takeWhile isAsciiDigit = ds ∧ (ds ++ rest).dropWhile isAsciiDigit = rest := by
  have hall : ∀ c ∈ ds, isAsciiDigit c = true := fun c hc => isAsciiDigit_iff.mpr (hds c hc)
  rw [List.takeWhile_append_of_pos hall, List.dropWhile_append_of_pos hall]
  cases rest with
  | nil => exact ⟨List.append_nil ds, rfl⟩
  | cons c rest =>
      have hc : isAsciiDigit c = false := by
        rw [← Bool.not_eq_true, isAsciiDigit_iff]
        exact hrest c rfl
      simp [hc]

theorem isWhole_of_leading {ds : List Char} (hne : ds ≠ []) (h : ds = ['0'] ∨ ds.head? ≠ some '0') :
    isWhole ds = true := by
  rcases h with rfl | h
  · rfl
  · simp [isWhole, hne, h]

theorem number?_digits (negative : Bool) {ds : List Char} (hds : ∀ c ∈ ds, IsDigit c) (hne : ds ≠ [])
    (hlead : ds = ['0'] ∨ ds.head? ≠ some '0') :
    number? (signChars negative ++ ds) =
      some (.int (if negative then -(digitsValue ds : Int) else digitsValue ds)) := by
  obtain ⟨htake, hdrop⟩ := @takeWhile_digits ds [] hds (by simp)
  rw [List.append_nil] at htake hdrop
  have hwhole := isWhole_of_leading hne hlead
  cases negative with
  | true => simp [number?, signChars, htake, hdrop, hwhole]
  | false =>
      obtain ⟨c, cs, rfl⟩ := List.exists_cons_of_ne_nil hne
      have hc : c ≠ '-' := (hds c List.mem_cons_self).ne (by decide)
      simp only [number?, signChars, Bool.false_eq_true, if_false, List.nil_append]
      split
      · next h => exact absurd (List.cons.inj h).1 hc
      · simp [htake, hdrop, hwhole]

theorem tail_cases (n : Numeral) :
    (∃ c cs, n.tail = '.' :: c :: cs ∧ IsDigit c) ∨ ∃ cs, n.tail = 'e' :: cs := by
  unfold Numeral.tail
  cases hfraction : n.fraction with
  | nil =>
      obtain ⟨e, he⟩ := Option.ne_none_iff_exists'.mp (n.marked.resolve_left (not_not.mpr hfraction))
      rw [he]
      exact .inr ⟨_, rfl⟩
  | cons c cs => exact .inl ⟨c, _, rfl, n.fraction_digits c (hfraction ▸ List.mem_cons_self)⟩

theorem number?_numeral (negative : Bool) (n : Numeral) :
    number? (signChars negative ++ n.chars) = (Binary64.magnitude? negative n.chars).map .real := by
  have htail : ∀ c ∈ n.tail.head?, ¬IsDigit c := by
    intro c hc
    rcases n.head?_tail c hc with rfl | rfl <;> decide
  obtain ⟨htake, hdrop⟩ := takeWhile_digits n.whole_digits htail
  change n.chars.takeWhile isAsciiDigit = n.whole at htake
  change n.chars.dropWhile isAsciiDigit = n.tail at hdrop
  have hwhole := isWhole_of_leading n.whole_ne n.leading
  cases negative with
  | true =>
      rcases tail_cases n with ⟨c, cs, htail, hc⟩ | ⟨cs, htail⟩
      · simp [number?, signChars, htake, hdrop, hwhole, htail, isAsciiDigit_iff.mpr hc]
      · simp [number?, signChars, htake, hdrop, hwhole, htail]
  | false =>
      obtain ⟨d, ds, hds⟩ := List.exists_cons_of_ne_nil n.whole_ne
      have hd : d ≠ '-' := (n.whole_digits d (hds ▸ List.mem_cons_self)).ne (by decide)
      have hchars : n.chars = d :: (ds ++ n.tail) := by rw [Numeral.chars, hds, List.cons_append]
      rw [hchars] at htake hdrop ⊢
      simp only [number?, signChars, Bool.false_eq_true, if_false, List.nil_append]
      split
      · next h => exact absurd (List.cons.inj h).1 hd
      · dsimp only
        rw [htake, hdrop]
        rcases tail_cases n with ⟨c, cs, htail, hc⟩ | ⟨cs, htail⟩
        · simp [hwhole, htail, isAsciiDigit_iff.mpr hc]
        · simp [hwhole, htail]

theorem isNumberChar_sign (negative : Bool) : ∀ c ∈ signChars negative, isNumberChar c = true := by
  cases negative <;> exact List.all_eq_true.mp rfl

theorem ne_sign_of_digit {negative : Bool} {cs : List Char} (h : ∃ c ∈ cs, IsDigit c) :
    signChars negative ++ cs ≠ [] ∧ signChars negative ++ cs ≠ ['-'] := by
  obtain ⟨c, hc, hdigit⟩ := h
  have hmem := List.mem_append_right (signChars negative) hc
  constructor
  · exact List.ne_nil_of_mem hmem
  · intro heq
    rw [heq, List.mem_singleton] at hmem
    exact hdigit.ne (by decide) hmem

theorem isNumber_signed (negative : Bool) (n : Nat) :
    IsNumber (.int (if negative then -(n : Int) else n)) (signChars negative ++ natChars n) := by
  obtain ⟨c, cs, hcs, hzero⟩ := Decimal.natChars_head n
  have hdigits := Decimal.isDigit_natChars n
  have hne : natChars n ≠ [] := hcs ▸ List.cons_ne_nil c cs
  obtain ⟨hneText, hneSign⟩ :=
    @ne_sign_of_digit negative _ ⟨c, hcs ▸ List.mem_cons_self, hdigits c (hcs ▸ List.mem_cons_self)⟩
  refine ⟨?_, ?_, hneText, hneSign⟩
  · have hlead : natChars n = ['0'] ∨ (natChars n).head? ≠ some '0' := by
      by_cases hc : c = '0'
      · exact .inl (by rw [hcs, hc, (hzero hc).2])
      · exact .inr (by rw [hcs]; simpa using hc)
    rw [number?_digits negative hdigits hne hlead, Binary64.digitsValue_natChars]
  · exact List.forall_mem_append.mpr
      ⟨isNumberChar_sign negative, fun c hc => isNumberChar_of_isDigit (hdigits c hc)⟩

theorem isNumber_int (n : Int) : IsNumber (.int n) (Decimal.chars n) := by
  cases n with
  | ofNat n => exact isNumber_signed false n
  | negSucc n => exact isNumber_signed true (n + 1)

theorem isNumberChar_powerChars (power : Option Int) : ∀ c ∈ powerChars power, isNumberChar c = true := by
  cases power with
  | none => simp [powerChars]
  | some e =>
      intro c hc
      rw [powerChars, List.mem_cons, List.mem_cons] at hc
      rcases hc with rfl | rfl | hc
      · decide
      · split <;> decide
      · exact isNumberChar_of_isDigit (Binary64.isDigit_powerDigits _ c hc)

theorem isNumberChar_numeral (n : Numeral) : ∀ c ∈ n.chars, isNumberChar c = true := by
  intro c hc
  rw [Numeral.chars, Numeral.tail, List.mem_append, List.mem_append] at hc
  rcases hc with hc | hc | hc
  · exact isNumberChar_of_isDigit (n.whole_digits c hc)
  · split at hc
    · cases hc
    · rcases List.mem_cons.mp hc with rfl | hc
      · decide
      · exact isNumberChar_of_isDigit (n.fraction_digits c hc)
  · exact isNumberChar_powerChars n.power c hc

theorem isNumber_finite {m : Nat} {e : Int} (negative : Bool) (h : Binary64.IsCanonical m e) :
    IsNumber (.real (.finite negative m e)) (Binary64.finite negative m e).chars := by
  obtain ⟨n, hchars, hread⟩ := Binary64.chars_finite negative h
  obtain ⟨c, cs, hcs⟩ := List.exists_cons_of_ne_nil n.whole_ne
  have hc : c ∈ n.whole := hcs ▸ List.mem_cons_self
  obtain ⟨hneText, hneSign⟩ := @ne_sign_of_digit negative _
    ⟨c, List.mem_append_left n.tail hc, n.whole_digits c hc⟩
  rw [hchars]
  refine ⟨?_, ?_, hneText, hneSign⟩
  · rw [number?_numeral, hread, Option.map_some]
  · exact List.forall_mem_append.mpr ⟨isNumberChar_sign negative, isNumberChar_numeral n⟩

/-! ### Values -/

/-- What follows a number does not go on with it. -/
def EndsNumber (cs : List Char) : Prop := ∀ c ∈ cs.head?, isNumberChar c = false

theorem takeWhile_number {cs rest : List Char} (hcs : ∀ c ∈ cs, isNumberChar c = true) (hrest : EndsNumber rest) :
    (cs ++ rest).takeWhile isNumberChar = cs ∧ (cs ++ rest).dropWhile isNumberChar = rest := by
  rw [List.takeWhile_append_of_pos hcs, List.dropWhile_append_of_pos hcs]
  cases rest with
  | nil => exact ⟨List.append_nil cs, rfl⟩
  | cons c rest => simp [hrest c rfl]

theorem value?_number {j : Json} {cs rest : List Char} (h : IsNumber j cs) (hrest : EndsNumber rest)
    (fuel : Nat) : value? (fuel + 1) (cs ++ rest) = some (j, rest) := by
  obtain ⟨htake, hdrop⟩ := takeWhile_number h.chars hrest
  obtain ⟨c, ds, rfl⟩ := List.exists_cons_of_ne_nil h.ne
  have hc := h.chars c List.mem_cons_self
  have hne {d : Char} (hd : isNumberChar d = false) : c ≠ d := by
    rintro rfl
    rw [hd] at hc
    cases hc
  have hskip : skipSpace (c :: ds ++ rest) = c :: (ds ++ rest) := by
    simp [skipSpace, isSpace_of_isNumberChar hc]
  -- The only literal that starts like a number is that of the negative infinity.
  have hinfinity : c = '-' → ∀ cs, ds ++ rest ≠ 'I' :: cs := by
    rintro rfl cs heq
    obtain ⟨d, ds', rfl⟩ : ∃ d ds', ds = d :: ds' :=
      List.exists_cons_of_ne_nil fun hnil => h.ne_sign (by rw [hnil])
    have hd := h.chars d (List.mem_cons_of_mem _ List.mem_cons_self)
    rw [(List.cons.inj heq).1] at hd
    exact absurd hd (by decide)
  rw [value?.eq_2, hskip]
  split
  · next heq => exact absurd (List.cons.inj heq).1 (hne (by decide))
  · next heq => exact absurd (List.cons.inj heq).1 (hne (by decide))
  · next heq => exact absurd (List.cons.inj heq).1 (hne (by decide))
  · next heq => exact absurd (List.cons.inj heq).1 (hne (by decide))
  · next heq => exact absurd (List.cons.inj heq).1 (hne (by decide))
  · next heq => exact absurd (List.cons.inj heq).2 (hinfinity (List.cons.inj heq).1 _)
  · next heq => exact absurd (List.cons.inj heq).1 (hne (by decide))
  · next heq => exact absurd (List.cons.inj heq).1 (hne (by decide))
  · next heq => exact absurd (List.cons.inj heq).1 (hne (by decide))
  · rw [← List.cons_append, htake, hdrop, h.number, Option.map_some]

/-! ### Spaces -/

theorem skipSpace_of_not_isSpace {c : Char} (h : isSpace c = false) (cs : List Char) :
    skipSpace (c :: cs) = c :: cs := by
  simp [skipSpace, h]

theorem value?_space (fuel : Nat) (cs : List Char) : value? fuel (' ' :: cs) = value? fuel cs := by
  cases fuel with
  | zero => rw [value?.eq_1, value?.eq_1]
  | succ fuel => rw [value?.eq_2, value?.eq_2]; rfl

theorem items?_space (fuel : Nat) (cs : List Char) : items? fuel (' ' :: cs) = items? fuel cs := by
  cases fuel with
  | zero => rw [items?.eq_1, items?.eq_1]
  | succ fuel => rw [items?.eq_2, items?.eq_2, value?_space]

theorem fields?_space (fuel : Nat) (cs : List Char) : fields? fuel (' ' :: cs) = fields? fuel cs := by
  cases fuel with
  | zero => rw [fields?.eq_1, fields?.eq_1]
  | succ fuel => rw [fields?.eq_2, fields?.eq_2]; rfl

/-! ### Collections -/

theorem endsNumber_items (js : List Json) (rest : List Char) : EndsNumber (writeItems js ++ rest) := by
  intro c hc
  cases js with
  | nil =>
      rw [writeItems] at hc
      obtain rfl := Option.some.inj hc
      decide
  | cons j js =>
      rw [writeItems] at hc
      obtain rfl := Option.some.inj hc
      decide

theorem endsNumber_fields (fs : List (String × Json)) (rest : List Char) :
    EndsNumber (writeFields fs ++ rest) := by
  intro c hc
  cases fs with
  | nil =>
      rw [writeFields] at hc
      obtain rfl := Option.some.inj hc
      decide
  | cons f fs =>
      obtain ⟨k, j⟩ := f
      rw [writeFields] at hc
      obtain rfl := Option.some.inj hc
      decide

theorem isNumber_real {x : Binary64} (h : x.IsKept) :
    IsNumber (.real x) (writeReal x) ∨ x = .nan ∨ ∃ negative, x = .infinity negative := by
  cases x with
  | nan => exact .inr (.inl rfl)
  | infinity negative => exact .inr (.inr ⟨negative, rfl⟩)
  | finite negative m e => exact .inl (isNumber_finite negative h)

/-- The text of a value starts neither with a space nor with the end of a list. -/
theorem write_head {j : Json} (h : j.IsKept) :
    ∃ c cs, write j = c :: cs ∧ isSpace c = false ∧ c ≠ ']' := by
  have hnumber {k : Json} {cs : List Char} (hk : IsNumber k cs) :
      ∃ c ds, cs = c :: ds ∧ isSpace c = false ∧ c ≠ ']' := by
    obtain ⟨c, ds, rfl⟩ := List.exists_cons_of_ne_nil hk.ne
    have hc := hk.chars c List.mem_cons_self
    refine ⟨c, ds, rfl, isSpace_of_isNumberChar hc, ?_⟩
    rintro rfl
    exact absurd hc (by decide)
  cases j with
  | null => exact ⟨'n', _, rfl, by decide, by decide⟩
  | bool b =>
      cases b
      · exact ⟨'f', _, rfl, by decide, by decide⟩
      · exact ⟨'t', _, rfl, by decide, by decide⟩
  | int n => exact hnumber (isNumber_int n)
  | real x =>
      rcases isNumber_real h with hx | rfl | ⟨negative, rfl⟩
      · exact hnumber hx
      · exact ⟨'N', _, rfl, by decide, by decide⟩
      · cases negative
        · exact ⟨'I', _, rfl, by decide, by decide⟩
        · exact ⟨'-', _, rfl, by decide, by decide⟩
  | str s => exact ⟨'"', _, rfl, by decide, by decide⟩
  | list items =>
      cases items with
      | nil => exact ⟨'[', _, rfl, by decide, by decide⟩
      | cons j js => exact ⟨'[', _, rfl, by decide, by decide⟩
  | object fields =>
      cases fields with
      | nil => exact ⟨'\x7b', _, rfl, by decide, by decide⟩
      | cons f fs => exact ⟨'\x7b', _, rfl, by decide, by decide⟩

theorem string?_writeString (cs rest : List Char) :
    ∃ body, writeString cs ++ rest = '"' :: body ∧ string? body = some (cs, rest) := by
  refine ⟨cs.flatMap escapeChar ++ '"' :: rest, ?_, string?_flatMap cs rest⟩
  rw [writeString, List.cons_append, List.cons_append, List.append_assoc, List.singleton_append]

mutual

/-- A value is read back from its text. -/
theorem value?_write : ∀ (j : Json) {fuel : Nat} {rest : List Char}, j.IsKept →
    (write j).length < fuel → EndsNumber rest → value? fuel (write j ++ rest) = some (j, rest)
  | j, 0, _, _, h, _ => absurd h (Nat.not_lt_zero _)
  | .null, fuel + 1, rest, _, _, _ => rfl
  | .bool true, fuel + 1, rest, _, _, _ => rfl
  | .bool false, fuel + 1, rest, _, _, _ => rfl
  | .int n, fuel + 1, rest, _, _, hrest => value?_number (isNumber_int n) hrest fuel
  | .real x, fuel + 1, rest, hkept, _, hrest => by
      rcases isNumber_real hkept with hx | rfl | ⟨negative, rfl⟩
      · exact value?_number hx hrest fuel
      · rfl
      · cases negative <;> rfl
  | .str s, fuel + 1, rest, _, _, _ => by
      obtain ⟨body, hbody, hread⟩ := string?_writeString s.toList rest
      rw [write, hbody, value?.eq_2, skipSpace_of_not_isSpace (by decide)]
      simp [hread]
  | .list [], fuel + 1, rest, _, _, _ => rfl
  | .list (j :: js), fuel + 1, rest, hkept, hlength, _ => by
      obtain ⟨c, cs, hcs, hspace, hclose⟩ := write_head hkept.1
      have hitems : items? fuel (write j ++ (writeItems js ++ rest)) = some (j :: js, rest) :=
        items?_write j js hkept (by simpa [write] using hlength)
      rw [hcs, List.cons_append] at hitems
      rw [write, List.cons_append, List.cons_append, List.append_assoc, value?.eq_2,
        skipSpace_of_not_isSpace (by decide), hcs, List.cons_append]
      simp only
      rw [skipSpace_of_not_isSpace hspace]
      split
      · next heq => exact absurd (List.cons.inj heq).1 hclose
      · rw [hitems, Option.map_some]
  | .object [], fuel + 1, rest, _, _, _ => rfl
  | .object ((k, j) :: fs), fuel + 1, rest, hkept, hlength, _ => by
      have hfields : fields? fuel (writeString k.toList ++ (':' :: ' ' :: write j ++ (writeFields fs ++ rest))) =
          some ((k, j) :: fs, rest) := fields?_write k j fs hkept (by simpa [write] using hlength)
      obtain ⟨body, hbody, -⟩ := string?_writeString k.toList (':' :: ' ' :: write j ++ (writeFields fs ++ rest))
      have htext : write (.object ((k, j) :: fs)) ++ rest =
          '\x7b' :: (writeString k.toList ++ (':' :: ' ' :: write j ++ (writeFields fs ++ rest))) := by
        simp [write]
      rw [hbody] at hfields htext
      rw [htext, value?.eq_2, skipSpace_of_not_isSpace (by decide)]
      simp only
      rw [skipSpace_of_not_isSpace (by decide)]
      change (fields? fuel ('"' :: body)).map _ = _
      rw [hfields, Option.map_some]

theorem items?_write : ∀ (j : Json) (js : List Json) {fuel : Nat} {rest : List Char}, AreKept (j :: js) →
    (write j ++ writeItems js).length < fuel →
    items? fuel (write j ++ (writeItems js ++ rest)) = some (j :: js, rest)
  | _, _, 0, _, _, h => absurd h (Nat.not_lt_zero _)
  | j, js, fuel + 1, rest, hkept, hlength => by
      rw [List.length_append] at hlength
      have hpositive : 0 < (writeItems js).length := by cases js <;> simp [writeItems]
      have hitem : value? fuel (write j ++ (writeItems js ++ rest)) = some (j, writeItems js ++ rest) :=
        value?_write j hkept.1 (by omega) (endsNumber_items js rest)
      rw [items?.eq_2, hitem]
      cases js with
      | nil => rfl
      | cons k ks =>
          have hitems : items? fuel (write k ++ (writeItems ks ++ rest)) = some (k :: ks, rest) := by
            apply items?_write k ks hkept.2
            rw [writeItems, List.length_append, List.length_cons, List.length_cons] at hlength
            rw [List.length_append]
            omega
          change (items? fuel (' ' :: (write k ++ writeItems ks ++ rest))).map _ = _
          rw [items?_space, List.append_assoc, hitems]
          rfl

theorem fields?_write : ∀ (k : String) (j : Json) (fs : List (String × Json)) {fuel : Nat} {rest : List Char},
    FieldsAreKept ((k, j) :: fs) →
    (writeString k.toList ++ (':' :: ' ' :: (write j ++ writeFields fs))).length < fuel →
    fields? fuel (writeString k.toList ++ (':' :: ' ' :: write j ++ (writeFields fs ++ rest))) =
      some ((k, j) :: fs, rest)
  | _, _, _, 0, _, _, h => absurd h (Nat.not_lt_zero _)
  | k, j, fs, fuel + 1, rest, hkept, hlength => by
      rw [List.length_append, List.length_cons, List.length_cons, List.length_append] at hlength
      have hitem : value? fuel (write j ++ (writeFields fs ++ rest)) = some (j, writeFields fs ++ rest) :=
        value?_write j hkept.1 (by omega) (endsNumber_fields fs rest)
      obtain ⟨body, hbody, hread⟩ := string?_writeString k.toList (':' :: ' ' :: write j ++ (writeFields fs ++ rest))
      rw [hbody, fields?.eq_2, skipSpace_of_not_isSpace (by decide)]
      simp only [hread, Option.bind_eq_bind, Option.bind_some, List.cons_append]
      rw [skipSpace_of_not_isSpace (by decide)]
      simp only [value?_space, hitem, Option.bind_some, String.ofList_toList]
      cases fs with
      | nil => rfl
      | cons f fs =>
          obtain ⟨l, i⟩ := f
          have hfields : fields? fuel (writeString l.toList ++ (':' :: ' ' :: write i ++ (writeFields fs ++ rest))) =
              some ((l, i) :: fs, rest) := by
            apply fields?_write l i fs hkept.2
            simp only [writeFields, List.length_append, List.length_cons] at hlength ⊢
            omega
          change (fields? fuel (' ' :: (writeString l.toList ++ ':' :: ' ' :: write i ++ writeFields fs ++ rest))).map _ = _
          rw [fields?_space]
          simp only [List.append_assoc, List.cons_append] at hfields ⊢
          rw [hfields]
          rfl

end

theorem isPlain_word {cs : List Char} (h : (cs.all fun c => IsPlain c) = true) : ∀ c ∈ cs, IsPlain c :=
  List.all_iff_forall_prop.mp h

theorem isPlain_number {j : Json} {cs : List Char} (h : IsNumber j cs) : ∀ c ∈ cs, IsPlain c :=
  fun c hc => isPlain_of_isNumberChar (h.chars c hc)

theorem isPlain_real {x : Binary64} (h : x.IsKept) : ∀ c ∈ writeReal x, IsPlain c := by
  rcases isNumber_real h with hx | rfl | ⟨negative, rfl⟩
  · exact isPlain_number hx
  · exact isPlain_word (by decide)
  · cases negative <;> exact isPlain_word (by decide)

mutual

/-- A value is written in printable ASCII. -/
theorem isPlain_write : ∀ j : Json, j.IsKept → ∀ c ∈ write j, IsPlain c
  | .null, _ => isPlain_word (by decide)
  | .bool true, _ => isPlain_word (by decide)
  | .bool false, _ => isPlain_word (by decide)
  | .int n, _ => isPlain_number (isNumber_int n)
  | .real _, h => isPlain_real h
  | .str s, _ => isPlain_writeString s.toList
  | .list [], _ => isPlain_word (by decide)
  | .list (j :: js), h => by
      intro c hc
      simp only [write, List.cons_append, List.mem_cons, List.mem_append] at hc
      rcases hc with rfl | hc | hc
      · decide
      · exact isPlain_write j h.1 c hc
      · exact isPlain_writeItems js h.2 c hc
  | .object [], _ => isPlain_word (by decide)
  | .object ((k, j) :: fs), h => by
      intro c hc
      simp only [write, List.cons_append, List.mem_cons, List.mem_append] at hc
      rcases hc with rfl | (hc | rfl | rfl | hc) | hc
      · decide
      · exact isPlain_writeString k.toList c hc
      · decide
      · decide
      · exact isPlain_write j h.1 c hc
      · exact isPlain_writeFields fs h.2 c hc

theorem isPlain_writeItems : ∀ js : List Json, AreKept js → ∀ c ∈ writeItems js, IsPlain c
  | [], _ => isPlain_word rfl
  | j :: js, h => by
      intro c hc
      simp only [writeItems, List.cons_append, List.mem_cons, List.mem_append] at hc
      rcases hc with rfl | rfl | hc | hc
      · decide
      · decide
      · exact isPlain_write j h.1 c hc
      · exact isPlain_writeItems js h.2 c hc

theorem isPlain_writeFields : ∀ fs : List (String × Json), FieldsAreKept fs → ∀ c ∈ writeFields fs, IsPlain c
  | [], _ => isPlain_word rfl
  | (k, j) :: fs, h => by
      intro c hc
      simp only [writeFields, List.cons_append, List.mem_cons, List.mem_append] at hc
      rcases hc with rfl | rfl | (hc | rfl | rfl | hc) | hc
      · decide
      · decide
      · exact isPlain_writeString k.toList c hc
      · decide
      · decide
      · exact isPlain_write j h.1 c hc
      · exact isPlain_writeFields fs h.2 c hc

end

end CatalogSteward.Json
