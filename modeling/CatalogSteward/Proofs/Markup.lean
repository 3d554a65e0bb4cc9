import CatalogSteward.Markup
import Mathlib.Data.List.Basic

/-!
# What is read as markup

A bracket that opens a tag is read as one unless an odd number of backslashes stands directly before it.
Escaping takes every tag away from a text, whatever comes before it and after it, and leaves those around it
alone, but for one case: after a text that ends in three backslashes, or in any greater odd number of them,
the next tag is no tag either. It changes exactly the texts in which a bracket opens a tag, and those that end
in a single backslash.
-/

namespace CatalogSteward.Markup

variable {cs rest : List Char}

/-- The tags that are read in a text; `slashes` backslashes stand directly before it. -/
def tagsFrom (slashes : Nat) : List Char → List String
  | [] => []
  | '\\' :: cs => tagsFrom (slashes + 1) cs
  | '[' :: cs =>
    if opensTag cs ∧ slashes % 2 = 0 then String.ofList (cs.takeWhile (· != ']')) :: tagsFrom 0 cs
    else tagsFrom 0 cs
  | _ :: cs => tagsFrom 0 cs

def tags (s : String) : List String := tagsFrom 0 s.toList

/-- The number of backslashes at the end of a text; `slashes` of them stand directly before it. -/
def slashesAfter (slashes : Nat) : List Char → Nat
  | [] => slashes
  | '\\' :: cs => slashesAfter (slashes + 1) cs
  | _ :: cs => slashesAfter 0 cs

/-- Whether the next bracket of a text is a closing one. -/
def closes : List Char → Bool
  | [] => false
  | c :: cs => c == ']' || (c != '[' && closes cs)

/-- Whether some bracket of a text opens a tag. -/
def holdsTag : List Char → Bool
  | [] => false
  | c :: cs => (c == '[' && opensTag cs) || holdsTag cs

/-! ### Backslashes -/

theorem slashesAfter_append (slashes : Nat) (cs ds : List Char) :
    slashesAfter slashes (cs ++ ds) = slashesAfter (slashesAfter slashes cs) ds := by
  induction slashes, cs using slashesAfter.induct with
  | case1 slashes => rfl
  | case2 slashes cs ih => exact ih
  | case3 slashes c cs hc ih =>
      rw [List.cons_append, slashesAfter, slashesAfter, ih]
      · exact hc
      · exact hc

theorem slashesAfter_of_ne {c : Char} (hc : c ≠ '\\') (slashes : Nat) (cs : List Char) :
    slashesAfter slashes (c :: cs) = slashesAfter 0 cs := by
  rw [slashesAfter]
  exact hc

theorem slashesAfter_replicate (slashes n : Nat) (cs : List Char) :
    slashesAfter slashes (List.replicate n '\\' ++ cs) = slashesAfter (slashes + n) cs := by
  induction n generalizing slashes with
  | zero => rfl
  | succ n ih =>
      rw [List.replicate_succ, List.cons_append, slashesAfter, ih]
      congr 1
      omega

theorem tagsFrom_replicate (slashes n : Nat) (cs : List Char) :
    tagsFrom slashes (List.replicate n '\\' ++ cs) = tagsFrom (slashes + n) cs := by
  induction n generalizing slashes with
  | zero => rfl
  | succ n ih =>
      rw [List.replicate_succ, List.cons_append, tagsFrom, ih]
      congr 1
      omega

/-- Escaping puts no backslash to the end of a text. -/
theorem slashesAfter_escapeFrom (slashes : Nat) (cs : List Char) :
    slashesAfter slashes (escapeFrom slashes cs) = slashesAfter slashes cs := by
  induction slashes, cs using escapeFrom.induct with
  | case1 slashes => rfl
  | case2 slashes cs ih => exact ih
  | case3 slashes cs h ih =>
      rw [escapeFrom, if_pos h, slashesAfter_replicate]
      exact ih
  | case4 slashes cs h ih =>
      rw [escapeFrom, if_neg h]
      exact ih
  | case5 slashes c cs hslash hbracket ih =>
      rw [escapeFrom, slashesAfter_of_ne hslash, slashesAfter_of_ne hslash, ih]
      · exact hslash
      · exact hbracket

/-- A text gets a backslash at its end if there is a single one. -/
theorem closeSlash_eq (cs : List Char) :
    closeSlash cs = if slashesAfter 0 cs = 1 then cs ++ ['\\'] else cs := by
  rcases List.eq_nil_or_concat' cs with rfl | ⟨front, c, rfl⟩
  · rfl
  rw [slashesAfter_append, closeSlash, List.reverse_append, List.reverse_singleton, List.singleton_append]
  by_cases hc : c = '\\'
  · subst hc
    rcases List.eq_nil_or_concat' front with rfl | ⟨front, d, rfl⟩
    · rfl
    rw [slashesAfter_append, List.reverse_append, List.reverse_singleton, List.singleton_append]
    by_cases hd : d = '\\'
    · subst hd
      rfl
    · rw [slashesAfter_of_ne hd]
      exact if_neg hd
  · rw [slashesAfter_of_ne hc]
    split
    · next h => exact absurd (List.head_eq_of_cons_eq h) hc
    · next h => exact absurd (List.head_eq_of_cons_eq h) hc
    · rfl

/-! ### Tags -/

/-- The characters that a tag can start with. -/
def startsTag (c : Char) : Bool := ('a' ≤ c && c ≤ 'z') || c == '#' || c == '/' || c == '@'

theorem opensTag_cons (c : Char) (cs : List Char) : opensTag (c :: cs) = (startsTag c && closes cs) := by
  have hcloses : ((cs.dropWhile fun d => d != '[' && d != ']').head? == some ']') = closes cs := by
    induction cs with
    | nil => rfl
    | cons d cs ih =>
        rw [closes, ← ih, List.dropWhile_cons, bne, bne]
        cases hopen : d == '[' with
        | true => simp [eq_of_beq hopen]
        | false => cases hclose : d == ']' <;> simp_all
  rw [opensTag, hcloses]
  rfl

theorem opensTag_of_not_closes (h : closes rest = false) : opensTag rest = false := by
  cases rest with
  | nil => rfl
  | cons c cs =>
      rw [opensTag_cons]
      rw [closes, Bool.or_eq_false_iff, Bool.and_eq_false_iff] at h
      rcases h.2 with hopen | hcloses
      · obtain rfl : c = '[' := by simpa using hopen
        rfl
      · rw [hcloses, Bool.and_false]

theorem closes_slashes (n : Nat) (cs : List Char) : closes (List.replicate n '\\' ++ '[' :: cs) = false := by
  induction n with
  | zero => rfl
  | succ n ih => exact ih

theorem closes_escapeFrom (h : closes rest = false) (slashes : Nat) (cs : List Char) :
    closes (escapeFrom slashes cs ++ rest) = closes cs := by
  induction slashes, cs using escapeFrom.induct with
  | case1 slashes => exact h
  | case2 slashes cs ih => exact ih
  | case3 slashes cs hopens ih =>
      rw [escapeFrom, if_pos hopens, List.append_assoc]
      exact closes_slashes _ _
  | case4 slashes cs hopens ih =>
      rw [escapeFrom, if_neg hopens]
      rfl
  | case5 slashes c cs hslash hbracket ih =>
      rw [escapeFrom, List.cons_append, closes, closes, ih]
      · exact hslash
      · exact hbracket

/-- Whether a bracket opens a tag is not changed by what is escaped after it. -/
theorem opensTag_escapeFrom (h : closes rest = false) (cs : List Char) :
    opensTag (escapeFrom 0 cs ++ rest) = opensTag cs := by
  have hslash (cs : List Char) : opensTag ('\\' :: cs) = false := by rw [opensTag_cons]; rfl
  have hbracket (cs : List Char) : opensTag ('[' :: cs) = false := by rw [opensTag_cons]; rfl
  cases cs with
  | nil => exact opensTag_of_not_closes h
  | cons c cs =>
      by_cases hc : c = '['
      · subst hc
        rw [escapeFrom, hbracket]
        split
        · exact hslash _
        · exact hbracket _
      · by_cases hs : c = '\\'
        · subst hs
          rw [hslash]
          exact hslash _
        · rw [escapeFrom, List.cons_append, opensTag_cons, opensTag_cons, closes_escapeFrom h]
          · exact hs
          · exact hc

/-- No tag is read in an escaped text. -/
theorem tagsFrom_escapeFrom (h : closes rest = false) (slashes : Nat) (cs : List Char) :
    tagsFrom slashes (escapeFrom slashes cs ++ rest) = tagsFrom (slashesAfter slashes cs) rest := by
  induction slashes, cs using escapeFrom.induct with
  | case1 slashes => rfl
  | case2 slashes cs ih => exact ih
  | case3 slashes cs hopens ih =>
      have hodd : ¬(opensTag (escapeFrom 0 cs ++ rest) ∧ (slashes + (slashes + 1)) % 2 = 0) :=
        fun heven => by omega
      rw [escapeFrom, if_pos hopens, List.append_assoc, tagsFrom_replicate, List.cons_append, tagsFrom,
        if_neg hodd]
      exact ih
  | case4 slashes cs hopens ih =>
      have hnone : ¬(opensTag (escapeFrom 0 cs ++ rest) ∧ slashes % 2 = 0) :=
        fun hread => hopens (opensTag_escapeFrom h cs ▸ hread.1)
      rw [escapeFrom, if_neg hopens, List.cons_append, tagsFrom, if_neg hnone]
      exact ih
  | case5 slashes c cs hslash hbracket ih =>
      rw [escapeFrom, List.cons_append, tagsFrom, ih, slashesAfter_of_ne hslash]
      · exact hslash
      · exact hbracket
      · exact hslash
      · exact hbracket

/-- The number of backslashes at the end of an escaped text. -/
def closingSlashes (s : String) : Nat :=
  if slashesAfter 0 s.toList = 1 then 2 else slashesAfter 0 s.toList

/-- The tags of an escaped text with something after it are those of the latter. -/
theorem tags_escape_append (s : String) {rest : String} (h : closes rest.toList = false) :
    tags (escape s ++ rest) = tagsFrom (closingSlashes s) rest.toList := by
  have hslash : closes ('\\' :: rest.toList) = false := h
  rw [tags, String.toList_append, escape, String.toList_ofList, closeSlash_eq, slashesAfter_escapeFrom,
    closingSlashes]
  split
  · next hone =>
      rw [List.append_assoc, List.singleton_append, tagsFrom_escapeFrom hslash, hone]
      rfl
  · exact tagsFrom_escapeFrom h 0 s.toList

/-! ### Texts that need no escaping -/

/-- A text that stands for itself: no bracket opens a tag, and its end is not a single backslash. -/
def IsLiteral (s : String) : Prop := holdsTag s.toList = false ∧ slashesAfter 0 s.toList ≠ 1

instance (s : String) : Decidable (IsLiteral s) := inferInstanceAs (Decidable (_ ∧ _))

theorem escapeFrom_eq_self (h : holdsTag cs = false) (slashes : Nat) : escapeFrom slashes cs = cs := by
  induction slashes, cs using escapeFrom.induct with
  | case1 slashes => rfl
  | case2 slashes cs ih => exact congrArg _ (ih h)
  | case3 slashes cs hopens ih => simp [holdsTag, hopens] at h
  | case4 slashes cs hopens ih =>
      rw [escapeFrom, if_neg hopens, ih (Bool.or_eq_false_iff.mp h).2]
  | case5 slashes c cs hslash hbracket ih =>
      rw [escapeFrom, ih (Bool.or_eq_false_iff.mp h).2]
      · exact hslash
      · exact hbracket

theorem length_escapeFrom (slashes : Nat) (cs : List Char) :
    cs.length + (holdsTag cs).toNat ≤ (escapeFrom slashes cs).length := by
  induction slashes, cs using escapeFrom.induct with
  | case1 slashes => exact Nat.le_refl _
  | case2 slashes cs ih =>
      rw [escapeFrom, List.length_cons, List.length_cons]
      change cs.length + 1 + (holdsTag cs).toNat ≤ _
      omega
  | case3 slashes cs hopens ih =>
      rw [escapeFrom, if_pos hopens]
      have hflag := Bool.toNat_le (holdsTag ('[' :: cs))
      simp only [List.length_append, List.length_replicate, List.length_cons]
      omega
  | case4 slashes cs hopens ih =>
      have hholds : holdsTag ('[' :: cs) = holdsTag cs := by simp [holdsTag, hopens]
      rw [escapeFrom, if_neg hopens, hholds, List.length_cons, List.length_cons]
      omega
  | case5 slashes c cs hslash hbracket ih =>
      have hholds : holdsTag (c :: cs) = holdsTag cs := by simp [holdsTag, show c ≠ '[' from hbracket]
      rw [escapeFrom, hholds, List.length_cons, List.length_cons]
      · omega
      · exact hslash
      · exact hbracket

/-- Escaping leaves exactly those texts as they are that stand for themselves. -/
theorem escape_eq_self_iff (s : String) : escape s = s ↔ IsLiteral s := by
  rw [← String.toList_inj, escape, String.toList_ofList, closeSlash_eq, slashesAfter_escapeFrom, IsLiteral]
  have hlength := length_escapeFrom 0 s.toList
  constructor
  · intro h
    have hsame := congrArg List.length h
    split at hsame
    · rw [List.length_append, List.length_singleton] at hsame
      omega
    · next hslash =>
        refine ⟨?_, hslash⟩
        cases hholds : holdsTag s.toList with
        | false => rfl
        | true =>
            rw [hholds] at hlength
            change s.toList.length + 1 ≤ _ at hlength
            omega
  · rintro ⟨hholds, hslash⟩
    rw [if_neg hslash, escapeFrom_eq_self hholds]

end CatalogSteward.Markup
