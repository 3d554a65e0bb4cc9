import CatalogSteward.Path

/-!
# Paths are read back from their text

A path that was read from a text has no empty parts, none with a slash, and none that names the directory
itself. Such a path is told by its text.
-/

namespace CatalogSteward.Path

/-- A part of a path as it is kept. -/
def IsPart (part : String) : Prop := part ≠ "" ∧ part ≠ "." ∧ '/' ∉ part.toList

/-- A path as it is read from a text. -/
structure IsClean (p : Path) : Prop where
  slashes : p.slashes ≤ 2
  parts : ∀ part ∈ p.parts, IsPart part

theorem hasNul_eq_false {p : Path} : p.hasNul = false ↔ ∀ part ∈ p.parts, '\x00' ∉ part.toList := by
  simp [hasNul]

theorem hasNul_parent {p : Path} (h : p.hasNul = false) : p.parent.hasNul = false :=
  hasNul_eq_false.mpr fun part hpart => hasNul_eq_false.mp h part (List.dropLast_subset _ hpart)

/-! ### Splitting -/

theorem splitFrom_cons {c : Char} (hc : c ≠ '/') (held cs : List Char) :
    splitFrom held (c :: cs) = splitFrom (c :: held) cs := splitFrom.eq_3 _ _ _ hc

theorem no_slash_splitFrom {held : List Char} (h : '/' ∉ held) (cs : List Char) :
    ∀ part ∈ splitFrom held cs, '/' ∉ part.toList := by
  induction cs generalizing held with
  | nil =>
      refine List.forall_mem_singleton.mpr ?_
      rwa [String.toList_ofList, List.mem_reverse]
  | cons c cs ih =>
      by_cases hc : c = '/'
      · subst hc
        refine List.forall_mem_cons.mpr ⟨?_, ih List.not_mem_nil⟩
        rwa [String.toList_ofList, List.mem_reverse]
      · rw [splitFrom_cons hc]
        refine ih fun hmem => ?_
        rcases List.mem_cons.mp hmem with heq | hmem
        · exact hc heq.symm
        · exact h hmem

/-- A text without slashes goes to the part that is being read. -/
theorem splitFrom_append {part : List Char} (h : '/' ∉ part) (held rest : List Char) :
    splitFrom held (part ++ rest) = splitFrom (part.reverse ++ held) rest := by
  induction part generalizing held with
  | nil => rfl
  | cons c part ih =>
      rw [List.mem_cons, not_or] at h
      rw [List.cons_append, splitFrom_cons (Ne.symm h.1), ih h.2, List.reverse_cons, List.append_assoc]
      rfl

/-- Parts without slashes are the parts of their text. -/
theorem splitFrom_intercalate {parts : List String} (h : ∀ part ∈ parts, '/' ∉ part.toList)
    (hne : parts ≠ []) :
    splitFrom [] (List.intercalate ['/'] (parts.map String.toList)) = parts := by
  induction parts with
  | nil => exact absurd rfl hne
  | cons part parts ih =>
      obtain ⟨hpart, hparts⟩ := List.forall_mem_cons.mp h
      cases parts with
      | nil =>
          have hsplit := splitFrom_append hpart [] []
          rw [List.append_nil, List.append_nil] at hsplit
          simp [List.intercalate, hsplit, splitFrom]
      | cons next parts =>
          rw [List.map_cons, List.map_cons, List.intercalate_cons_cons, List.append_assoc,
            splitFrom_append hpart, List.singleton_append, splitFrom, ← List.map_cons,
            ih hparts (List.cons_ne_nil _ _)]
          simp

/-! ### Reading a text -/

theorem isClean_ofText (s : String) : IsClean (ofText s) where
  slashes := by
    rw [ofText]
    dsimp only
    split <;> omega
  parts := by
    intro part hpart
    simp only [ofText, List.mem_filter, decide_eq_true_eq] at hpart
    exact ⟨hpart.2.1, hpart.2.2, no_slash_splitFrom List.not_mem_nil _ _ hpart.1⟩

/-- Leading slashes add nothing but empty parts. -/
theorem filter_splitFrom_slashes (n : Nat) (cs : List Char) :
    (splitFrom [] (List.replicate n '/' ++ cs)).filter (fun part => part ≠ "" ∧ part ≠ ".") =
      (splitFrom [] cs).filter (fun part => part ≠ "" ∧ part ≠ ".") := by
  induction n with
  | zero => rfl
  | succ n ih =>
      rw [List.replicate_succ, List.cons_append, splitFrom, List.filter_cons, if_neg (by simp)]
      exact ih

theorem head_intercalate {parts : List String} (h : ∀ part ∈ parts, IsPart part) :
    ∀ c ∈ (List.intercalate ['/'] (parts.map String.toList)).head?, c ≠ '/' := by
  cases parts with
  | nil => simp
  | cons part parts =>
      obtain ⟨hne, -, hslash⟩ := h part List.mem_cons_self
      obtain ⟨c, cs, hcs⟩ : ∃ c cs, part.toList = c :: cs :=
        List.exists_cons_of_ne_nil fun hnil => hne (String.toList_eq_nil_iff.mp hnil)
      rw [hcs] at hslash
      rw [List.map_cons, hcs]
      rintro d hd rfl
      refine hslash ?_
      cases parts with
      | nil => simp_all
      | cons next parts => simp_all

theorem takeWhile_slashes {cs : List Char} (n : Nat) (h : ∀ c ∈ cs.head?, c ≠ '/') :
    ((List.replicate n '/' ++ cs).takeWhile (· = '/')).length = n := by
  induction n with
  | zero =>
      cases cs with
      | nil => rfl
      | cons c cs =>
          have hc : c ≠ '/' := h c rfl
          simp [hc]
  | succ n ih =>
      rw [List.replicate_succ, List.cons_append, List.takeWhile_cons, if_pos (by decide), List.length_cons,
        ih]

/-- A path is read back from its text. -/
theorem ofText_text {p : Path} (h : IsClean p) : ofText p.text = p := by
  obtain ⟨slashes, parts⟩ := p
  obtain ⟨hslashes, hparts⟩ := h
  dsimp only at hslashes hparts
  by_cases hempty : slashes = 0 ∧ parts = []
  · obtain ⟨rfl, rfl⟩ := hempty
    rfl
  · have htext : (Path.text ⟨slashes, parts⟩).toList =
        List.replicate slashes '/' ++ List.intercalate ['/'] (parts.map String.toList) := by
      rw [text, if_neg hempty, String.toList_append, String.toList_ofList, String.toList_intercalate]
      rfl
    have hkept : (splitFrom [] (List.intercalate ['/'] (parts.map String.toList))).filter
        (fun part => part ≠ "" ∧ part ≠ ".") = parts := by
      cases parts with
      | nil => rfl
      | cons part parts =>
          rw [splitFrom_intercalate (fun q hq => (hparts q hq).2.2) (List.cons_ne_nil _ _),
            List.filter_eq_self]
          intro q hq
          simpa using ⟨(hparts q hq).1, (hparts q hq).2.1⟩
    rw [ofText, htext, takeWhile_slashes slashes (head_intercalate hparts), filter_splitFrom_slashes, hkept]
    congr 1
    split <;> omega

end CatalogSteward.Path
