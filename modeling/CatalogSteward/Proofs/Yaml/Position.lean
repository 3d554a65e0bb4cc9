import CatalogSteward.Yaml.Basic

/-!
# Positions in a document

The spots of a text are its characters one after another, each at the position to which those before it
lead. Printable ASCII characters stand on one line, each in a column of its own.
-/

namespace CatalogSteward.Yaml

/-- A position between two characters of a document. -/
structure Position where
  line : Nat
  column : Nat
  index : Nat
  deriving DecidableEq, Repr

/-- A printable ASCII character, the space among them. -/
def IsShown (c : Char) : Prop := 0x20 ≤ c.toNat ∧ c.toNat ≤ 0x7E

instance (c : Char) : Decidable (IsShown c) := inferInstanceAs (Decidable (_ ∧ _))

namespace IsShown

variable {c d : Char}

theorem ne_of_lt (h : IsShown c) (hd : d.toNat < 0x20) : c ≠ d := by
  rintro rfl
  exact absurd h.1 (Nat.not_le.mpr hd)

theorem isBreak (h : IsShown c) : isBreak c = false := by
  have hne : c ≠ '\n' := h.ne_of_lt (by decide)
  obtain ⟨low, high⟩ := h
  simp only [Yaml.isBreak, Bool.or_eq_false_iff, beq_eq_false_iff_ne]
  exact ⟨⟨⟨hne, by omega⟩, by omega⟩, by omega⟩

theorem ne_byteOrderMark (h : IsShown c) : c ≠ byteOrderMark := by
  rintro rfl
  exact absurd h.2 (by decide)

theorem isSpaceOrTab (h : IsShown c) (hspace : c ≠ ' ') : isSpaceOrTab c = false := by
  have htab : c ≠ '\t' := h.ne_of_lt (by decide)
  simp only [Yaml.isSpaceOrTab, Bool.or_eq_false_iff, beq_eq_false_iff_ne]
  exact ⟨hspace, htab⟩

theorem isSeparator (h : IsShown c) (hspace : c ≠ ' ') : isSeparator c = false := by
  rw [Yaml.isSeparator, h.isSpaceOrTab hspace, h.isBreak]
  rfl

theorem isAllowed (h : IsShown c) : isAllowed c = true := by
  obtain ⟨low, high⟩ := h
  simp [Yaml.isAllowed, low, high]

end IsShown

namespace Position

def start : Position := ⟨0, 0, 0⟩

/-- The position after a character. -/
def after (p : Position) (c : Char) : Position :=
  if isBreak c then ⟨p.line + 1, 0, p.index + 1⟩
  else if c = byteOrderMark then ⟨p.line, p.column, p.index + 1⟩
  else ⟨p.line, p.column + 1, p.index + 1⟩

def afterAll (p : Position) (cs : List Char) : Position := cs.foldl after p

def spot (p : Position) (c : Char) : Spot := ⟨c, p.line, p.column, p.index⟩

/-- The spots of a text that starts at a position. -/
def spots (p : Position) (cs : List Char) : List Spot := spotsFrom p.line p.column p.index cs

variable (p : Position)

@[simp] theorem spot_char (c : Char) : (p.spot c).char = c := rfl

@[simp] theorem spot_column (c : Char) : (p.spot c).column = p.column := rfl

@[simp] theorem spot_line (c : Char) : (p.spot c).line = p.line := rfl

@[simp] theorem spots_nil : p.spots [] = [] := rfl

@[simp] theorem spots_cons (c : Char) (cs : List Char) :
    p.spots (c :: cs) = p.spot c :: (p.after c).spots cs := by
  rw [spots, spotsFrom, after]
  split
  · rfl
  · split <;> rfl

@[simp] theorem afterAll_nil : p.afterAll [] = p := rfl

@[simp] theorem afterAll_cons (c : Char) (cs : List Char) :
    p.afterAll (c :: cs) = (p.after c).afterAll cs := rfl

@[simp] theorem afterAll_append (cs ds : List Char) :
    p.afterAll (cs ++ ds) = (p.afterAll cs).afterAll ds := List.foldl_append

@[simp] theorem length_spots (cs : List Char) : (p.spots cs).length = cs.length := by
  induction cs generalizing p with
  | nil => rfl
  | cons c cs ih => rw [spots_cons, List.length_cons, ih, List.length_cons]

theorem spots_append (cs ds : List Char) : p.spots (cs ++ ds) = p.spots cs ++ (p.afterAll cs).spots ds := by
  induction cs generalizing p with
  | nil => rfl
  | cons c cs ih => rw [List.cons_append, spots_cons, ih, spots_cons, List.cons_append, afterAll_cons]

/-- Where a reader stands follows from how much of the text is left. -/
theorem spots_of_suffix {cs ds : List Char} {rest : List Spot} (h : rest <:+ p.spots (cs ++ ds))
    (hlength : rest.length = ds.length) : rest = (p.afterAll cs).spots ds := by
  rw [spots_append] at h
  have hequal : rest.length = ((p.afterAll cs).spots ds).length := by rw [length_spots, hlength]
  exact (List.suffix_of_suffix_length_le h (List.suffix_append _ _) (Nat.le_of_eq hequal)).eq_of_length hequal

theorem line_le_afterAll (cs : List Char) : p.line ≤ (p.afterAll cs).line := by
  induction cs generalizing p with
  | nil => exact Nat.le_refl _
  | cons c cs ih =>
      refine Nat.le_trans ?_ (ih (p.after c))
      rw [after]
      split
      · exact Nat.le_succ _
      · split <;> exact Nat.le_refl _

theorem endsAt_spots (kind : Char → Bool) (cs : List Char) :
    endsAt kind (p.spots cs) = (cs.head?.map kind).getD true := by
  cases cs with
  | nil => rfl
  | cons c cs => rw [spots_cons]; rfl

theorem after_shown {c : Char} (h : IsShown c) : p.after c = ⟨p.line, p.column + 1, p.index + 1⟩ := by
  rw [after, h.isBreak, if_neg Bool.false_ne_true, if_neg h.ne_byteOrderMark]

theorem after_lineFeed : p.after '\n' = ⟨p.line + 1, 0, p.index + 1⟩ := rfl

theorem afterAll_shown {cs : List Char} (h : ∀ c ∈ cs, IsShown c) :
    p.afterAll cs = ⟨p.line, p.column + cs.length, p.index + cs.length⟩ := by
  induction cs generalizing p with
  | nil => rfl
  | cons c cs ih =>
      rw [afterAll_cons, ih _ fun d hd => h d (List.mem_cons_of_mem c hd),
        p.after_shown (h c List.mem_cons_self), List.length_cons]
      simp only [mk.injEq, true_and]
      omega

theorem isShown_space : IsShown ' ' := by decide

theorem afterAll_spaces (n : Nat) :
    p.afterAll (List.replicate n ' ') = ⟨p.line, p.column + n, p.index + n⟩ := by
  rw [p.afterAll_shown fun c hc => List.eq_of_mem_replicate hc ▸ isShown_space, List.length_replicate]

/-- What a reader makes of the text behind spaces, when it passes over each of them. -/
theorem pass_spaces {α : Type} {read : List Spot → α}
    (h : ∀ (q : Position) (cs : List Char), read (q.spots (' ' :: cs)) = read ((q.after ' ').spots cs))
    (n : Nat) (cs : List Char) :
    read (p.spots (List.replicate n ' ' ++ cs)) = read ((p.afterAll (List.replicate n ' ')).spots cs) := by
  induction n generalizing p with
  | zero => rfl
  | succ n ih => rw [List.replicate_succ, List.cons_append, h, ih, afterAll_cons]

/-- Only at the start of a line can a document be marked off. -/
theorem not_isDocumentMark (h : p.column ≠ 0) (cs : List Char) : isDocumentMark (p.spots cs) = false := by
  have hmark (c : Char) : isMark c (p.spots cs) = false := by
    rcases cs with _ | ⟨a, _ | ⟨b, _ | ⟨d, cs⟩⟩⟩
    · rfl
    · simp [isMark]
    · simp [isMark]
    · simp [isMark, h]
  rw [isDocumentMark, hmark, hmark]
  rfl

end Position

end CatalogSteward.Yaml
