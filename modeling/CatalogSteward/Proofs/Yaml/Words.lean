import CatalogSteward.Proofs.Yaml.Position
import CatalogSteward.Yaml.Plain
import CatalogSteward.Yaml.Quoted
import CatalogSteward.Yaml.Style

/-!
# Words are read back

A text without quotes or between single quotes is written as its words with the spaces and line breaks
between them, where a space that stands alone may become a line break. The readers hold back what they
have gone over since the last word, and know what it stands for when the next word comes.
-/

namespace CatalogSteward.Yaml
open Style

/-! ### What is held back -/

/-- What a reader holds back when it stands between the character `before` and the text `cs`: nothing, some
spaces, a space that was written as a line break, or the line feeds of the text, for which one more is
written. -/
inductive Held : Option Char → List Char → Gap → Prop
  | none {before : Option Char} {cs : List Char} (hspace : before ≠ some ' ') (hline : before ≠ some '\n') :
      Held before cs .none
  | spaces {cs : List Char} (k : Nat) : Held (some ' ') cs (.blanks (List.replicate (k + 1) ' '))
  | folded {c : Char} {cs : List Char} (hspace : c ≠ ' ') (hline : c ≠ '\n') :
      Held (some ' ') (c :: cs) (.breaks '\n' [])
  | lines {cs : List Char} (k : Nat) : Held (some '\n') cs (.breaks '\n' (List.replicate (k + 1) '\n'))

theorem Held.start (cs : List Char) : Held Option.none cs .none := .none (by simp) (by simp)

theorem Held.word {c : Char} (hspace : c ≠ ' ') (hline : c ≠ '\n') (cs : List Char) :
    Held (some c) cs .none := .none (by simpa using hspace) (by simpa using hline)

theorem Held.addBlank {before : Option Char} {cs : List Char} {gap : Gap}
    (h : Held before (' ' :: cs) gap) (hline : before ≠ some '\n') :
    Held (some ' ') cs (gap.addBlank ' ') ∧ (gap.addBlank ' ').text = gap.text ++ [' '] ∧
      (gap.addBlank ' ').isBroken = false := by
  cases h with
  | none _ _ => exact ⟨.spaces 0, rfl, rfl⟩
  | spaces k =>
      refine ⟨.spaces (k + 1), ?_, rfl⟩
      simp only [Gap.addBlank, Gap.text, List.reverse_cons]
  | folded hspace _ => exact absurd rfl hspace
  | lines k => exact absurd rfl hline

theorem Held.eq_none {before : Option Char} {cs : List Char} {gap : Gap} (h : Held before cs gap)
    (hspace : before ≠ some ' ') (hline : before ≠ some '\n') : gap = .none := by
  cases h with
  | none _ _ => rfl
  | spaces k => exact absurd rfl hspace
  | folded _ _ => exact absurd rfl hspace
  | lines k => exact absurd rfl hline

/-- One more line feed of the text: of the first one the reader has seen two. -/
theorem Held.addBreak {before : Option Char} {cs : List Char} {gap : Gap}
    (h : Held before ('\n' :: cs) gap) (hspace : before ≠ some ' ') :
    ∃ next : Gap, Held (some '\n') cs next ∧ next.text = gap.text ++ ['\n'] ∧ next.isBroken = true ∧
      next = (if before = some '\n' then gap.addBreak '\n' else (gap.addBreak '\n').addBreak '\n') := by
  cases h with
  | @none before _ _ hline =>
      refine ⟨_, .lines 0, rfl, rfl, ?_⟩
      rw [if_neg hline]
      rfl
  | spaces k => exact absurd rfl hspace
  | folded _ hline => exact absurd rfl hline
  | lines k =>
      refine ⟨_, .lines (k + 1), ?_, rfl, ?_⟩
      · simp [Gap.text, List.replicate_succ]
      · rw [if_pos rfl]
        rfl

theorem isBroken_addBreak (gap : Gap) (c : Char) : (gap.addBreak c).isBroken = true := by
  cases gap <;> rfl

theorem addBlank_of_isBroken {gap : Gap} (h : gap.isBroken = true) (c : Char) : gap.addBlank c = gap := by
  cases gap with
  | none => cases h
  | blanks held => cases h
  | _ => rfl

/-- The position at which a new line of a text starts. -/
def Position.nextLine (p : Position) (indent : Nat) : Position :=
  (p.after '\n').afterAll (List.replicate indent ' ')

theorem Position.nextLine_column (p : Position) (indent : Nat) : (p.nextLine indent).column = indent := by
  rw [nextLine, afterAll_spaces, after_lineFeed, Nat.zero_add]

theorem Position.nextLine_line (p : Position) (indent : Nat) : (p.nextLine indent).line = p.line + 1 := by
  rw [nextLine, afterAll_spaces, after_lineFeed]

theorem isBreak_lineFeed : isBreak '\n' = true := rfl

theorem isShown_of_isEasy {c : Char} (h : isEasy c = true) (hline : c ≠ '\n') : IsShown c := by
  simpa [isEasy, hline, IsShown] using h

/-! ### What may stand beside what -/

theorem ragged_tail {last : Option Char} {c : Char} {cs : List Char}
    (h : hasRaggedLine (last.toList ++ c :: cs) = false) :
    hasRaggedLine ((some c).toList ++ cs) = false := by
  cases last with
  | none => exact h
  | some b =>
      rw [Option.toList_some, List.singleton_append, hasRaggedLine, Bool.or_eq_false_iff] at h
      exact h.2

theorem not_beside {last : Option Char} {c : Char} {cs : List Char}
    (h : hasRaggedLine (last.toList ++ c :: cs) = false) :
    (c = ' ' → last ≠ some '\n') ∧ (c = '\n' → last ≠ some ' ') := by
  cases last with
  | none => simp
  | some b =>
      simp only [Option.toList_some, List.singleton_append, hasRaggedLine, Bool.or_eq_false_iff,
        Bool.and_eq_false_iff, beq_eq_false_iff_ne] at h
      constructor
      · rintro rfl
        simpa using h.1.2
      · rintro rfl
        simpa using h.1.1

/-- A space that is written as a line break stands alone between two words. -/
theorem folded_between {last : Option Char} {cs : List Char} {p q : Prop} [Decidable p] [Decidable q]
    (h : (decide p && (last.isSome && last != some ' ' && !cs.isEmpty && cs.head? != some ' ') && decide q) =
      true) :
    last ≠ some ' ' ∧ ∃ d ds, cs = d :: ds ∧ d ≠ ' ' := by
  simp only [Bool.and_eq_true, bne_iff_ne, ne_eq, Bool.not_eq_true'] at h
  obtain ⟨⟨-, ⟨⟨-, hlast⟩, hcs⟩, hhead⟩, -⟩ := h
  cases cs with
  | nil => cases hcs
  | cons d ds => exact ⟨hlast, d, ds, rfl, by simpa using hhead⟩

/-! ### The characters of words -/

theorem isEasy_of_isShown {c : Char} (h : IsShown c) : isEasy c = true := by
  simp [isEasy, h.1, h.2]

theorem isEasy_newLine (indent : Nat) : ∀ c ∈ newLine indent, isEasy c = true := by
  refine List.forall_mem_cons.mpr ⟨rfl, fun c hc => ?_⟩
  rw [List.eq_of_mem_replicate hc]
  rfl

/-- Words are written in the characters of their text and in those of new lines. -/
theorem isEasy_words {cs : List Char} (h : ∀ c ∈ cs, isEasy c = true) (fold quoted : Bool)
    (indent column : Nat) (last : Option Char) :
    ∀ c ∈ wordsFrom fold quoted indent column last cs, isEasy c = true := by
  induction cs generalizing column last with
  | nil => simp [wordsFrom]
  | cons d cs ih =>
      obtain ⟨hd, hcs⟩ := List.forall_mem_cons.mp h
      rw [wordsFrom]
      split
      · dsimp only
        split
        · exact List.forall_mem_append.mpr ⟨isEasy_newLine indent, ih hcs _ _⟩
        · exact List.forall_mem_cons.mpr ⟨hd, ih hcs _ _⟩
      · split
        · have hbreak : ∀ c ∈ (if cs.head? = some '\n' then ['\n'] else newLine indent), isEasy c = true := by
            split
            · exact List.forall_mem_singleton.mpr rfl
            · exact isEasy_newLine indent
          have hfirst : ∀ c ∈ (if last = some '\n' then [] else ['\n']), isEasy c = true := by
            split
            · exact List.forall_mem_nil _
            · exact List.forall_mem_singleton.mpr rfl
          exact List.forall_mem_append.mpr ⟨List.forall_mem_append.mpr ⟨hfirst, hbreak⟩, ih hcs _ _⟩
        · split
          · exact List.forall_mem_cons.mpr ⟨rfl, List.forall_mem_cons.mpr ⟨rfl, ih hcs _ _⟩⟩
          · exact List.forall_mem_cons.mpr ⟨hd, ih hcs _ _⟩

/-- On one line words are written in printable characters. -/
theorem isShown_words {cs : List Char} (h : ∀ c ∈ cs, IsShown c) (quoted : Bool) (indent column : Nat)
    (last : Option Char) : ∀ c ∈ wordsFrom false quoted indent column last cs, IsShown c := by
  induction cs generalizing column last with
  | nil => simp [wordsFrom]
  | cons d cs ih =>
      obtain ⟨hd, hcs⟩ := List.forall_mem_cons.mp h
      have hline : d ≠ '\n' := hd.ne_of_lt (by decide)
      rw [wordsFrom]
      simp only [Bool.false_and, Bool.false_eq_true, if_false, if_neg hline]
      split
      · exact List.forall_mem_cons.mpr ⟨hd, ih hcs _ _⟩
      · split
        · exact List.forall_mem_cons.mpr ⟨by decide, List.forall_mem_cons.mpr ⟨by decide, ih hcs _ _⟩⟩
        · exact List.forall_mem_cons.mpr ⟨hd, ih hcs _ _⟩

/-- At the start of its line a character takes up two places at most. -/
theorem length_words (quoted : Bool) (column : Nat) (last : Option Char) (cs : List Char) :
    (wordsFrom false quoted 0 column last cs).length ≤ 2 * cs.length := by
  induction cs generalizing column last with
  | nil => exact Nat.zero_le _
  | cons c cs ih =>
      simp only [wordsFrom, Bool.false_and, Bool.false_eq_true, if_false, newLine, List.replicate_zero]
      have hrest (column : Nat) := ih column (some c)
      split
      · have := hrest (column + 1)
        simp only [List.length_cons]
        omega
      · split
        · have := hrest 0
          split <;> split <;> simp only [List.length_append, List.length_cons, List.length_nil] <;> omega
        · split
          · have := hrest (column + 2)
            simp only [List.length_cons]
            omega
          · have := hrest (column + 1)
            simp only [List.length_cons]
            omega

/-- On one line it does not matter where words stand. -/
theorem words_unfolded {cs : List Char} (h : ∀ c ∈ cs, IsShown c) (quoted : Bool)
    (indent indent' column column' : Nat) (last last' : Option Char) :
    wordsFrom false quoted indent column last cs = wordsFrom false quoted indent' column' last' cs := by
  induction cs generalizing column column' last last' with
  | nil => rfl
  | cons c cs ih =>
      obtain ⟨hc, hcs⟩ := List.forall_mem_cons.mp h
      have hline : c ≠ '\n' := hc.ne_of_lt (by decide)
      simp only [wordsFrom, Bool.false_and, Bool.false_eq_true, if_false, if_neg hline]
      split
      · exact congrArg (c :: ·) (ih hcs _ _ _ _)
      · split
        · exact congrArg ('\'' :: '\'' :: ·) (ih hcs _ _ _ _)
        · exact congrArg (c :: ·) (ih hcs _ _ _ _)

/-- Without quotes they are the text itself. -/
theorem words_plain {cs : List Char} (h : ∀ c ∈ cs, IsShown c) (indent column : Nat) (last : Option Char) :
    wordsFrom false false indent column last cs = cs := by
  induction cs generalizing column last with
  | nil => rfl
  | cons c cs ih =>
      obtain ⟨hc, hcs⟩ := List.forall_mem_cons.mp h
      have hline : c ≠ '\n' := hc.ne_of_lt (by decide)
      simp only [wordsFrom, Bool.false_and, Bool.false_eq_true, if_false, if_neg hline, ih hcs, ite_self]

/-! ### Steps of a reader -/

namespace Quoted

section
variable {σ : Type} {read : σ → List Spot → Except Problem (List Char × List Spot)} {held : σ → List Char}

/-- A reader gets from one state to another over the text `cs`, where each state holds back some of the text
before it. -/
def Advances (read : σ → List Spot → Except Problem (List Char × List Spot)) (held : σ → List Char)
    (state : σ) (spots : List Spot) (cs : List Char) (state' : σ) (spots' : List Spot) : Prop :=
  ∀ ds rest, read state' spots' = .ok (held state' ++ ds, rest) →
    read state spots = .ok (held state ++ (cs ++ ds), rest)

theorem Advances.refl (state : σ) (spots : List Spot) : Advances read held state spots [] state spots :=
  fun _ _ h => h

theorem Advances.trans {state state' state'' : σ} {s s' s'' : List Spot} {cs ds : List Char}
    (h : Advances read held state s cs state' s') (h' : Advances read held state' s' ds state'' s'') :
    Advances read held state s (cs ++ ds) state'' s'' := fun es rest hrest => by
  rw [List.append_assoc]
  exact h _ _ (h' _ _ hrest)

/-- A step that only holds back more. -/
theorem advances_of_eq {state state' : σ} {s s' : List Spot} {cs : List Char}
    (h : read state s = read state' s') (hheld : held state' = held state ++ cs) :
    Advances read held state s cs state' s' := fun ds rest hrest => by
  rw [h, hrest, hheld, List.append_assoc]

/-- What is held back counts when something follows it. -/
theorem advances_of_before {state state' : σ} {gap : Gap} {s s' : List Spot} {cs : List Char}
    (h : read state s = before gap cs (read state' s')) (hgap : held state = gap.text)
    (hstate : held state' = []) : Advances read held state s cs state' s' := fun ds rest hrest => by
  rw [h, hrest, hstate, hgap, before, ← List.append_assoc]
  rfl

end

variable {gap : Gap} {p : Position}

/-- Only a break decides whether what comes next could mark off a document. -/
theorem unmarked (h : gap.isBroken = true → p.column ≠ 0) (cs : List Char) :
    (gap.isBroken && isDocumentMark (p.spots cs)) = false := by
  cases hbroken : gap.isBroken with
  | false => rfl
  | true => rw [p.not_isDocumentMark (h hbroken)]; rfl

theorem text_addBlank (h : gap.isBroken = false) (c : Char) : (gap.addBlank c).text = gap.text ++ [c] := by
  cases gap with
  | none => rfl
  | blanks held => simp [Gap.addBlank, Gap.text]
  | breaks _ _ => cases h
  | joined _ => cases h

/-! ### Between single quotes -/

theorem singleFrom_cons (gap : Gap) (s : Spot) (rest : List Spot) :
    singleFrom gap (s :: rest) =
      if isBreak s.char then singleFrom (gap.addBreak s.char) rest
      else if isSpaceOrTab s.char then singleFrom (gap.addBlank s.char) rest
      else if gap.isBroken && isDocumentMark (s :: rest) then .error .malformed
      else if s.char = '\'' then
        match rest with
        | t :: rest' =>
          if t.char = '\'' then before gap ['\''] (singleFrom .none rest') else .ok (gap.text, t :: rest')
        | [] => .ok (gap.text, [])
      else before gap [s.char] (singleFrom .none rest) :=
  singleFrom.eq_def gap (s :: rest)

theorem single_break (gap : Gap) (p : Position) (cs : List Char) :
    singleFrom gap (p.spots ('\n' :: cs)) = singleFrom (gap.addBreak '\n') ((p.after '\n').spots cs) := by
  rw [Position.spots_cons, singleFrom_cons, Position.spot_char, if_pos isBreak_lineFeed]

theorem single_space (gap : Gap) (p : Position) (cs : List Char) :
    singleFrom gap (p.spots (' ' :: cs)) = singleFrom (gap.addBlank ' ') ((p.after ' ').spots cs) := by
  rw [Position.spots_cons, singleFrom_cons, Position.spot_char, if_neg (by decide), if_pos (by decide)]

theorem single_newLine (gap : Gap) (p : Position) (indent : Nat) (cs : List Char) :
    singleFrom gap (p.spots (newLine indent ++ cs)) =
      singleFrom (gap.addBreak '\n') ((p.nextLine indent).spots cs) := by
  rw [newLine, List.cons_append, single_break, Position.nextLine]
  refine Position.pass_spaces _ (fun q cs => ?_) indent cs
  rw [single_space, addBlank_of_isBroken (isBroken_addBreak gap '\n')]

/-- A character that is no blank or break ends what is held back. -/
theorem single_word {c : Char} (hc : IsShown c) (hspace : c ≠ ' ') (hquote : c ≠ '\'')
    (hpos : gap.isBroken = true → p.column ≠ 0) (cs : List Char) :
    singleFrom gap (p.spots (c :: cs)) = before gap [c] (singleFrom .none ((p.after c).spots cs)) := by
  have hmark := unmarked hpos (c :: cs)
  rw [Position.spots_cons] at hmark ⊢
  rw [singleFrom_cons, Position.spot_char, hc.isBreak, if_neg Bool.false_ne_true, hc.isSpaceOrTab hspace,
    if_neg Bool.false_ne_true, hmark, if_neg Bool.false_ne_true, if_neg hquote]

theorem single_quote (hpos : gap.isBroken = true → p.column ≠ 0) (cs : List Char) :
    singleFrom gap (p.spots ('\'' :: cs)) =
      match (p.after '\'').spots cs with
      | t :: rest' =>
        if t.char = '\'' then before gap ['\''] (singleFrom .none rest') else .ok (gap.text, t :: rest')
      | [] => .ok (gap.text, []) := by
  have hmark := unmarked hpos ('\'' :: cs)
  rw [Position.spots_cons] at hmark ⊢
  rw [singleFrom_cons, Position.spot_char, if_neg (by decide), if_neg (by decide), hmark,
    if_neg Bool.false_ne_true, if_pos rfl]

/-- A quote that is written twice stands for itself. -/
theorem single_quotePair (hpos : gap.isBroken = true → p.column ≠ 0) (cs : List Char) :
    singleFrom gap (p.spots ('\'' :: '\'' :: cs)) =
      before gap ['\''] (singleFrom .none (((p.after '\'').after '\'').spots cs)) := by
  rw [single_quote hpos, Position.spots_cons]
  exact if_pos rfl

/-- A quote before anything else ends the scalar. -/
theorem single_end (hpos : gap.isBroken = true → p.column ≠ 0) {cs : List Char} (hcs : cs.head? ≠ some '\'') :
    singleFrom gap (p.spots ('\'' :: cs)) = .ok (gap.text, (p.after '\'').spots cs) := by
  rw [single_quote hpos]
  cases cs with
  | nil => rfl
  | cons c cs =>
      rw [Position.spots_cons]
      exact if_neg (by simpa using hcs)

/-- A line feed of the text ends its line; the next line is indented unless it is empty. -/
theorem single_lineEnd {indent : Nat} (hindent : indent ≠ 0) (gap : Gap) (p : Position) (cs : List Char) :
    ∃ q : Position, (q.column ≠ 0 ∨ cs.head? = some '\n') ∧ ∀ rest,
      singleFrom gap (p.spots ((if cs.head? = some '\n' then ['\n'] else newLine indent) ++ rest)) =
        singleFrom (gap.addBreak '\n') (q.spots rest) := by
  by_cases hnext : cs.head? = some '\n'
  · refine ⟨p.after '\n', .inr hnext, fun rest => ?_⟩
    rw [if_pos hnext]
    exact single_break gap p rest
  · refine ⟨p.nextLine indent, .inl (by rwa [p.nextLine_column]), fun rest => ?_⟩
    rw [if_neg hnext]
    exact single_newLine gap p indent rest

/-- A line feed of the text, for which the first of several is written twice. -/
theorem single_lineFeed {indent : Nat} {last : Option Char} {cs : List Char} (hindent : indent ≠ 0)
    (hgap : Held last ('\n' :: cs) gap) (hlast : last ≠ some ' ') (p : Position) :
    ∃ (next : Gap) (q : Position), Held (some '\n') cs next ∧ (q.column ≠ 0 ∨ cs.head? = some '\n') ∧
      ∀ rest, Advances singleFrom Gap.text gap
        (p.spots ((if last = some '\n' then [] else ['\n']) ++
          ((if cs.head? = some '\n' then ['\n'] else newLine indent) ++ rest))) ['\n'] next
        (q.spots rest) := by
  obtain ⟨next, hheld, htext, -, hnext⟩ := hgap.addBreak hlast
  by_cases hagain : last = some '\n'
  · obtain ⟨q, hq, hread⟩ := single_lineEnd hindent gap p cs
    refine ⟨next, q, hheld, hq, fun rest => advances_of_eq ?_ htext⟩
    rw [if_pos hagain] at hnext ⊢
    rw [List.nil_append, hread, hnext]
  · obtain ⟨q, hq, hread⟩ := single_lineEnd hindent (gap.addBreak '\n') (p.after '\n') cs
    refine ⟨next, q, hheld, hq, fun rest => advances_of_eq ?_ htext⟩
    rw [if_neg hagain] at hnext ⊢
    rw [List.singleton_append, single_break, hread, hnext]

/-- The words of a text between single quotes are read as the text. -/
theorem advances_words {fold : Bool} {indent column : Nat} {last : Option Char} {cs : List Char}
    (hindent : indent ≠ 0) (heasy : ∀ c ∈ cs, isEasy c = true)
    (hragged : hasRaggedLine (last.toList ++ cs) = false) (hgap : Held last cs gap)
    (hpos : gap.isBroken = true → p.column ≠ 0 ∨ cs.head? = some '\n') :
    ∃ (next : Gap) (q : Position), (next.isBroken = true → q.column ≠ 0) ∧ ∀ tail,
      Advances singleFrom Gap.text gap (p.spots (wordsFrom fold true indent column last cs ++ tail)) cs next
        (q.spots tail) := by
  induction cs generalizing p gap last column with
  | nil => exact ⟨gap, p, fun h => (hpos h).resolve_right (by simp), fun tail => .refl _ _⟩
  | cons c cs ih =>
      obtain ⟨hc, hcs⟩ := List.forall_mem_cons.mp heasy
      have hrest := ragged_tail hragged
      obtain ⟨hspaced, hlined⟩ := not_beside hragged
      by_cases hspace : c = ' '
      · subst hspace
        have hline := hspaced rfl
        rw [wordsFrom, if_pos rfl]
        dsimp only
        split
        · next hfold =>
          -- a space that is written as a line break
          obtain ⟨hlast, d, ds, rfl, hd⟩ := folded_between (by simpa using hfold)
          have hd' : d ≠ '\n' := fun h => (not_beside hrest).2 h rfl
          have hcolumn : (p.nextLine indent).column ≠ 0 := by rwa [p.nextLine_column]
          obtain rfl := hgap.eq_none hlast hline
          obtain ⟨next, q, hq, hread⟩ := ih hcs hrest (.folded hd hd') fun _ => .inl hcolumn
          refine ⟨next, q, hq, fun tail => ?_⟩
          rw [List.append_assoc]
          exact (advances_of_eq (single_newLine .none p indent _) rfl).trans (hread tail)
        · obtain ⟨hheld, htext, hbroken⟩ := hgap.addBlank hline
          obtain ⟨next, q, hq, hread⟩ := ih (p := p.after ' ') hcs hrest hheld fun h =>
            absurd (hbroken.symm.trans h) Bool.false_ne_true
          exact ⟨next, q, hq, fun tail => (advances_of_eq (single_space gap p _) htext).trans (hread tail)⟩
      · by_cases hline : c = '\n'
        · subst hline
          obtain ⟨middle, r, hheld, hr, hstep⟩ := single_lineFeed hindent hgap (hlined rfl) p
          obtain ⟨next, q, hq, hread⟩ := ih (p := r) hcs hrest hheld fun _ => hr
          refine ⟨next, q, hq, fun tail => ?_⟩
          rw [wordsFrom, if_neg hspace, if_pos rfl, List.append_assoc, List.append_assoc]
          exact (hstep _).trans (hread tail)
        · have hcolumn (hbroken : gap.isBroken = true) : p.column ≠ 0 :=
            (hpos hbroken).resolve_right (by simpa using hline)
          have hword := Held.word hspace hline cs
          rw [wordsFrom, if_neg hspace, if_neg hline]
          split
          · next hquote =>
            obtain rfl : c = '\'' := by simpa using hquote
            obtain ⟨next, q, hq, hread⟩ := ih (p := (p.after '\'').after '\'') hcs hrest hword
              (by simp [Gap.isBroken])
            exact ⟨next, q, hq, fun tail =>
              (advances_of_before (single_quotePair hcolumn _) rfl rfl).trans (hread tail)⟩
          · next hquote =>
            have hquote : c ≠ '\'' := by simpa using hquote
            obtain ⟨next, q, hq, hread⟩ := ih (p := p.after c) hcs hrest hword (by simp [Gap.isBroken])
            exact ⟨next, q, hq, fun tail => (advances_of_before
              (single_word (isShown_of_isEasy hc hline) hspace hquote hcolumn _) rfl rfl).trans (hread tail)⟩

theorem of_before {gap : Gap} {cs ds : List Char} {r : Except Problem (List Char × List Spot)}
    {rest : List Spot} (h : before gap cs r = .ok (ds, rest)) : ∃ es, r = .ok (es, rest) := by
  rcases r with problem | ⟨es, rest'⟩
  · cases h
  · obtain ⟨-, rfl⟩ := Prod.mk.inj (Except.ok.inj h)
    exact ⟨es, rfl⟩

theorem suffix_single {spots rest : List Spot} {cs : List Char}
    (h : singleFrom gap spots = .ok (cs, rest)) : rest <:+ spots := by
  fun_induction singleFrom gap spots generalizing cs with
  | case1 => cases h
  | case2 _ s spots _ ih => exact (ih h).trans (List.suffix_cons s spots)
  | case3 _ s spots _ _ ih => exact (ih h).trans (List.suffix_cons s spots)
  | case4 => cases h
  | case5 _ s _ _ _ t spots _ _ ih =>
      obtain ⟨_, h⟩ := of_before h
      exact (ih h).trans ((List.suffix_cons t spots).trans (List.suffix_cons s _))
  | case6 _ s _ _ _ t spots =>
      cases h
      exact List.suffix_cons s _
  | case7 =>
      cases h
      exact List.nil_suffix
  | case8 _ s spots _ _ _ _ ih =>
      obtain ⟨_, h⟩ := of_before h
      exact (ih h).trans (List.suffix_cons s spots)

/-- A text between single quotes is read back, however its lines are folded. -/
theorem single_words (fold : Bool) {indent : Nat} (column : Nat) {cs tail : List Char} (hindent : indent ≠ 0)
    (htail : tail.head? ≠ some '\'') (heasy : ∀ c ∈ cs, isEasy c = true) (hragged : hasRaggedLine cs = false)
    (p : Position) :
    singleFrom .none (p.spots (wordsFrom fold true indent column none cs ++ '\'' :: tail)) =
      .ok (cs, (p.afterAll (wordsFrom fold true indent column none cs ++ ['\''])).spots tail) := by
  have hragged' : hasRaggedLine (none.toList ++ cs) = false := hragged
  obtain ⟨gap, q, hq, hread⟩ := advances_words (p := p) hindent heasy hragged' (.start cs)
    (by simp [Gap.isBroken])
  have hend := single_end hq htail
  rw [← List.append_nil gap.text] at hend
  have hsingle := hread ('\'' :: tail) [] _ hend
  rw [List.append_nil, Gap.text, List.nil_append] at hsingle
  have hsuffix := suffix_single hsingle
  rw [← List.singleton_append, ← List.append_assoc] at hsuffix
  rw [hsingle, p.spots_of_suffix hsuffix (Position.length_spots _ _)]

end Quoted

/-! ### Without quotes -/

namespace Plain

/-- A text over which a plain scalar goes on, after the character `last`. -/
def Flows : Option Char → List Char → Prop
  | last, [] => last ≠ some ' ' ∧ last ≠ some '\n'
  | last, c :: cs => IsShown c ∧ (c = ':' → spaceNext cs = false) ∧ (c = '#' → last ≠ some ' ') ∧
      Flows (some c) cs

theorem shown_of_flows {last : Option Char} {cs : List Char} (h : Flows last cs) : ∀ c ∈ cs, IsShown c := by
  induction cs generalizing last with
  | nil => simp
  | cons c cs ih =>
      obtain ⟨hc, -, -, hrest⟩ := h
      exact List.forall_mem_cons.mpr ⟨hc, ih hrest⟩

theorem flows_inner {a : Char} {cs : List Char} (ha : IsShown a) (hcs : ∀ c ∈ cs, IsShown c)
    (hmark : hasInnerMark (a :: cs) = false) (hlast : (a :: cs).getLast? ≠ some ' ') :
    Flows (some a) cs := by
  induction cs generalizing a with
  | nil => exact ⟨by simpa using hlast, by simpa using ha.ne_of_lt (d := '\n') (by decide)⟩
  | cons b cs ih =>
      have hb := hcs b List.mem_cons_self
      simp only [hasInnerMark, Bool.or_eq_false_iff, Bool.and_eq_false_iff, beq_eq_false_iff_ne] at hmark
      obtain ⟨⟨hcolon, hnumber⟩, hrest⟩ := hmark
      refine ⟨hb, fun h => hcolon.resolve_left (not_not_intro h), ?_, ?_⟩
      · intro h
        simpa using (hnumber.resolve_left (not_not_intro h)).1
      · refine ih hb (fun c hc => hcs c (List.mem_cons_of_mem b hc)) hrest ?_
        rwa [List.getLast?_cons_cons] at hlast

/-- What may stand without quotes is a text over which a plain scalar goes on. -/
theorem flows_of_allowsPlain {cs : List Char} (h : allowsPlain cs = true) : Flows none cs := by
  simp only [allowsPlain, Bool.and_eq_true, Bool.not_eq_true', List.all_eq_true, bne_iff_ne, ne_eq] at h
  obtain ⟨⟨⟨⟨⟨⟨heasy, -⟩, hlast⟩, -⟩, hstart⟩, hinner⟩, -⟩ := h
  have hshown (c : Char) (hc : c ∈ cs) : IsShown c := isShown_of_isEasy (heasy c hc).1 (heasy c hc).2
  cases cs with
  | nil => exact ⟨by simp, by simp⟩
  | cons c cs =>
      refine ⟨hshown c List.mem_cons_self, ?_, by simp, ?_⟩
      · rintro rfl
        simpa [startsWithMark] using hstart
      · exact flows_inner (hshown c List.mem_cons_self) (fun d hd => hshown d (List.mem_cons_of_mem c hd))
          hinner hlast

variable {least : Nat} {gap : Gap} {p : Position}

theorem scan_space (gap : Gap) (p : Position) (cs : List Char) :
    scanFrom false least gap (p.spots (' ' :: cs)) =
      scanFrom false least (gap.addBlank ' ') ((p.after ' ').spots cs) := by
  rw [Position.spots_cons, scanFrom, Position.spot_char, if_neg (by decide), if_pos rfl]

theorem scan_break (gap : Gap) (p : Position) (cs : List Char) :
    scanFrom false least gap (p.spots ('\n' :: cs)) =
      scanFrom false least (gap.addBreak '\n') ((p.after '\n').spots cs) := by
  rw [Position.spots_cons, scanFrom, Position.spot_char, if_pos isBreak_lineFeed]

theorem scan_newLine (gap : Gap) (p : Position) (indent : Nat) (cs : List Char) :
    scanFrom false least gap (p.spots (newLine indent ++ cs)) =
      scanFrom false least (gap.addBreak '\n') ((p.nextLine indent).spots cs) := by
  rw [newLine, List.cons_append, scan_break, Position.nextLine]
  refine Position.pass_spaces _ (fun q cs => ?_) indent cs
  rw [scan_space, addBlank_of_isBroken (isBroken_addBreak gap '\n')]

/-- A scan that has gone over a text before. -/
def Scan.after (cs : List Char) (r : Scan) : Scan := { r with text := cs ++ r.text }

theorem Scan.after_after (cs ds : List Char) (r : Scan) : (r.after ds).after cs = r.after (cs ++ ds) := by
  simp [Scan.after]

theorem scan_word {c : Char} {cs : List Char} (hc : IsShown c) (hspace : c ≠ ' ')
    (hcolon : c = ':' → (cs.head?.map isSeparator).getD true = false)
    (hnumber : gap ≠ .none → c ≠ '#' ∧ least ≤ p.column ∧ p.column ≠ 0) :
    scanFrom false least gap (p.spots (c :: cs)) =
      (scanFrom false least .none ((p.after c).spots cs)).after (gap.text ++ [c]) := by
  have hstop : (stopsAt false c ((p.after c).spots cs) ||
      (gap.isBroken && isDocumentMark (p.spots (c :: cs))) ||
      (gap ≠ .none && (c = '#' || (!false && p.column < least)))) = false := by
    have hstops : stopsAt false c ((p.after c).spots cs) = false := by
      rw [stopsAt, hc.isSeparator hspace]
      by_cases hc' : c = ':'
      · rw [Position.endsAt_spots]
        simpa using fun _ => hcolon hc'
      · simp [hc']
    rw [hstops]
    cases hgap : decide (gap ≠ .none) with
    | false =>
        obtain rfl : gap = .none := by simpa using hgap
        rfl
    | true =>
        obtain ⟨hne, hleast, hzero⟩ := hnumber (of_decide_eq_true hgap)
        rw [p.not_isDocumentMark hzero]
        simpa [hne] using hleast
  rw [Position.spots_cons] at hstop ⊢
  rw [scanFrom, Position.spot_char, hc.isBreak, if_neg Bool.false_ne_true, if_neg hspace,
    Position.spot_column, hstop, if_neg Bool.false_ne_true]
  simp only [Scan.after, List.append_assoc, List.singleton_append]

theorem head_words {c : Char} (hspace : c ≠ ' ') (hline : c ≠ '\n') (fold : Bool) (indent column : Nat)
    (last : Option Char) (cs tail : List Char) :
    (wordsFrom fold false indent column last (c :: cs) ++ tail).head? = some c := by
  rw [wordsFrom, if_neg hspace, if_neg hline]
  rfl

/-- The words of a text without quotes are read back as the text, and reading goes on after them. -/
theorem scan_words {fold : Bool} {indent column : Nat} {last : Option Char} {cs tail : List Char}
    (hindent : fold = true → least ≤ indent ∧ indent ≠ 0) (hcs : Flows last cs) (hlast : last ≠ some '\n')
    (hgap : Held last cs gap) (hcolumn : gap ≠ .none ∨ ' ' ∈ cs → least ≤ p.column ∧ p.column ≠ 0) :
    scanFrom false least gap (p.spots (wordsFrom fold false indent column last cs ++ tail)) =
      (scanFrom false least .none ((p.afterAll (wordsFrom fold false indent column last cs)).spots tail)).after
        (gap.text ++ cs) := by
  induction cs generalizing p gap last column with
  | nil =>
      obtain rfl := hgap.eq_none hcs.1 hcs.2
      rfl
  | cons c cs ih =>
      obtain ⟨hshown, hcolon, hnumber, hrest⟩ := hcs
      have hline : c ≠ '\n' := hshown.ne_of_lt (by decide)
      by_cases hspace : c = ' '
      · subst hspace
        obtain ⟨hleast, hzero⟩ := hcolumn (.inr List.mem_cons_self)
        rw [wordsFrom, if_pos rfl]
        dsimp only
        split
        · next hfold =>
            obtain ⟨hspaced, d, ds, rfl, hd⟩ := folded_between (by simpa using hfold)
            have hd' : d ≠ '\n' := hrest.1.ne_of_lt (by decide)
            obtain rfl := hgap.eq_none hspaced hlast
            obtain ⟨hnext, hnext'⟩ := hindent (by simp_all)
            rw [List.append_assoc, scan_newLine, Position.afterAll_append]
            refine ih hrest (by simp) (.folded hd hd') fun _ => ?_
            rw [p.nextLine_column]
            exact ⟨hnext, hnext'⟩
        · obtain ⟨hheld, htext, -⟩ := hgap.addBlank hlast
          rw [List.cons_append, scan_space, ih hrest (by simp) hheld, htext, List.append_assoc]
          · rfl
          · intro _
            rw [p.after_shown hshown]
            exact ⟨Nat.le_succ_of_le hleast, Nat.succ_ne_zero _⟩
      · rw [wordsFrom, if_neg hspace, if_neg hline, Bool.false_and, if_neg Bool.false_ne_true,
          List.cons_append]
        rw [scan_word hshown hspace ?_ ?_, ih hrest (by simpa using hline) (.word hspace hline cs) ?_]
        · rw [Scan.after_after, List.append_assoc]
          rfl
        · rintro (hne | hm)
          · exact absurd rfl hne
          · rw [p.after_shown hshown]
            exact ⟨Nat.le_succ_of_le (hcolumn (.inr (List.mem_cons_of_mem c hm))).1, Nat.succ_ne_zero _⟩
        · intro hc
          have hnext := hcolon hc
          cases cs with
          | nil => cases hnext
          | cons d ds =>
              simp only [spaceNext, Bool.or_eq_false_iff, beq_eq_false_iff_ne] at hnext
              rw [head_words hnext.1 hnext.2]
              exact hrest.1.isSeparator hnext.1
        · intro hne
          refine ⟨fun hc => ?_, hcolumn (.inl hne)⟩
          exact hne (hgap.eq_none (hnumber hc) hlast)

/-- A line that is not indented far enough ends a plain scalar. -/
theorem scan_lineEnd {k : Nat} {cs : List Char} (hk : k < least) (hcs : ∀ c ∈ cs.head?, IsShown c ∧ c ≠ ' ')
    (p : Position) :
    scanFrom false least .none (p.spots (newLine k ++ cs)) = ⟨[], true, (p.nextLine k).spots cs⟩ := by
  rw [scan_newLine]
  cases cs with
  | nil => rfl
  | cons c cs =>
      obtain ⟨hshown, hspace⟩ := hcs c rfl
      rw [Position.spots_cons, scanFrom, Position.spot_char, hshown.isBreak, if_neg Bool.false_ne_true,
        if_neg hspace, Position.spot_column, p.nextLine_column]
      exact if_pos (by simp [Gap.addBreak, hk])

/-- A colon before a blank or a break ends a plain scalar. -/
theorem scan_colon {cs : List Char} (hcs : (cs.head?.map isSeparator).getD true = true) (p : Position) :
    scanFrom false least .none (p.spots (':' :: cs)) = ⟨[], false, p.spots (':' :: cs)⟩ := by
  have hstop : stopsAt false ':' ((p.after ':').spots cs) = true := by
    simp [stopsAt, Position.endsAt_spots, hcs]
  rw [Position.spots_cons, scanFrom, Position.spot_char, if_neg (by decide), if_neg (by decide), hstop]
  rfl

end Plain

end CatalogSteward.Yaml
