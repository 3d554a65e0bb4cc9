import CatalogSteward.Proofs.Yaml.Escapes
import CatalogSteward.Yaml.Token
import CatalogSteward.Yaml.Writer
import Mathlib.Data.Bool.AllAny

/-!
# Entries are cut into their tokens

Between two entries of a mapping nothing of the text is remembered but the columns of the open
collections. From there a key with its colon, and a value to the end of its line, are read as their tokens.
-/

namespace CatalogSteward.Yaml
open Style

/-! ### Lines -/

namespace Lexer

/-- Reading on from here gives the tokens, with more steps than characters are left, and all of them
could be formed. -/
structure Gives (lx : Lexer) (spots : List Spot) (ts : List Token) : Prop where
  formed : ∀ fault, Token.broken fault ∉ ts
  reads : ∀ n, spots.length < n → run n lx spots = .ok ts

/-- The state outside of brackets and braces in which there is no possible key. -/
def between (columns : List Nat) (allowed : Bool) (tokens : List Token) (count : Nat) : Lexer :=
  ⟨0, columns, allowed, [], tokens, count⟩

variable {lx lx' : Lexer} {columns : List Nat} {allowed : Bool} {tokens ts : List Token} {count : Nat}
  {p : Position}

/-- A character at which a token starts. -/
def IsContent (c : Char) : Prop := IsShown c ∧ c ≠ ' ' ∧ c ≠ '#'

instance (c : Char) : Decidable (IsContent c) := inferInstanceAs (Decidable (_ ∧ _))

theorem skipGap_content {c : Char} (hc : IsContent c) (broken : Bool) (p : Position) (cs : List Char) :
    skipGap false broken (p.spots (c :: cs)) = (broken, p.spots (c :: cs)) := by
  rw [Position.spots_cons, skipGap, Position.spot_char, hc.1.isBreak, if_neg Bool.false_ne_true,
    if_neg (by simpa using hc.2.1), if_neg hc.2.2]

theorem skipGap_newLine (p : Position) (k : Nat) (cs : List Char) :
    skipGap false false (p.spots (newLine k ++ cs)) = skipGap false true ((p.nextLine k).spots cs) := by
  rw [newLine, List.cons_append, Position.spots_cons, skipGap, Position.spot_char, if_pos isBreak_lineFeed,
    Position.nextLine]
  refine Position.pass_spaces _ (fun q cs => ?_) k cs
  rw [Position.spots_cons, skipGap, Position.spot_char, if_neg (by decide), if_pos (by decide)]

theorem forgetStale_between (s : Spot) :
    (between columns allowed tokens count).forgetStale s = .ok (between columns allowed tokens count) := rfl

/-- The tokens that are left at the end of the text are the ends of the open collections. -/
theorem gives_end (columns : List Nat) (allowed : Bool) (count : Nat) (h : ∀ fault, Token.broken fault ∉ tokens) :
    Gives (between columns allowed tokens count) []
      (List.replicate columns.length Token.blockEnd ++ tokens).reverse := by
  refine ⟨fun fault hmem => ?_, fun n hn => ?_⟩
  · rcases List.mem_append.mp (List.mem_reverse.mp hmem) with hend | hmem
    · exact Token.noConfusion (List.eq_of_mem_replicate hend)
    · exact h fault hmem
  cases n with
  | zero => cases hn
  | succ n => rfl

theorem Gives.step {c : Char} {cs : List Char} {rest : List Spot} (hc : IsContent c)
    (hstale : lx.forgetStale (p.spot c) = .ok lx)
    (htoken : (lx.closeTo p.column).token (p.spot c) ((p.after c).spots cs) = .ok (lx', rest))
    (hrest : rest.length ≤ cs.length) (h : Gives lx' rest ts) : Gives lx (p.spots (c :: cs)) ts := by
  refine ⟨h.formed, fun n hn => ?_⟩
  have hskip := skipGap_content hc false p cs
  rw [Position.length_spots] at hn
  rw [Position.spots_cons] at hskip ⊢
  cases n with
  | zero => cases hn
  | succ n =>
      have hn' : rest.length < n := Nat.lt_of_le_of_lt hrest (Nat.lt_of_succ_lt_succ hn)
      rw [run, hstale]
      dsimp only [bind, Except.bind]
      rw [hskip]
      dsimp only
      rw [hstale]
      dsimp only
      rw [Bool.false_and, if_neg Bool.false_ne_true, Position.spot_column, htoken]
      exact h.reads n hn'

/-- Blanks and breaks between two tokens are passed over; behind a break a key may start. -/
theorem Gives.gap {spots : List Spot} {c : Char} {cs : List Char} {broken : Bool} (hc : IsContent c)
    (hskip : skipGap false false spots = (broken, p.spots (c :: cs))) (hlength : cs.length < spots.length)
    (h : Gives (between columns (allowed || broken) tokens count) (p.spots (c :: cs)) ts) :
    Gives (between columns allowed tokens count) spots ts := by
  refine ⟨h.formed, fun n hn => ?_⟩
  have hlength' : (p.spots (c :: cs)).length < n := by
    rw [Position.length_spots, List.length_cons]
    omega
  have hgives := h.reads n hlength'
  have hskip' := skipGap_content hc false p cs
  rw [Position.spots_cons] at hskip hskip' hgives
  cases n with
  | zero => cases hn
  | succ n =>
      cases spots with
      | nil => cases hlength
      | cons s rest =>
          rw [run, forgetStale_between] at hgives ⊢
          dsimp only [bind, Except.bind] at hgives ⊢
          rw [hskip'] at hgives
          rw [hskip]
          cases broken with
          | false => rwa [Bool.or_false] at hgives
          | true => rwa [Bool.or_true] at hgives

theorem Gives.line {cs : List Char} {k : Nat} (hcs : ∀ c ∈ cs.head?, IsContent c)
    (h : Gives (between columns true tokens count) ((p.nextLine k).spots cs) ts) :
    Gives (between columns allowed tokens count) (p.spots (newLine k ++ cs)) ts := by
  have hskip := skipGap_newLine p k cs
  have hlength : cs.length < (p.spots (newLine k ++ cs)).length := by
    rw [Position.length_spots, newLine, List.cons_append, List.length_cons, List.length_append]
    omega
  cases cs with
  | nil =>
      refine ⟨h.formed, fun n hn => ?_⟩
      rw [Position.length_spots, newLine, List.cons_append, List.length_cons] at hn
      obtain ⟨n, rfl⟩ : ∃ m, n = m + 2 := ⟨n - 2, by omega⟩
      rw [newLine, List.cons_append, Position.spots_cons] at hskip ⊢
      rw [run, forgetStale_between]
      dsimp only [bind, Except.bind]
      rw [hskip]
      exact h.reads (n + 1) (Nat.succ_pos n)
  | cons c cs =>
      have hc := hcs c rfl
      rw [skipGap_content hc] at hskip
      refine Gives.gap hc hskip (Nat.lt_of_succ_lt hlength) ?_
      rwa [Bool.or_true]

theorem Gives.space {c : Char} {cs : List Char} (hc : IsContent c)
    (h : Gives (between columns allowed tokens count) ((p.after ' ').spots (c :: cs)) ts) :
    Gives (between columns allowed tokens count) (p.spots (' ' :: c :: cs)) ts := by
  have hskip : skipGap false false (p.spots (' ' :: c :: cs)) = (false, (p.after ' ').spots (c :: cs)) := by
    rw [Position.spots_cons, skipGap, Position.spot_char, if_neg (by decide), if_pos (by decide)]
    exact skipGap_content hc false _ cs
  refine Gives.gap hc hskip ?_ ?_
  · rw [Position.length_spots, List.length_cons, List.length_cons]
    omega
  · rwa [Bool.or_false]

/-! ### Possible keys -/

/-- The state outside of brackets and braces with what may still become a key. -/
def noting (columns : List Nat) (allowed : Bool) (keys : List (Nat × PossibleKey)) (tokens : List Token)
    (count : Nat) : Lexer :=
  ⟨0, columns, allowed, keys, tokens, count⟩

section
variable {keys : List (Nat × PossibleKey)}

/-- What need not be a key is remembered as long as the line lasts. -/
theorem forgetStale_noting (columns : List Nat) (allowed : Bool) (tokens : List Token) (count : Nat)
    (hkeys : ∀ k ∈ keys, k.2.required = false) (s : Spot) :
    ∃ fresh, (∀ k ∈ fresh, k ∈ keys ∧ k.2.line = s.line) ∧
      (noting columns allowed keys tokens count).forgetStale s =
        .ok (noting columns allowed fresh tokens count) := by
  refine ⟨keys.filter fun k => !(k.2.line != s.line || k.2.index + keyReach < s.index), fun k hk => ?_, ?_⟩
  · obtain ⟨hk, hfresh⟩ := List.mem_filter.mp hk
    simp only [Bool.not_eq_true', Bool.or_eq_false_iff, bne_eq_false_iff_eq] at hfresh
    exact ⟨hk, hfresh.1⟩
  · rw [forgetStale, if_neg]
    · rfl
    · simpa [noting] using fun a k hk _ => hkeys (a, k) hk

/-- On the next line it is forgotten. -/
theorem forgetStale_nextLine {s : Spot} (hkeys : ∀ k ∈ keys, k.2.required = false ∧ k.2.line < s.line) :
    (noting columns allowed keys tokens count).forgetStale s = .ok (between columns allowed tokens count) := by
  obtain ⟨fresh, hfresh, hforget⟩ := forgetStale_noting columns allowed tokens count (fun k hk => (hkeys k hk).1) s
  obtain rfl : fresh = [] := List.eq_nil_iff_forall_not_mem.mpr fun k hk =>
    Nat.ne_of_lt (hkeys k (hfresh k hk).1).2 (hfresh k hk).2
  exact hforget

theorem run_nil_noting (hkeys : ∀ k ∈ keys, k.2.required = false) (n : Nat) :
    run n (noting columns allowed keys tokens count) [] = run n (between columns allowed tokens count) [] := by
  cases n with
  | zero => rfl
  | succ n =>
      have hnone : keys.any (fun k => k.2.required) = false := by simpa using fun a k hk => hkeys (a, k) hk
      simp [run, between, noting, hnone, closeAll]

theorem Gives.forget {spots : List Spot} (hkeys : ∀ k ∈ keys, k.2.required = false)
    (hline : ∀ s ∈ spots.head?, ∀ k ∈ keys, k.2.line < s.line)
    (h : Gives (between columns allowed tokens count) spots ts) :
    Gives (noting columns allowed keys tokens count) spots ts := by
  refine ⟨h.formed, fun n hn => ?_⟩
  have hgives := h.reads n hn
  cases spots with
  | nil => rwa [run_nil_noting hkeys]
  | cons s rest =>
      cases n with
      | zero => cases hn
      | succ n =>
          rw [run, forgetStale_between] at hgives
          rwa [run, forgetStale_nextLine fun k hk => ⟨hkeys k hk, hline s rfl k hk⟩]

/-- At the end of a line nothing is left of what may have become a key on it. -/
theorem Gives.lineEnd {cs : List Char} {k : Nat} (hkeys : ∀ k ∈ keys, k.2.required = false ∧ k.2.line ≤ p.line)
    (hcs : ∀ c ∈ cs.head?, IsContent c)
    (h : Gives (between columns true tokens count) ((p.nextLine k).spots cs) ts) :
    Gives (noting columns allowed keys tokens count) (p.spots (newLine k ++ cs)) ts := by
  refine ⟨h.formed, fun n hn => ?_⟩
  have hline : Gives (between columns allowed tokens count) (p.spots (newLine k ++ cs)) ts := .line hcs h
  have hgives := hline.reads n hn
  have hskip := skipGap_newLine p k cs
  rw [newLine, List.cons_append, Position.spots_cons] at hskip hgives ⊢
  obtain ⟨fresh, hfresh, hforget⟩ := forgetStale_noting columns allowed tokens count (fun k hk => (hkeys k hk).1)
    (p.spot '\n')
  cases n with
  | zero => cases hn
  | succ n =>
      rw [run, forgetStale_between] at hgives
      rw [run, hforget]
      dsimp only [bind, Except.bind] at hgives ⊢
      rw [hskip] at hgives ⊢
      cases cs with
      | nil => rwa [Position.spots_nil, skipGap, run_nil_noting fun k hk => (hkeys k (hfresh k hk).1).1]
      | cons c cs =>
          have hnext : ∀ k' ∈ fresh, k'.2.required = false ∧ k'.2.line < ((p.nextLine k).spot c).line :=
            fun k' hk => by
              obtain ⟨hrequired, hline⟩ := hkeys k' (hfresh k' hk).1
              rw [Position.spot_line, p.nextLine_line]
              exact ⟨hrequired, Nat.lt_succ_of_le hline⟩
          rw [skipGap_content (hcs c rfl), Position.spots_cons] at hgives ⊢
          dsimp only at hgives ⊢
          rw [forgetStale_between] at hgives
          rw [forgetStale_nextLine hnext]
          dsimp only at hgives ⊢
          -- only a token that could not be formed would show what was remembered
          split at hgives
          next => exact hgives
          next fault _ =>
            refine absurd ?_ (h.formed fault)
            rw [← Except.ok.inj hgives]
            exact List.mem_append_right _ List.mem_cons_self
          next => cases hgives

end

/-- What is noted of a token at a position, if a key may start there. -/
def possible (columns : List Nat) (allowed : Bool) (p : Position) (count : Nat) : List (Nat × PossibleKey) :=
  if allowed then [(0, ⟨count, columns.head? == some p.column, p.line, p.column, p.index⟩)] else []

theorem noteKey_between (c : Char) : (between columns allowed tokens count).noteKey (p.spot c) =
    .ok (noting columns allowed (possible columns allowed p count) tokens count) := by
  cases allowed <;> rfl

/-- A token further in than the open collections need not be a key. -/
theorem possible_inner {current : Nat} (outer : List Nat) (allowed : Bool) (count : Nat) (h : current < p.column) :
    ∀ k ∈ possible (current :: outer) allowed p count, k.2.required = false ∧ k.2.line = p.line := by
  intro k hk
  rw [possible] at hk
  split at hk
  · obtain rfl := List.mem_singleton.mp hk
    exact ⟨by simpa using Nat.ne_of_lt h, rfl⟩
  · cases hk

/-! ### Collections -/

theorem closeTo_eq {column : Nat} (h : ∀ c ∈ lx.columns.head?, c ≤ column) : lx.closeTo column = lx := by
  obtain ⟨flow, columns, allowed, keys, tokens, count⟩ := lx
  have hnone : columns.takeWhile (column < ·) = [] := by
    cases columns with
    | nil => rfl
    | cons c columns =>
        rw [List.takeWhile_cons, if_neg]
        simpa using h c rfl
  simp [closeTo, hnone]

theorem closeTo_between {current column : Nat} {outer : List Nat} (h : current ≤ column) :
    (between (current :: outer) allowed tokens count).closeTo column =
      between (current :: outer) allowed tokens count := by
  refine closeTo_eq fun c hc => ?_
  obtain rfl : current = c := by simpa [between] using hc
  exact h

/-! ### Tokens -/

theorem isMark_of_ne {c : Char} {s : Spot} (h : s.char ≠ c) (rest : List Spot) :
    isMark c (s :: rest) = false := by
  rcases rest with _ | ⟨a, _ | ⟨b, rest⟩⟩
  · rfl
  · rfl
  · simp [isMark, h]

/-- A token without quotes starts at a character that has no meaning of its own there. -/
theorem token_plain {s : Spot} {rest : List Spot} (hflow : lx.flow = 0) (hs : IsShown s.char)
    (hspace : s.char ≠ ' ') (hmark : isDocumentMark (s :: rest) = false)
    (hstart : s.char ∉ "#,[]\x7b\x7d&*!|>'\"%@`".toList)
    (halone : s.char ∈ "?:-".toList → endsAt isSeparator rest = false) :
    lx.token s rest = lx.plain s (s :: rest) := by
  obtain ⟨hdash, hdot⟩ := Bool.or_eq_false_iff.mp hmark
  have hne (c : Char) (hc : c ∈ "#,[]\x7b\x7d&*!|>'\"%@`".toList) : s.char ≠ c := fun h => hstart (h ▸ hc)
  have hne' (c : Char) (hc : c ∈ "?:-".toList) (halone' : endsAt isSeparator rest = true) : s.char ≠ c :=
    fun h => Bool.false_ne_true ((halone (h ▸ hc)).symm.trans halone')
  have hstarts : Plain.starts false (s :: rest) = true := by
    have hmarks : ∀ c ∈ "?:,[]\x7b\x7d#&*!|>'\"%@`-".toList,
        c ∈ "#,[]\x7b\x7d&*!|>'\"%@`".toList ∨ c ∈ "?:-".toList := List.all_iff_forall_prop.mp (by decide)
    have hlone : ∀ c ∈ "?:-".toList, (c == '-' || (!false && (c == '?' || c == ':'))) = true :=
      List.all_eq_true.mp (by decide)
    rw [Plain.starts]
    split
    · next h =>
      rw [hs.isSeparator hspace, Bool.false_or, List.contains_iff_mem] at h
      have hmem := (hmarks _ h).resolve_left hstart
      rw [halone hmem, hlone _ hmem]
      rfl
    · rfl
  rw [token, if_neg (fun h => hne '%' (by decide) h.1), hdash, if_neg Bool.false_ne_true, hdot,
    if_neg Bool.false_ne_true]
  split
  case h_11 =>
    have hdash' : ¬(s.char = '-' ∧ endsAt isSeparator rest = true) := fun h => hne' '-' (by decide) h.2 h.1
    have hquestion : ¬(s.char = '?' ∧ endsAt isSeparator rest = true) := fun h => hne' '?' (by decide) h.2 h.1
    have hcolon : ¬(s.char = ':' ∧ endsAt isSeparator rest = true) := fun h => hne' ':' (by decide) h.2 h.1
    simp only [hflow, ne_eq, not_true_eq_false, decide_false, false_or, if_neg hdash',
      if_neg hquestion, if_neg hcolon, hne '|' (by decide), hne '>' (by decide), false_and, if_false, hstarts,
      if_true]
  all_goals
    next h => exact absurd h (hne _ (by decide))

theorem of_startsWithMark {c : Char} {cs : List Char} (h : startsWithMark (c :: cs) = false) :
    c ∉ "#,[]\x7b\x7d&*!|>'\"%@`".toList ∧ (c ∈ "?:-".toList → spaceNext cs = false) := by
  rw [startsWithMark, Bool.or_eq_false_iff, Bool.and_eq_false_iff] at h
  refine ⟨fun hc => ?_, fun hc => h.2.resolve_left fun hnot => ?_⟩
  · rw [List.contains_iff_mem.mpr hc] at h
    exact Bool.noConfusion h.1
  · rw [List.contains_iff_mem.mpr hc] at hnot
    exact Bool.noConfusion hnot

theorem endsAt_of_shown {c : Char} (hc : IsShown c) (hspace : c ≠ ' ') (p : Position) (cs : List Char) :
    endsAt isSeparator (p.spots (c :: cs)) = false := by
  rw [Position.endsAt_spots]
  exact hc.isSeparator hspace

theorem plain_eq (lx' : Lexer) {s : Spot} {spots : List Spot} {scan : Plain.Scan}
    (hnote : lx.noteKey s = .ok lx')
    (hscan : Plain.scanFrom (lx'.flow ≠ 0) lx'.leastColumn .none spots = scan) :
    lx.plain s spots =
      .ok (emit (.scalar true (String.ofList scan.text)) { lx' with keyAllowed := scan.broken },
        scan.rest) := by
  rw [plain, hnote]
  dsimp only [bind, Except.bind]
  rw [hscan]

/-- The state behind a text that may be a key and started at a position. -/
def awaiting (columns : List Nat) (p : Position) (tokens : List Token) (count : Nat) : Lexer :=
  ⟨0, columns, false, [(0, ⟨count, columns.head? == some p.column, p.line, p.column, p.index⟩)], tokens,
    count + 1⟩

/-- A text that may stand without quotes behind a key, whatever its type is. -/
structure IsFlowing (cs : List Char) : Prop where
  ne_nil : cs ≠ []
  head_ne : cs.head? ≠ some ' '
  startsWithMark : startsWithMark cs = false
  flows : Plain.Flows none cs

theorem isFlowing_of_allowsPlain {cs : List Char} (h : allowsPlain cs = true) : IsFlowing cs where
  ne_nil := by
    rintro rfl
    exact absurd h (by decide)
  head_ne := by
    simp only [allowsPlain, Bool.and_eq_true, bne_iff_ne] at h
    exact h.1.1.1.1.1.2
  startsWithMark := by
    simp only [allowsPlain, Bool.and_eq_true, Bool.not_eq_true'] at h
    exact h.1.1.2
  flows := Plain.flows_of_allowsPlain h

/-- A token starts at the first character of the text, which has no meaning of its own there. -/
theorem IsFlowing.head {c : Char} {cs : List Char} (h : IsFlowing (c :: cs)) :
    IsContent c ∧ c ∉ "#,[]\x7b\x7d&*!|>'\"%@`".toList ∧
      (c ∈ "?:-".toList → ∃ d ds, cs = d :: ds ∧ IsShown d ∧ d ≠ ' ') := by
  obtain ⟨-, hhead, hstart, hc, -, -, hrest⟩ := h
  obtain ⟨hlist, hlone⟩ := of_startsWithMark hstart
  have hspace : c ≠ ' ' := by simpa using hhead
  refine ⟨⟨hc, hspace, fun h => hlist (h ▸ by decide)⟩, hlist, fun hmem => ?_⟩
  cases cs with
  | nil => exact Bool.noConfusion (hlone hmem)
  | cons d ds =>
      have hnext := hlone hmem
      simp only [spaceNext, Bool.or_eq_false_iff, beq_eq_false_iff_ne] at hnext
      exact ⟨d, ds, rfl, hrest.1, hnext.1⟩

/-! ### Keys -/

theorem isMark_key {c : Char} (hc : c ≠ ':') {cs : List Char} (hcs : cs.take 3 ≠ [c, c, c]) (p : Position)
    (rest : List Char) : isMark c (p.spots (cs ++ ':' :: rest)) = false := by
  have hcolon : ':' ≠ c := hc.symm
  rcases cs with _ | ⟨a, _ | ⟨b, _ | ⟨d, cs⟩⟩⟩
  · rw [List.nil_append, Position.spots_cons]
    exact isMark_of_ne hcolon _
  · rcases rest with _ | ⟨e, rest⟩ <;> simp [isMark, hcolon]
  · simp [isMark, hcolon]
  · simp only [List.take_succ_cons, List.take_zero, ne_eq, List.cons.injEq, and_true, not_and] at hcs
    simp only [List.cons_append, Position.spots_cons, isMark, Position.spot_char, Bool.and_eq_false_iff,
      decide_eq_false_iff_not]
    by_cases ha : a = c
    · by_cases hb : b = c
      · exact .inl (.inr (decide_eq_false (hcs ha hb)))
      · exact .inl (.inl (.inr (decide_eq_false hb)))
    · exact .inl (.inl (.inl (.inr (decide_eq_false ha))))

/-- What a key at a column adds to the open collections and to the tokens. -/
def opening (columns : List Nat) (column : Nat) (tokens : List Token) : List Nat × List Token :=
  if (between columns true tokens 0).opensAt column then (column :: columns, .blockMappingStart :: tokens)
  else (columns, tokens)

theorem forgetStale_awaiting {q : Position} (hline : q.line = p.line) (hindex : q.index ≤ p.index + keyReach)
    (c : Char) :
    (awaiting columns p tokens count).forgetStale (q.spot c) = .ok (awaiting columns p tokens count) := by
  have hreach : ¬p.index + keyReach < q.index := Nat.not_lt.mpr hindex
  simp [forgetStale, awaiting, Position.spot, hline, hreach]

/-- The colon makes a key of what may be one. -/
theorem token_colon (columns : List Nat) (tokens : List Token) (count : Nat) (p q : Position) {rest : List Spot}
    (hrest : endsAt isSeparator rest = true) (t : Token) :
    ∃ count', (awaiting columns p (t :: tokens) count).token (q.spot ':') rest =
      .ok (between (opening columns p.column tokens).1 false
        (.value :: t :: .key :: (opening columns p.column tokens).2) count', rest) := by
  have hfind : (awaiting columns p (t :: tokens) count).token (q.spot ':') rest =
      (awaiting columns p (t :: tokens) count).colon (q.spot ':') rest := by
    rw [token, if_neg (by simp), isMark_of_ne (by simp), if_neg Bool.false_ne_true, isMark_of_ne (by simp),
      if_neg Bool.false_ne_true]
    simp [hrest]
  have hone : count + 1 - count = 1 := Nat.add_sub_cancel_left count 1
  have htwo : count + 1 + 1 - count = 2 := Nat.add_sub_cancel_left count 2
  rw [hfind, colon, opening]
  cases columns with
  | nil =>
      refine ⟨count + 4, ?_⟩
      simp [awaiting, insertBefore, emit, between, opensAt, hone, htwo]
  | cons c columns =>
      by_cases hc : c < p.column
      · refine ⟨count + 4, ?_⟩
        simp [awaiting, insertBefore, emit, between, opensAt, hc, hone, htwo]
      · refine ⟨count + 3, ?_⟩
        simp [awaiting, insertBefore, emit, between, opensAt, hc, hone]

/-! ### Values -/

/-- Folding keeps the first character of a text, and the second one where it matters. -/
theorem IsFlowing.words {c : Char} {cs : List Char} (h : IsFlowing (c :: cs)) (fold : Bool)
    (indent column : Nat) :
    ∃ w, wordsFrom fold false indent column none (c :: cs) = c :: w ∧
      (c ∈ "?:-".toList → ∃ d w', w = d :: w' ∧ IsShown d ∧ d ≠ ' ') := by
  obtain ⟨hc, -, hlone⟩ := h.head
  have hline (d : Char) (hd : IsShown d) : d ≠ '\n' := hd.ne_of_lt (by decide)
  refine ⟨wordsFrom fold false indent (column + 1) (some c) cs, ?_, fun hmem => ?_⟩
  · rw [wordsFrom, if_neg hc.2.1, if_neg (hline c hc.1)]
    rfl
  · obtain ⟨d, ds, rfl, hd, hspace⟩ := hlone hmem
    refine ⟨d, wordsFrom fold false indent (column + 1 + 1) (some d) ds, ?_, hd, hspace⟩
    rw [wordsFrom, if_neg hspace, if_neg (hline d hd)]
    rfl

/-- A value without quotes that is the last of its line. -/
theorem gives_flowing {current k indent column : Nat} {outer : List Nat} {fold : Bool} {cs rest : List Char}
    (hcs : IsFlowing cs) (hindent : fold = true → current < indent) (hcolumn : current < p.column)
    (hk : k ≤ current) (hrest : ∀ c ∈ rest.head?, IsContent c)
    (h : ∀ (q : Position) (count : Nat), q.column = k →
      Gives (between (current :: outer) true (.scalar true (String.ofList cs) :: tokens) count)
        (q.spots rest) ts) :
    ∃ c w, wordsFrom fold false indent column none cs = c :: w ∧ IsContent c ∧
      Gives (between (current :: outer) allowed tokens count) (p.spots (c :: (w ++ newLine k ++ rest))) ts := by
  have hzero : p.column ≠ 0 := Nat.ne_of_gt (Nat.zero_lt_of_lt hcolumn)
  cases cs with
  | nil => exact absurd rfl hcs.ne_nil
  | cons c cs =>
      obtain ⟨hc, hlist, -⟩ := hcs.head
      obtain ⟨w, hwords, hlone⟩ := hcs.words fold indent column
      refine ⟨c, w, hwords, hc, ?_⟩
      have hscan : Plain.scanFrom false (current + 1) .none (p.spots (c :: (w ++ newLine k ++ rest))) =
          ⟨c :: cs, true, ((p.afterAll (c :: w)).nextLine k).spots rest⟩ := by
        rw [List.append_assoc, ← List.cons_append, ← hwords,
          Plain.scan_words (fun hfold => ⟨hindent hfold, Nat.ne_of_gt (Nat.zero_lt_of_lt (hindent hfold))⟩)
            hcs.flows (by simp) (.start (c :: cs)) (fun _ => ⟨hcolumn, hzero⟩), hwords,
          Plain.scan_lineEnd (Nat.lt_succ_of_le hk) fun d hd => ⟨(hrest d hd).1, (hrest d hd).2.1⟩,
          Plain.Scan.after, Gap.text, List.nil_append, List.append_nil]
      have hplain : (between (current :: outer) allowed tokens count).token (p.spot c)
            ((p.after c).spots (w ++ newLine k ++ rest)) =
          .ok (noting (current :: outer) true (possible (current :: outer) allowed p count)
            (.scalar true (String.ofList (c :: cs)) :: tokens) (count + 1),
            ((p.afterAll (c :: w)).nextLine k).spots rest) := by
        have hmark := p.not_isDocumentMark hzero (c :: (w ++ newLine k ++ rest))
        rw [Position.spots_cons] at hscan hmark
        rw [token_plain rfl hc.1 hc.2.1 hmark hlist]
        · exact plain_eq (noting (current :: outer) allowed (possible (current :: outer) allowed p count) tokens
            count) (noteKey_between c) hscan
        · intro hmem
          obtain ⟨d, w', rfl, hd, hspace⟩ := hlone hmem
          exact endsAt_of_shown hd hspace _ _
      have hkeys := possible_inner outer allowed count hcolumn
      have hline : p.line < ((p.afterAll (c :: w)).nextLine k).line := by
        rw [Position.nextLine_line]
        exact Nat.lt_succ_of_le (p.line_le_afterAll (c :: w))
      refine Gives.step hc rfl (closeTo_between (Nat.le_of_lt hcolumn) ▸ hplain) ?_
        (Gives.forget (fun k hk => (hkeys k hk).1) (fun s hs k' hk => ?_)
          (h _ _ (Position.nextLine_column _ _)))
      · rw [Position.length_spots, List.length_append]
        omega
      · rw [(hkeys k' hk).2]
        cases rest with
        | nil => cases hs
        | cons d rest =>
            rw [Position.spots_cons] at hs
            obtain rfl := Option.some.inj hs
            exact hline

theorem token_single (lx : Lexer) (p : Position) (rest : List Spot) :
    lx.token (p.spot '\'') rest = lx.content (p.spot '\'') (quoted (Quoted.singleFrom .none rest)) := by
  rw [token, if_neg (by simp), isMark_of_ne (by simp), if_neg Bool.false_ne_true, isMark_of_ne (by simp),
    if_neg Bool.false_ne_true]
  rfl

theorem token_double (lx : Lexer) (p : Position) (rest : List Spot) :
    lx.token (p.spot '"') rest = lx.content (p.spot '"') (quoted (Quoted.doubleFrom (.text .none) rest)) := by
  rw [token, if_neg (by simp), isMark_of_ne (by simp), if_neg Bool.false_ne_true, isMark_of_ne (by simp),
    if_neg Bool.false_ne_true]
  rfl

/-- A value between quotes that is the last of its line. -/
theorem gives_quoted {current k : Nat} {outer : List Nat} {quote : Char} {cs w rest : List Char}
    {read : Except Problem (List Char × List Spot)} (hquote : IsContent quote)
    (hcolumn : current < p.column) (hrest : ∀ c ∈ rest.head?, IsContent c)
    (htoken : ∀ lx : Lexer, lx.token (p.spot quote) ((p.after quote).spots (w ++ (newLine k ++ rest))) =
      lx.content (p.spot quote) (quoted read))
    (hread : read = .ok (cs, ((p.after quote).afterAll w).spots (newLine k ++ rest)))
    (h : ∀ (q : Position) (count : Nat), q.column = k →
      Gives (between (current :: outer) true (.scalar false (String.ofList cs) :: tokens) count)
        (q.spots rest) ts) :
    Gives (between (current :: outer) allowed tokens count)
      (p.spots (quote :: (w ++ (newLine k ++ rest)))) ts := by
  have hstep : (between (current :: outer) allowed tokens count).token (p.spot quote)
        ((p.after quote).spots (w ++ (newLine k ++ rest))) =
      .ok (noting (current :: outer) false (possible (current :: outer) allowed p count)
        (.scalar false (String.ofList cs) :: tokens) (count + 1),
        ((p.after quote).afterAll w).spots (newLine k ++ rest)) := by
    rw [htoken, hread, content, noteKey_between]
    rfl
  have hkeys := possible_inner outer allowed count hcolumn
  refine Gives.step hquote rfl (closeTo_between (Nat.le_of_lt hcolumn) ▸ hstep) ?_ ?_
  · rw [Position.length_spots]
    exact (List.suffix_append w _).length_le
  · refine Gives.lineEnd (fun k hk => ⟨(hkeys k hk).1, ?_⟩) hrest (h _ _ (Position.nextLine_column _ _))
    rw [(hkeys k hk).2]
    exact p.line_le_afterAll (quote :: w)

end Lexer

/-- The token of a leaf. -/
def Leaf.token : Leaf → Token
  | .text s => .scalar (quotesOf s.toList == .none) s
  | l => .scalar true (String.ofList (l.write false 0 0))

/-- A leaf that is written on a line of its own: any text, and what has no blanks in it. -/
def Leaf.IsFlowing : Leaf → Prop
  | .text _ => True
  | l => Lexer.IsFlowing (l.write false 0 0) ∧ ' ' ∉ l.write false 0 0

namespace Lexer

variable {columns : List Nat} {allowed : Bool} {tokens ts : List Token} {count : Nat} {p : Position}

theorem of_quotesOf_none {cs : List Char} (h : quotesOf cs = .none) : allowsPlain cs = true := by
  rw [quotesOf] at h
  split_ifs at h with hplain
  exact hplain

theorem of_quotesOf_single {cs : List Char} (h : quotesOf cs = .single) :
    (∀ c ∈ cs, isEasy c = true) ∧ hasRaggedLine cs = false := by
  rw [quotesOf] at h
  split_ifs at h with hplain hsingle
  simpa [allowsSingle] using hsingle

/-- A text as it is written is read as the text. -/
theorem gives_text {current k indent column : Nat} {outer : List Nat} {s : String} {rest : List Char}
    (hindent : current < indent) (hwidth : indent + 1 ≤ width) (hcolumn : current < p.column)
    (hk : k ≤ current) (hrest : ∀ c ∈ rest.head?, IsContent c)
    (h : ∀ (q : Position) (count : Nat), q.column = k →
      Gives (between (current :: outer) true ((Leaf.text s).token :: tokens) count) (q.spots rest) ts) :
    ∃ c w, writeText true indent column s.toList = c :: w ∧ IsContent c ∧
      Gives (between (current :: outer) allowed tokens count) (p.spots (c :: (w ++ newLine k ++ rest))) ts := by
  have hzero : indent ≠ 0 := Nat.ne_of_gt (Nat.zero_lt_of_lt hindent)
  rw [Leaf.token] at h
  rw [writeText]
  cases hquotes : quotesOf s.toList with
  | none =>
      rw [hquotes] at h
      refine gives_flowing (isFlowing_of_allowsPlain (of_quotesOf_none hquotes)) (fun _ => hindent) hcolumn hk
        hrest ?_
      rwa [String.ofList_toList]
  | single =>
      rw [hquotes] at h
      obtain ⟨heasy, hragged⟩ := of_quotesOf_single hquotes
      have htail : (newLine k ++ rest).head? ≠ some '\'' := by simp [newLine]
      have hread := Quoted.single_words true (column + 1) hzero htail heasy hragged
        (p.after '\'')
      rw [← List.singleton_append, ← List.append_assoc] at hread
      refine ⟨'\'', wordsFrom true true indent (column + 1) none s.toList ++ ['\''], rfl, by decide, ?_⟩
      rw [List.append_assoc _ (newLine k)]
      refine gives_quoted (by decide) hcolumn hrest (fun lx => token_single lx p _) hread ?_
      rwa [String.ofList_toList]
  | double =>
      rw [hquotes] at h
      have hread := Quoted.double_escaped true (column + 1) hzero hwidth (p.after '"')
        s.toList (newLine k ++ rest)
      rw [← List.singleton_append, ← List.append_assoc] at hread
      refine ⟨'"', escapedFrom true indent (column + 1) true false s.toList ++ ['"'], rfl, by decide, ?_⟩
      rw [List.append_assoc _ (newLine k)]
      refine gives_quoted (by decide) hcolumn hrest (fun lx => token_double lx p _) hread ?_
      rwa [String.ofList_toList]

/-- A value behind a blank that has no meaning of its own is read to the end of its line. -/
theorem gives_word {current k : Nat} {outer : List Nat} {cs rest : List Char} (hcs : IsFlowing cs)
    (hcolumn : current ≤ p.column) (hk : k ≤ current) (hrest : ∀ c ∈ rest.head?, IsContent c)
    (h : ∀ (q : Position) (count : Nat), q.column = k →
      Gives (between (current :: outer) true (.scalar true (String.ofList cs) :: tokens) count)
        (q.spots rest) ts) :
    Gives (between (current :: outer) allowed tokens count) (p.spots (' ' :: (cs ++ newLine k ++ rest))) ts := by
  have hspace : current < (p.after ' ').column := by
    rw [p.after_shown (by decide)]
    exact Nat.lt_succ_of_le hcolumn
  have hflowing : ∃ c w, wordsFrom false false 0 0 none cs = c :: w ∧ IsContent c ∧
      Gives (between (current :: outer) allowed tokens count) ((p.after ' ').spots (c :: (w ++ newLine k ++ rest)))
        ts := gives_flowing hcs (fun h => Bool.noConfusion h) hspace hk hrest h
  obtain ⟨c, w, hwords, hc, hgives⟩ := hflowing
  rw [words_plain (Plain.shown_of_flows hcs.flows)] at hwords
  rw [hwords]
  exact Gives.space hc hgives

/-- A value behind a blank is read to the end of its line. -/
theorem gives_leaf {current k indent column : Nat} {outer : List Nat} {l : Leaf} {rest : List Char}
    (hl : l.IsFlowing) (hindent : current < indent) (hwidth : indent + 1 ≤ width)
    (hcolumn : current ≤ p.column) (hk : k ≤ current) (hrest : ∀ c ∈ rest.head?, IsContent c)
    (h : ∀ (q : Position) (count : Nat), q.column = k →
      Gives (between (current :: outer) true (l.token :: tokens) count) (q.spots rest) ts) :
    Gives (between (current :: outer) allowed tokens count)
      (p.spots (' ' :: (l.write true indent column ++ newLine k ++ rest))) ts := by
  cases l with
  | text s =>
      have hspace : current < (p.after ' ').column := by
        rw [p.after_shown (by decide)]
        exact Nat.lt_succ_of_le hcolumn
      obtain ⟨c, w, hwrite, hc, hgives⟩ := gives_text hindent hwidth hspace hk hrest h
      rw [Leaf.write, hwrite]
      exact Gives.space hc hgives
  | _ => exact gives_word hl.1 hcolumn hk hrest h

/-- A text without a mark for the order of bytes is cut into the tokens that reading it from the start gives. -/
theorem Gives.ofText {cs : List Char} (hcs : ∀ c ∈ cs.head?, IsContent c) (hallowed : cs.all isAllowed = true)
    (h : Gives .start (Position.start.spots cs) ts) : Token.ofText cs = .ok ts := by
  have hstart : ((Position.start.spots cs).head?.map (·.char)) ≠ some byteOrderMark := by
    cases cs with
    | nil => simp [Position.spots, spotsFrom]
    | cons c cs =>
        rw [Position.spots_cons]
        simpa using (hcs c rfl).1.ne_byteOrderMark
  have hreads := h.reads (cs.length + 2) <| by
    rw [Position.length_spots]
    omega
  rw [Token.ofText, if_pos hallowed]
  exact (congrArg _ (if_neg hstart)).trans hreads

end Lexer

end CatalogSteward.Yaml
