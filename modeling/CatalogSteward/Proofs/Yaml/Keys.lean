import CatalogSteward.Proofs.Yaml.Lexing

/-!
# Keys are read back

A key is a text like any other. On one line it stands before its colon, with or without quotes, and the
reader remembers where it started. A key of several lines, an empty one and a very long one stand behind a
question mark, and their colon on a line of its own.
-/

namespace CatalogSteward.Yaml
open Style

/-- A name that is found again as a key: on one line it may not be too long for its colon. -/
def IsKey (name : String) : Prop :=
  (Leaf.text name).isSimpleKey = true → (writeText false 0 0 name.toList).length ≤ Lexer.keyReach

instance (name : String) : Decidable (IsKey name) := inferInstanceAs (Decidable (_ → _))

/-- A name of a hundred characters is short enough, even if each of them is escaped. -/
theorem isKey_of_length {name : String} (h : name.toList.length ≤ 100) : IsKey name := by
  intro _
  have hescaped := Quoted.length_escaped 0 (0 + 1) true false name.toList
  have hwords (quoted : Bool) (column : Nat) := length_words quoted column none name.toList
  have hreach : Lexer.keyReach = 1024 := rfl
  unfold writeText
  split
  · have := hwords false 0
    omega
  · have := hwords true (0 + 1)
    simp only [List.length_append, List.length_cons, List.length_nil]
    omega
  · simp only [List.length_append, List.length_cons, List.length_nil]
    omega

namespace Lexer

variable {columns left outer : List Nat} {tokens toks ts : List Token} {column count count' : Nat} {p : Position}

/-! ### On one line -/

theorem lineFeed_notMem_simple {name : String} (h : (Leaf.text name).isSimpleKey = true) :
    '\n' ∉ name.toList := by
  simp only [Leaf.isSimpleKey, Bool.and_eq_true, Bool.not_eq_true', List.any_eq_false] at h
  exact fun hmem => h.1.2 _ hmem isBreak_lineFeed

theorem isShown_simple {name : String} (h : (Leaf.text name).isSimpleKey = true)
    (hquotes : quotesOf name.toList ≠ .double) : ∀ c ∈ name.toList, IsShown c := by
  have hline := lineFeed_notMem_simple h
  intro c hc
  cases hcase : quotesOf name.toList with
  | none => exact Plain.shown_of_flows (isFlowing_of_allowsPlain (of_quotesOf_none hcase)).flows c hc
  | single => exact isShown_of_isEasy ((of_quotesOf_single hcase).1 c hc) fun hc' => hline (hc' ▸ hc)
  | double => exact absurd hcase hquotes

/-- A simple key is written in the same way wherever it stands. -/
theorem write_simple {name : String} (h : (Leaf.text name).isSimpleKey = true) (indent column : Nat) :
    writeText false indent column name.toList = writeText false 0 0 name.toList := by
  have hshown := isShown_simple h
  rw [writeText, writeText]
  cases hquotes : quotesOf name.toList with
  | none =>
      rw [hquotes] at hshown
      exact words_unfolded (hshown Quotes.noConfusion) _ _ _ _ _ _ _
  | single =>
      rw [hquotes] at hshown
      exact congrArg ('\'' :: · ++ ['\'']) (words_unfolded (hshown Quotes.noConfusion) _ _ _ _ _ _ _)
  | double => exact congrArg ('"' :: · ++ ['"']) (Quoted.escaped_unfolded _ _ _ _ _ _ _ _ _)

theorem isShown_write_simple {name : String} (h : (Leaf.text name).isSimpleKey = true) (indent column : Nat) :
    ∀ c ∈ writeText false indent column name.toList, IsShown c := by
  have hshown := isShown_simple h
  rw [writeText]
  cases hquotes : quotesOf name.toList with
  | none =>
      rw [hquotes] at hshown
      exact isShown_words (hshown Quotes.noConfusion) _ _ _ _
  | single =>
      rw [hquotes] at hshown
      exact List.forall_mem_append.mpr ⟨List.forall_mem_cons.mpr
        ⟨by decide, isShown_words (hshown Quotes.noConfusion) _ _ _ _⟩,
        List.forall_mem_singleton.mpr (by decide)⟩
  | double =>
      exact List.forall_mem_append.mpr ⟨List.forall_mem_cons.mpr
        ⟨by decide, Quoted.isShown_escaped _ _ _ _ _⟩, List.forall_mem_singleton.mpr (by decide)⟩

/-- A key without quotes, before its colon. -/
theorem token_plainKey (tokens : List Token) (count : Nat) {c : Char} {cs rest : List Char}
    (hcs : allowsPlain (c :: cs) = true)
    (hleft : ∀ column ∈ left.head?, column ≤ p.column)
    (hrest : (rest.head?.map isSeparator).getD true = true) :
    (between left true tokens count).token (p.spot c) ((p.after c).spots (cs ++ ':' :: rest)) =
      .ok (awaiting left p (.scalar true (String.ofList (c :: cs)) :: tokens) count,
        (p.afterAll (c :: cs)).spots (':' :: rest)) := by
  have hflowing := isFlowing_of_allowsPlain hcs
  obtain ⟨hc, hlist, hlone⟩ := hflowing.head
  obtain ⟨-, -, -, hflows⟩ := hflowing.flows
  have hline : c ≠ '\n' := hc.1.ne_of_lt (by decide)
  have hmark : isDocumentMark (p.spots (c :: cs ++ ':' :: rest)) = false := by
    simp only [allowsPlain, startsLikeDocumentMark, Bool.and_eq_true, Bool.not_eq_true',
      Bool.or_eq_false_iff, beq_eq_false_iff_ne] at hcs
    obtain ⟨hdash, hdot⟩ := hcs.1.1.1.2
    rw [isDocumentMark, isMark_key (by decide) hdash, isMark_key (by decide) hdot]
    rfl
  have hleast : (between left true tokens count).leastColumn ≤ (p.after c).column := by
    rw [p.after_shown hc.1]
    cases left with
    | nil => exact Nat.zero_le _
    | cons current outer => exact Nat.succ_le_succ (hleft current rfl)
  have hscan : Plain.scanFrom false (between left true tokens count).leastColumn .none
      (p.spots (c :: cs ++ ':' :: rest)) = ⟨c :: cs, false, (p.afterAll (c :: cs)).spots (':' :: rest)⟩ := by
    -- the key may stand where the lines of a nested text may not, so its first character counts apart
    have hwords := words_plain (Plain.shown_of_flows hflows) 0 0 (some c)
    rw [List.cons_append, Plain.scan_word hc.1 hc.2.1 ?_ (fun hne => absurd rfl hne), ← hwords,
      Plain.scan_words (fun h => Bool.noConfusion h) hflows (by simpa using hline)
        (.word hc.2.1 hline cs) (fun _ => ⟨hleast, ?_⟩), hwords, Plain.scan_colon hrest]
    · simp [Plain.Scan.after, Gap.text]
    · rw [p.after_shown hc.1]
      exact Nat.succ_ne_zero _
    · intro hcolon
      obtain ⟨d, ds, rfl, hd, hspace⟩ := hlone (hcolon ▸ by decide)
      exact hd.isSeparator hspace
  rw [List.cons_append, Position.spots_cons] at hmark hscan
  rw [token_plain rfl hc.1 hc.2.1 hmark hlist]
  · exact plain_eq (noting left true (possible left true p count) tokens count) (noteKey_between c) hscan
  · intro hmem
    obtain ⟨d, ds, rfl, hd, hspace⟩ := hlone hmem
    exact endsAt_of_shown hd hspace _ _

/-- A key between quotes, before its colon. -/
theorem token_quotedKey (left : List Nat) (tokens : List Token) (count : Nat) {quote : Char}
    {cs w rest : List Char} {read : Except Problem (List Char × List Spot)}
    (htoken : ∀ lx : Lexer, lx.token (p.spot quote) ((p.after quote).spots (w ++ ':' :: rest)) =
      lx.content (p.spot quote) (quoted read))
    (hread : read = .ok (cs, ((p.after quote).afterAll w).spots (':' :: rest))) :
    (between left true tokens count).token (p.spot quote) ((p.after quote).spots (w ++ ':' :: rest)) =
      .ok (awaiting left p (.scalar false (String.ofList cs) :: tokens) count,
        (p.afterAll (quote :: w)).spots (':' :: rest)) := by
  rw [htoken, hread, content, noteKey_between]
  rfl

/-- A simple key is read as its text. -/
theorem token_simpleKey (tokens : List Token) (count : Nat) {name : String} (indent column : Nat) {rest : List Char}
    (hname : (Leaf.text name).isSimpleKey = true) (hleft : ∀ column ∈ left.head?, column ≤ p.column)
    (hrest : (rest.head?.map isSeparator).getD true = true) :
    ∃ c w, writeText false indent column name.toList = c :: w ∧ IsContent c ∧
      (between left true tokens count).token (p.spot c) ((p.after c).spots (w ++ ':' :: rest)) =
        .ok (awaiting left p ((Leaf.text name).token :: tokens) count,
          (p.afterAll (c :: w)).spots (':' :: rest)) := by
  rw [write_simple hname indent column, ← write_simple hname 1 0, writeText, Leaf.token]
  cases hquotes : quotesOf name.toList with
  | none =>
      have hplain := of_quotesOf_none hquotes
      have hflowing := isFlowing_of_allowsPlain hplain
      have hwords := words_plain (Plain.shown_of_flows hflowing.flows) 1 0 none
      dsimp only
      rw [hwords]
      cases hcs : name.toList with
      | nil => exact absurd hcs hflowing.ne_nil
      | cons c cs =>
          have htext : String.ofList (c :: cs) = name := by rw [← hcs, String.ofList_toList]
          rw [hcs] at hplain hflowing
          refine ⟨c, cs, rfl, hflowing.head.1, ?_⟩
          have htoken := token_plainKey tokens count hplain hleft hrest
          rwa [htext] at htoken
  | single =>
      obtain ⟨heasy, hragged⟩ := of_quotesOf_single hquotes
      have htail : (':' :: rest).head? ≠ some '\'' := by simp
      have hread := Quoted.single_words false (0 + 1) Nat.one_ne_zero htail heasy hragged (p.after '\'')
      rw [← List.singleton_append, ← List.append_assoc] at hread
      refine ⟨'\'', _, rfl, by decide, ?_⟩
      have htoken := token_quotedKey left tokens count (fun lx => token_single lx p _) hread
      rwa [String.ofList_toList] at htoken
  | double =>
      have hread := Quoted.double_escaped false (0 + 1) Nat.one_ne_zero
        (by decide) (p.after '"') name.toList (':' :: rest)
      rw [← List.singleton_append, ← List.append_assoc] at hread
      refine ⟨'"', _, rfl, by decide, ?_⟩
      have htoken := token_quotedKey left tokens count (fun lx => token_double lx p _) hread
      rwa [String.ofList_toList] at htoken

/-! ### Entries -/

/-- From these collections and tokens, those are left inside the mapping at a column when a key starts there. -/
def Enters (columns : List Nat) (tokens : List Token) (column : Nat) (outer : List Nat) (toks : List Token) :
    Prop :=
  ∀ count, ∃ left tokens' count', (between columns true tokens count).closeTo column =
    between left true tokens' count' ∧ (∀ c ∈ left.head?, c ≤ column) ∧
    opening left column tokens' = (column :: outer, toks)

/-- A key further in than everything else opens a mapping. -/
theorem enters_new (outer : List Nat) (h : ∀ c ∈ outer.head?, c < column) (tokens : List Token) :
    Enters outer tokens column outer (.blockMappingStart :: tokens) := by
  intro count
  have hle : ∀ c ∈ outer.head?, c ≤ column := fun c hc => Nat.le_of_lt (h c hc)
  refine ⟨outer, tokens, count, closeTo_eq hle, hle, if_pos ?_⟩
  cases outer with
  | nil => rfl
  | cons c outer => simpa [opensAt, between] using h c rfl

/-- A key of a mapping closes the collections inside of it. -/
theorem enters_again (deeper : List Nat) (h : ∀ c ∈ deeper, column < c) (tokens : List Token) :
    Enters (deeper ++ column :: outer) tokens column outer
      (List.replicate deeper.length .blockEnd ++ tokens) := by
  intro count
  refine ⟨column :: outer, _, count + deeper.length, ?_, by simp, if_neg (by simp [opensAt, between])⟩
  have htake : (deeper ++ column :: outer).takeWhile (column < ·) = deeper := by
    rw [List.takeWhile_append_of_pos (by simpa using h), List.takeWhile_cons, if_neg (by simp),
      List.append_nil]
  simp [closeTo, between, htake]

theorem gives_simpleKey {name : String} {indent : Nat} {rest : List Char}
    (hsimple : (Leaf.text name).isSimpleKey = true) (hname : IsKey name)
    (henters : Enters columns tokens p.column outer toks) (hrest : (rest.head?.map isSeparator).getD true = true)
    (h : ∀ (q : Position) (count : Nat),
      q.column = p.column + (writeText false indent indent name.toList).length + 1 →
      Gives (between (p.column :: outer) false (.value :: (Leaf.text name).token :: .key :: toks) count)
        (q.spots rest) ts) :
    Gives (between columns true tokens count)
      (p.spots (writeText false indent indent name.toList ++ ':' :: rest)) ts := by
  obtain ⟨left, tokens', count', hclose, hleft, hopen⟩ := henters count
  obtain ⟨c, w, hwrite, hc, htoken⟩ := token_simpleKey tokens' count' indent indent hsimple hleft hrest
  have hreach : (c :: w).length ≤ keyReach := by
    rw [← hwrite, write_simple hsimple]
    exact hname hsimple
  have hafter : p.afterAll (c :: w) = ⟨p.line, p.column + (c :: w).length, p.index + (c :: w).length⟩ :=
    p.afterAll_shown (hwrite ▸ isShown_write_simple hsimple indent indent)
  have hends : endsAt isSeparator (((p.afterAll (c :: w)).after ':').spots rest) = true := by
    rw [Position.endsAt_spots, hrest]
  obtain ⟨count'', hcolon⟩ := token_colon left tokens' count' p (p.afterAll (c :: w)) hends (Leaf.text name).token
  have hopened : (awaiting left p ((Leaf.text name).token :: tokens') count').closeTo (p.afterAll (c :: w)).column =
      awaiting left p ((Leaf.text name).token :: tokens') count' := by
    refine closeTo_eq fun column hmem => ?_
    rw [hafter]
    exact Nat.le_add_right_of_le (hleft column hmem)
  rw [hopen] at hcolon
  rw [hwrite] at h ⊢
  rw [List.cons_append]
  refine Gives.step hc rfl (hclose ▸ htoken) (by simp) ?_
  refine Gives.step (by decide) (forgetStale_awaiting ?_ ?_ ':') (hopened.symm ▸ hcolon) (by simp)
    (h ((p.afterAll (c :: w)).after ':') count'' ?_)
  · rw [hafter]
  · rw [hafter]
    exact Nat.add_le_add_left hreach _
  · rw [hafter, Position.after_shown _ (by decide)]

/-- A mark that stands alone starts a key or a value. -/
theorem mark_between (left : List Nat) (toks : List Token) (count : Nat) (t : Token) (s : Spot) (rest : List Spot) :
    ∃ count', (between left true toks count).mark .blockMappingStart t true s rest =
      .ok (between (opening left s.column toks).1 true (t :: (opening left s.column toks).2) count', rest) := by
  rw [opening]
  cases left with
  | nil => exact ⟨count + 2, rfl⟩
  | cons c left =>
      by_cases hc : c < s.column
      · exact ⟨count + 2, by simp [mark, openBlock, forgetKey, emit, between, opensAt, hc, bind, Except.bind]⟩
      · exact ⟨count + 1, by simp [mark, openBlock, forgetKey, emit, between, opensAt, hc, bind, Except.bind]⟩

theorem token_mark (left : List Nat) (toks : List Token) (count : Nat) (p : Position) {c : Char} {t : Token}
    (hc : c = '?' ∧ t = .key ∨ c = ':' ∧ t = .value)
    {rest : List Spot} (hrest : endsAt isSeparator rest = true) :
    (between left true toks count).token (p.spot c) rest =
      (between left true toks count).mark .blockMappingStart t true (p.spot c) rest := by
  rcases hc with ⟨rfl, rfl⟩ | ⟨rfl, rfl⟩
  all_goals
    rw [token, if_neg (by simp), isMark_of_ne (by simp), if_neg Bool.false_ne_true, isMark_of_ne (by simp),
      if_neg Bool.false_ne_true]
    simp [hrest, between, colon]

theorem gives_mark {c : Char} {t : Token} {rest : List Char}
    (hc : c = '?' ∧ t = .key ∨ c = ':' ∧ t = .value) (henters : Enters columns tokens p.column outer toks)
    (hrest : (rest.head?.map isSeparator).getD true = true)
    (h : ∀ count, Gives (between (p.column :: outer) true (t :: toks) count) ((p.after c).spots rest) ts) :
    Gives (between columns true tokens count) (p.spots (c :: rest)) ts := by
  obtain ⟨left, tokens', count', hclose, -, hopen⟩ := henters count
  have hends : endsAt isSeparator ((p.after c).spots rest) = true := by
    rw [Position.endsAt_spots, hrest]
  have htoken := token_mark left tokens' count' p hc hends
  obtain ⟨count'', hmark⟩ := mark_between left tokens' count' t (p.spot c) ((p.after c).spots rest)
  rw [Position.spot_column, hopen] at hmark
  have hcontent : IsContent c := by
    rcases hc with ⟨rfl, -⟩ | ⟨rfl, -⟩ <;> decide
  exact Gives.step hcontent rfl (hclose ▸ htoken.trans hmark) (by simp) (h count'')

/-- A key behind a question mark, and its colon on a line of its own. -/
theorem gives_markedKey (count : Nat) {name : String} {rest : List Char} (hwidth : p.column + 3 ≤ width)
    (henters : Enters columns tokens p.column outer toks) (hrest : (rest.head?.map isSeparator).getD true = true)
    (h : ∀ (q : Position) (count : Nat), q.column = p.column + 1 →
      Gives (between (p.column :: outer) true (.value :: (Leaf.text name).token :: .key :: toks) count)
        (q.spots rest) ts) :
    Gives (between columns true tokens count)
      (p.spots ('?' :: ' ' :: (writeText true (p.column + 2) (p.column + 2) name.toList ++
        newLine p.column ++ ':' :: rest))) ts := by
  refine gives_mark (.inl ⟨rfl, rfl⟩) henters rfl fun count => ?_
  have hcolumn : p.column ≤ (p.after '?').column := by
    rw [p.after_shown (by decide)]
    exact Nat.le_succ _
  refine gives_leaf (l := .text name) trivial (by omega) (by omega) hcolumn (Nat.le_refl _) (by simp; decide)
    fun q count hq => ?_
  have hagain : Enters (p.column :: outer) ((Leaf.text name).token :: .key :: toks) q.column outer
      ((Leaf.text name).token :: .key :: toks) := hq ▸ enters_again [] (by simp) _
  refine gives_mark (.inr ⟨rfl, rfl⟩) hagain hrest fun count => ?_
  rw [hq]
  refine h _ count ?_
  rw [q.after_shown (by decide), hq]

/-- An entry is read as its key, and behind its colon as its value. -/
theorem gives_entry {name : String} {inner : List Char} {afterKey : Nat → List Char} (hname : IsKey name)
    (hwidth : p.column + 3 ≤ width) (henters : Enters columns tokens p.column outer toks)
    (hafterKey : ∀ column, ((afterKey column).head?.map isSeparator).getD true = true)
    (hinner : (inner.head?.map isSeparator).getD true = true)
    (h : ∀ (q : Position) (column count : Nat), p.column ≤ q.column →
      Gives (between (p.column :: outer) false (.value :: (Leaf.text name).token :: .key :: toks) count)
        (q.spots (afterKey column)) ts)
    (h' : ∀ (q : Position) (count : Nat), q.column = p.column + 1 →
      Gives (between (p.column :: outer) true (.value :: (Leaf.text name).token :: .key :: toks) count)
        (q.spots inner) ts) :
    Gives (between columns true tokens count)
      (p.spots (Tree.writeEntry p.column (.text name) inner afterKey)) ts := by
  rw [Tree.writeEntry]
  split
  · next hsimple =>
    refine gives_simpleKey hsimple hname henters (hafterKey _) fun q count hq => h q _ count ?_
    omega
  · have hmarked := gives_markedKey count hwidth henters hinner h'
    simpa [Leaf.write, newLine, Tree.pad] using hmarked

end Lexer

end CatalogSteward.Yaml
