import CatalogSteward.Proofs.Yaml.Keys

/-!
# Nested mappings are cut into their tokens

An outline is what a mapping of texts to leaves and to further mappings holds. It is written with one entry
on a line, those of a nested mapping further in, and reading its text gives the tokens of its entries in
order.
-/

namespace CatalogSteward.Yaml
open Style Lexer

/-- The entries of a mapping: a leaf or a mapping under each name. -/
inductive Outline where
  | nil
  | leaf (name : String) (l : Leaf) (rest : Outline)
  | branch (name : String) (inner rest : Outline)

namespace Outline

def isEmpty : Outline → Bool
  | nil => true
  | leaf _ _ _ | branch _ _ _ => false

def tree : Outline → List (Leaf × Tree)
  | nil => []
  | leaf name l rest => (.text name, .leaf l) :: rest.tree
  | branch name inner rest => (.text name, .mapping inner.tree) :: rest.tree

/-- Entries that are written from a column on and found again: their names are keys, their leaves end with
their lines, and no mapping under a name is empty. -/
def Fits (column : Nat) : Outline → Prop
  | nil => True
  | leaf name l rest => (IsKey name ∧ column + 3 ≤ width) ∧ l.IsFlowing ∧ rest.Fits column
  | branch name inner rest =>
    (IsKey name ∧ column + 3 ≤ width) ∧ (inner.isEmpty = false ∧ inner.Fits (column + 2)) ∧ rest.Fits column

def tokens : Outline → List Token
  | nil => []
  | leaf name l rest => [.key, (Leaf.text name).token, .value, l.token] ++ rest.tokens
  | branch name inner rest =>
    [.key, (Leaf.text name).token, .value, .blockMappingStart] ++ inner.tokens ++ .blockEnd :: rest.tokens

/-! ### The text -/

/-- The column of the next line and the text from there on, when entries at a column come before a text at
the start of a line. -/
def textFrom (column : Nat) (next : Nat × List Char) : Outline → Nat × List Char
  | nil => next
  | leaf name l rest =>
    let next := rest.textFrom column next
    (column, Tree.writeEntry column (.text name)
      (' ' :: (l.write true (column + 2) (column + 2) ++ newLine next.1 ++ next.2))
      fun c => ' ' :: (l.write true (column + 2) (c + 1) ++ newLine next.1 ++ next.2))
  | branch name inner rest =>
    let next := inner.textFrom (column + 2) (rest.textFrom column next)
    (column, Tree.writeEntry column (.text name) (' ' :: next.2) fun _ => newLine next.1 ++ next.2)

variable {o rest : Outline} {column : Nat} {next : Nat × List Char}

theorem textFrom_column (h : o.isEmpty = false) : (o.textFrom column next).1 = column := by
  cases o with
  | nil => cases h
  | _ => rfl

theorem textFrom_le (h : next.1 ≤ column) : (o.textFrom column next).1 ≤ column := by
  cases hempty : o.isEmpty with
  | true =>
      cases o with
      | nil => exact h
      | _ => cases hempty
  | false => exact Nat.le_of_eq (textFrom_column hempty)

theorem writeEntry_append (indent : Nat) (k : Leaf) (inner : List Char) (afterKey : Nat → List Char)
    (rest : List Char) : Tree.writeEntry indent k inner afterKey ++ rest =
      Tree.writeEntry indent k (inner ++ rest) fun column => afterKey column ++ rest := by
  rw [Tree.writeEntry, Tree.writeEntry]
  split <;> simp

theorem isEmpty_tree : o.tree.isEmpty = o.isEmpty := by
  cases o <;> rfl

theorem pad_textFrom (o : Outline) (column : Nat) (next : Nat × List Char) :
    (if o.isEmpty then Tree.pad next.1 else Tree.pad column) = Tree.pad (o.textFrom column next).1 := by
  cases o <;> rfl

/-- The entries of an outline, the first of them after `lead`, before a text at the start of a line. -/
theorem write_tree (h : o.Fits column) (lead : List Char) (next : Nat × List Char) :
    Tree.writeEntries column lead o.tree ++ (Tree.pad next.1 ++ next.2) =
      (if o.isEmpty then Tree.pad next.1 else lead) ++ (o.textFrom column next).2 := by
  induction o generalizing column lead next with
  | nil => rfl
  | leaf name l rest ih =>
      obtain ⟨-, -, hrest⟩ := h
      rw [tree, Tree.writeEntries, List.append_assoc, ih hrest, pad_textFrom, List.append_assoc,
        writeEntry_append]
      simp [Tree.writeInner, Tree.writeAfterKey, isEmpty, textFrom, newLine, Tree.pad]
  | branch name inner rest ihInner ih =>
      obtain ⟨-, ⟨hempty, hinner⟩, hrest⟩ := h
      have hlead (lead : List Char) := ihInner hinner lead (rest.textFrom column next)
      simp only [hempty, Bool.false_eq_true, if_false] at hlead
      have hcolumn : (inner.textFrom (column + 2) (rest.textFrom column next)).1 = column + 2 :=
        textFrom_column hempty
      rw [tree, Tree.writeEntries, List.append_assoc, ih hrest, pad_textFrom, List.append_assoc,
        writeEntry_append]
      simp only [Tree.writeInner, Tree.writeAfterKey, isEmpty_tree, hempty, Bool.false_eq_true, if_false,
        List.cons_append, hlead]
      simp [isEmpty, textFrom, newLine, hcolumn, Tree.pad]

/-! ### The tokens -/

/-- However many collections inside of the mapping at a column are still open: what is read from the next
line on, when `toks` are the tokens with the ends of those collections. -/
def Continues (column : Nat) (outer : List Nat) (next : Nat × List Char) (toks ts : List Token) : Prop :=
  ∀ (q : Position) (deeper : List Nat) (tokens : List Token) (count : Nat), q.column = next.1 →
    (∀ d ∈ deeper, column < d) → List.replicate deeper.length .blockEnd ++ tokens = toks →
    Gives (between (deeper ++ column :: outer) true tokens count) (q.spots next.2) ts

/-- The entries are cut into their tokens, whether the first of them opens the mapping or finds it open. -/
def IsCut (o : Outline) (column : Nat) : Prop :=
  ∀ {outer columns : List Nat} {tokens toks ts : List Token} {next : Nat × List Char} {p : Position}
    {count : Nat}, next.1 ≤ column → (∀ c ∈ next.2.head?, IsContent c) → p.column = column →
    Enters columns tokens column outer toks → Continues column outer next (o.tokens.reverse ++ toks) ts →
    Gives (between columns true tokens count) (p.spots (o.textFrom column next).2) ts

theorem Continues.prepend {outer : List Nat} {toks ts : List Token} (ho : o.isEmpty = false → o.IsCut column)
    (hnext : next.1 ≤ column) (hcontent : ∀ c ∈ next.2.head?, IsContent c)
    (h : Continues column outer next (o.tokens.reverse ++ toks) ts) :
    Continues column outer (o.textFrom column next) toks ts := by
  intro q deeper tokens count hq hdeeper htoks
  cases hempty : o.isEmpty with
  | true =>
      cases o with
      | nil => exact h q deeper tokens count hq hdeeper htoks
      | _ => cases hempty
  | false =>
      rw [textFrom_column hempty] at hq
      exact ho hempty hnext hcontent hq (htoks ▸ enters_again _ hdeeper tokens) h

theorem writeEntry_cons (name : String) (inner : List Char) (afterKey : Nat → List Char) :
    ∃ c w, Tree.writeEntry column (.text name) inner afterKey = c :: w ∧ IsContent c := by
  rw [Tree.writeEntry]
  split
  · next hsimple =>
    obtain ⟨c, w, hwrite, hc, -⟩ := token_simpleKey [] 0 column column hsimple
      (by simp : ∀ column ∈ ([] : List Nat).head?, column ≤ Position.start.column)
      (rfl : (([] : List Char).head?.map isSeparator).getD true = true)
    rw [Leaf.write, hwrite]
    exact ⟨c, _, rfl, hc⟩
  · exact ⟨'?', _, rfl, by decide⟩

theorem textFrom_cons (column : Nat) (next : Nat × List Char) (h : o.isEmpty = false) :
    ∃ c w, (o.textFrom column next).2 = c :: w ∧ IsContent c := by
  cases o with
  | nil => cases h
  | leaf name l rest =>
      rw [textFrom]
      dsimp only
      exact writeEntry_cons name _ _
  | branch name inner rest =>
      rw [textFrom]
      dsimp only
      exact writeEntry_cons name _ _

theorem isContent_textFrom (o : Outline) (column : Nat) (hcontent : ∀ c ∈ next.2.head?, IsContent c) :
    ∀ c ∈ (o.textFrom column next).2.head?, IsContent c := by
  cases hempty : o.isEmpty with
  | true =>
      cases o with
      | nil => exact hcontent
      | _ => cases hempty
  | false =>
      obtain ⟨c, w, htext, hc⟩ := textFrom_cons column next hempty
      rw [htext]
      simpa using hc

theorem isCut (h : o.Fits column) : o.isEmpty = false → o.IsCut column := by
  induction o generalizing column with
  | nil => exact fun hempty => Bool.noConfusion hempty
  | leaf name l rest ih =>
      obtain ⟨⟨hname, hwidth⟩, hleaf, hrest⟩ := h
      intro _ outer columns tokens toks ts next p count hnext hcontent hp henters hcontinues
      subst hp
      have hbehind : Continues p.column outer (rest.textFrom p.column next)
          (l.token :: .value :: (Leaf.text name).token :: .key :: toks) ts := by
        refine Continues.prepend (ih hrest) hnext hcontent ?_
        simpa [Outline.tokens] using hcontinues
      have hvalue (q : Position) (c count : Nat) (allowed : Bool) (hq : p.column ≤ q.column) :
          Gives (between (p.column :: outer) allowed (.value :: (Leaf.text name).token :: .key :: toks) count)
            (q.spots (' ' :: (l.write true (p.column + 2) c ++ newLine (rest.textFrom p.column next).1 ++
              (rest.textFrom p.column next).2))) ts :=
        gives_leaf hleaf (by omega) (by omega) hq (textFrom_le hnext) (isContent_textFrom _ _ hcontent)
          fun q count hq => hbehind q [] _ count hq (by simp) rfl
      exact gives_entry hname hwidth henters (fun _ => rfl) rfl
        (fun q c count hq => hvalue q (c + 1) count false hq)
        (fun q count hq => hvalue q _ count true (by omega))
  | branch name inner rest ihInner ih =>
      obtain ⟨⟨hname, hwidth⟩, ⟨hempty, hinner⟩, hrest⟩ := h
      intro _ outer columns tokens toks ts next p count hnext hcontent hp henters hcontinues
      subst hp
      have hbehind : Continues p.column outer (rest.textFrom p.column next) (.blockEnd :: (inner.tokens.reverse ++
          (.blockMappingStart :: .value :: (Leaf.text name).token :: .key :: toks))) ts := by
        refine Continues.prepend (ih hrest) hnext hcontent ?_
        simpa [Outline.tokens] using hcontinues
      have hinside (q : Position) (count : Nat) (hq : q.column = p.column + 2) :
          Gives (between (p.column :: outer) true (.value :: (Leaf.text name).token :: .key :: toks) count)
            (q.spots (inner.textFrom (p.column + 2) (rest.textFrom p.column next)).2) ts := by
        refine ihInner hinner hempty (Nat.le_trans (textFrom_le hnext) (Nat.le_add_right _ _))
          (isContent_textFrom _ _ hcontent) hq (enters_new _ (by simp) _) ?_
        intro r deeper tokens count hr hdeeper htoks
        have hclosed := hbehind r (deeper ++ [p.column + 2]) tokens count hr ?_ ?_
        · simpa using hclosed
        · intro d hd
          rcases List.mem_append.mp hd with hd | hd
          · exact Nat.lt_of_le_of_lt (Nat.le_add_right _ 2) (hdeeper d hd)
          · rw [List.mem_singleton.mp hd]
            exact Nat.lt_add_of_pos_right Nat.two_pos
        · rw [← htoks, List.length_append, List.length_singleton, List.replicate_succ, List.cons_append]
      have hcontent' := isContent_textFrom inner (p.column + 2) (isContent_textFrom rest p.column hcontent)
      rw [textFrom]
      dsimp only
      refine gives_entry hname hwidth henters (fun _ => rfl) rfl (fun q c count hq => ?_) fun q count hq => ?_
      · refine Gives.line hcontent' (hinside _ _ ?_)
        rw [q.nextLine_column, textFrom_column hempty]
      · have hspace := hinside (q.after ' ') count (by rw [q.after_shown (by decide), hq])
        obtain ⟨c, w, htext, hc⟩ := textFrom_cons (p.column + 2) (rest.textFrom p.column next) hempty
        rw [htext] at hspace ⊢
        exact Gives.space hc hspace

theorem Leaf.token_ne_broken (l : Leaf) (fault : Fault) : Token.broken fault ≠ l.token := by
  cases l <;> exact Token.noConfusion

theorem formed_tokens (o : Outline) (fault : Fault) : Token.broken fault ∉ o.tokens := by
  induction o with
  | nil => exact List.not_mem_nil
  | leaf name l rest ih =>
      simp [tokens, ih, Leaf.token_ne_broken]
  | branch name inner rest ihInner ih =>
      simp [tokens, ih, ihInner, Leaf.token_ne_broken]

/-- An outline is read from the start of a document. -/
theorem gives_document (h : o.Fits 0) (hempty : o.isEmpty = false) :
    Gives .start (Position.start.spots (o.textFrom 0 (0, [])).2)
      (.blockMappingStart :: o.tokens ++ [.blockEnd]) := by
  refine isCut h hempty (Nat.zero_le _) (by simp) rfl (enters_new [] (by simp) []) ?_
  intro q deeper tokens count _ _ htokens
  have hformed : ∀ fault, Token.broken fault ∉ tokens := by
    intro fault hmem
    have hmem : Token.broken fault ∈ o.tokens.reverse ++ [.blockMappingStart] :=
      htokens ▸ List.mem_append_right _ hmem
    simp [formed_tokens] at hmem
  have hend := gives_end (deeper ++ [0]) true count hformed
  rw [List.length_append, List.length_singleton, List.replicate_succ, List.cons_append, htokens] at hend
  simpa using hend

/-! ### The characters of a document -/

theorem isEasy_writeText (fold : Bool) (indent column : Nat) (cs : List Char) :
    ∀ c ∈ writeText fold indent column cs, isEasy c = true := by
  rw [writeText]
  cases hquotes : quotesOf cs with
  | none =>
      have hflows := (isFlowing_of_allowsPlain (of_quotesOf_none hquotes)).flows
      exact isEasy_words (fun c hc => isEasy_of_isShown (Plain.shown_of_flows hflows c hc)) _ _ _ _ _
  | single =>
      refine List.forall_mem_append.mpr
        ⟨List.forall_mem_cons.mpr ⟨rfl, ?_⟩, List.forall_mem_singleton.mpr rfl⟩
      exact isEasy_words (of_quotesOf_single hquotes).1 _ _ _ _ _
  | double =>
      refine List.forall_mem_append.mpr
        ⟨List.forall_mem_cons.mpr ⟨rfl, ?_⟩, List.forall_mem_singleton.mpr rfl⟩
      exact Quoted.isEasy_escaped _ _ _ _ _ _

theorem isEasy_leaf {l : Leaf} (h : l.IsFlowing) (indent column : Nat) :
    ∀ c ∈ l.write true indent column, isEasy c = true := by
  cases l with
  | text s => exact isEasy_writeText _ _ _ _
  | _ => exact fun c hc => isEasy_of_isShown (Plain.shown_of_flows h.1.flows c hc)

theorem isEasy_writeEntry (name : String) {inner : List Char} {afterKey : Nat → List Char}
    (hinner : ∀ c ∈ inner, isEasy c = true) (hafterKey : ∀ column, ∀ c ∈ afterKey column, isEasy c = true) :
    ∀ c ∈ Tree.writeEntry column (.text name) inner afterKey, isEasy c = true := by
  rw [Tree.writeEntry]
  split
  · exact List.forall_mem_append.mpr ⟨isEasy_writeText _ _ _ _, List.forall_mem_cons.mpr ⟨rfl, hafterKey _⟩⟩
  · have hkey : ∀ c ∈ '?' :: ' ' :: writeText true (column + 2) (column + 2) name.toList, isEasy c = true :=
      List.forall_mem_cons.mpr ⟨rfl, List.forall_mem_cons.mpr ⟨rfl, isEasy_writeText _ _ _ _⟩⟩
    exact List.forall_mem_append.mpr ⟨List.forall_mem_append.mpr ⟨hkey, isEasy_newLine column⟩,
      List.forall_mem_cons.mpr ⟨rfl, hinner⟩⟩

theorem isEasy_textFrom (h : o.Fits column) (hnext : ∀ c ∈ next.2, isEasy c = true) :
    ∀ c ∈ (o.textFrom column next).2, isEasy c = true := by
  induction o generalizing column next with
  | nil => exact hnext
  | leaf name l rest ih =>
      obtain ⟨-, hleaf, hrest⟩ := h
      have hvalue (c : Nat) : ∀ d ∈ ' ' :: (l.write true (column + 2) c ++
          newLine (rest.textFrom column next).1 ++ (rest.textFrom column next).2), isEasy d = true :=
        List.forall_mem_cons.mpr ⟨rfl, List.forall_mem_append.mpr ⟨List.forall_mem_append.mpr
          ⟨isEasy_leaf hleaf (column + 2) c, isEasy_newLine _⟩, ih hrest hnext⟩⟩
      exact isEasy_writeEntry name (hvalue _) fun c => hvalue (c + 1)
  | branch name inner rest ihInner ih =>
      obtain ⟨-, ⟨-, hinner⟩, hrest⟩ := h
      have hinside := ihInner hinner (ih hrest hnext)
      exact isEasy_writeEntry name (List.forall_mem_cons.mpr ⟨rfl, hinside⟩)
        fun _ => List.forall_mem_append.mpr ⟨isEasy_newLine _, hinside⟩

theorem isAllowed_of_isEasy {c : Char} (h : isEasy c = true) : isAllowed c = true := by
  by_cases hline : c = '\n'
  · rw [hline]
    rfl
  · exact (isShown_of_isEasy h hline).isAllowed

theorem toList_write (h : o.Fits 0) (hempty : o.isEmpty = false) :
    (write o.tree).toList = (o.textFrom 0 (0, [])).2 := by
  have hwrite := write_tree h [] (0, [])
  rw [hempty, if_neg Bool.false_ne_true, List.nil_append] at hwrite
  rw [write, isEmpty_tree, hempty, if_neg Bool.false_ne_true, String.toList_ofList, ← hwrite]
  simp [Tree.pad]

theorem isEasy_write (h : o.Fits 0) (hempty : o.isEmpty = false) :
    ∀ c ∈ (write o.tree).toList, isEasy c = true := by
  rw [toList_write h hempty]
  exact isEasy_textFrom h (List.forall_mem_nil _)

/-- The document of an outline is cut into its tokens. -/
theorem tokens_write (h : o.Fits 0) (hempty : o.isEmpty = false) :
    Token.ofText (write o.tree).toList = .ok (.blockMappingStart :: o.tokens ++ [.blockEnd]) := by
  have hallowed : (write o.tree).toList.all isAllowed = true :=
    List.all_eq_true.mpr fun c hc => isAllowed_of_isEasy (isEasy_write h hempty c hc)
  rw [toList_write h hempty] at hallowed ⊢
  obtain ⟨c, w, htext, hc⟩ := textFrom_cons 0 (0, []) hempty
  have hcontent : ∀ c ∈ (o.textFrom 0 (0, [])).2.head?, IsContent c := by
    rw [htext]
    simpa using hc
  exact (gives_document h hempty).ofText hcontent hallowed

end Outline

end CatalogSteward.Yaml
