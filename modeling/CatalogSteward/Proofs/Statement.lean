import CatalogSteward.Proofs.Identifier
import CatalogSteward.Statement.Reader

/-!
# The grammar of statements

A server knows four anchored forms of text. They are stated here as a relation between a text and the
statement that it is, in any way of cutting the text into keywords, identifiers and optional clauses, and
the four readers are shown to accept exactly the texts of their forms. Since the readers are functions,
no text can be cut in two ways.

The main result is that the text of a statement can be read in one way only, as that statement. It is
about names without the null character, of which the rest is not written.
-/

namespace CatalogSteward.Statement
open Identifier

/-- The text of an optional clause, with the name in it. -/
inductive Clause (keyword : String) : List Char → Option String → Prop
  | absent : Clause keyword [] none
  | present {text name : List Char} : Quoted text name →
      Clause keyword ((" " ++ keyword ++ " ").toList ++ text) (some (String.ofList name))

/-- One line feed may stand between a statement and the end of its text. -/
inductive Ending : List Char → Prop
  | bare : Ending []
  | lineFeed : Ending ['\n']

/-- The four forms of text, each with the statement that it is. -/
inductive Sentence : List Char → Statement → Prop
  | create {q s v e name : List Char} {schema version : Option String} :
      Quoted q name → Clause "SCHEMA" s schema → Clause "VERSION" v version → Ending e →
      Sentence ("CREATE EXTENSION IF NOT EXISTS ".toList ++ (q ++ (s ++ (v ++ e))))
        (.create (String.ofList name) schema version)
  | relocate {q s e name schema : List Char} : Quoted q name → Quoted s schema → Ending e →
      Sentence ("ALTER EXTENSION ".toList ++ (q ++ (" SET SCHEMA ".toList ++ (s ++ e))))
        (.relocate (String.ofList name) (String.ofList schema))
  | reversion {q v e name : List Char} {version : Option String} :
      Quoted q name → Clause "TO" v version → Ending e →
      Sentence ("ALTER EXTENSION ".toList ++ (q ++ (" UPDATE".toList ++ (v ++ e))))
        (.reversion (String.ofList name) version)
  | drop {q e name : List Char} : Quoted q name → Ending e →
      Sentence ("DROP EXTENSION ".toList ++ (q ++ e)) (.drop (String.ofList name))

/-! ### Words, clauses and endings -/

theorem after?_eq_some_iff {word : String} {cs rest : List Char} :
    after? word cs = some rest ↔ cs = word.toList ++ rest := by
  unfold after?
  split_ifs with h
  · obtain ⟨r, rfl⟩ := List.isPrefixOf_iff_prefix.mp h
    simp
  · simp only [false_iff]
    rintro rfl
    exact h (List.isPrefixOf_iff_prefix.mpr (List.prefix_append _ _))

@[simp] theorem after?_append (word : String) (rest : List Char) :
    after? word (word.toList ++ rest) = some rest := after?_eq_some_iff.mpr rfl

theorem isEnd_iff {cs : List Char} : isEnd cs = true ↔ Ending cs := by
  constructor
  · intro h
    rcases (by simpa [isEnd] using h : cs = [] ∨ cs = ['\n']) with rfl | rfl
    · exact .bare
    · exact .lineFeed
  · rintro (_ | _) <;> rfl

theorem Ending.ends {e : List Char} (h : Ending e) : Ends e := by
  cases h with
  | bare => exact ends_nil
  | lineFeed => exact ends_cons (by decide) []

/-- A clause begins with a blank, so that no quote follows what stands before it. -/
theorem Clause.ends {keyword : String} {text rest : List Char} {name : Option String}
    (h : Clause keyword text name) (hr : Ends rest) : Ends (text ++ rest) := by
  cases h with
  | absent => exact hr
  | present _ => simp [Ends]

/-- A clause is read as it stands when what follows it cannot be taken for the clause itself. -/
theorem Clause.read {keyword : String} {text rest : List Char} {name : Option String}
    (h : Clause keyword text name) (hr : Ends rest)
    (hn : after? (" " ++ keyword ++ " ") rest = none) :
    clause? keyword (text ++ rest) = (name, rest) := by
  unfold clause?
  cases h with
  | absent => rw [List.nil_append, hn]; rfl
  | present hq => rw [List.append_assoc, after?_append, Option.bind_some, hq.read? hr]

theorem clause?_sound {keyword : String} {cs rest : List Char} {name : Option String}
    (h : clause? keyword cs = (name, rest)) : ∃ text, Clause keyword text name ∧ cs = text ++ rest := by
  unfold clause? at h
  split at h
  · next hread =>
      obtain ⟨rfl, rfl⟩ := Prod.mk.inj h
      obtain ⟨after, hafter, hread⟩ := Option.bind_eq_some_iff.mp hread
      obtain ⟨-, text, hq, rfl⟩ := read?_eq_some_iff.mp hread
      exact ⟨_, .present hq, by rw [List.append_assoc, ← after?_eq_some_iff.mp hafter]⟩
  · obtain ⟨rfl, rfl⟩ := Prod.mk.inj h
    exact ⟨[], .absent, rfl⟩

theorem Ending.not_clause {e : List Char} (h : Ending e) (keyword : String) :
    after? (" " ++ keyword ++ " ") e = none := by
  cases h <;> simp [after?, String.toList_append, List.isPrefixOf]

theorem Clause.not_schema {v e : List Char} {version : Option String}
    (h : Clause "VERSION" v version) (he : Ending e) :
    after? (" " ++ "SCHEMA" ++ " ") (v ++ e) = none := by
  cases h with
  | absent => exact he.not_clause "SCHEMA"
  | present _ => rfl

/-! ### The four readers -/

inductive Form where
  | create | relocate | reversion | drop
  deriving DecidableEq, Repr

def form : Statement → Form
  | .create .. => .create
  | .relocate .. => .relocate
  | .reversion .. => .reversion
  | .drop .. => .drop

def Form.read? : Form → List Char → Option Statement
  | .create => create?
  | .relocate => relocate?
  | .reversion => reversion?
  | .drop => drop?

theorem create?_sound {cs : List Char} {t : Statement} (h : create? cs = some t) : Sentence cs t := by
  obtain ⟨⟨name, r₁⟩, hname, h⟩ := Option.bind_eq_some_iff.mp h
  obtain ⟨r₀, hword, hname⟩ := Option.bind_eq_some_iff.mp hname
  obtain ⟨-, q, hq, rfl⟩ := read?_eq_some_iff.mp hname
  rcases hsc : clause? "SCHEMA" r₁ with ⟨schema, r₂⟩
  rcases hvc : clause? "VERSION" r₂ with ⟨version, r₃⟩
  obtain ⟨s, hs, rfl⟩ := clause?_sound hsc
  obtain ⟨v, hv, rfl⟩ := clause?_sound hvc
  simp only [hsc, hvc] at h
  split_ifs at h with he
  obtain rfl := Option.some.inj h
  rw [after?_eq_some_iff.mp hword]
  exact .create hq hs hv (isEnd_iff.mp he)

theorem relocate?_sound {cs : List Char} {t : Statement} (h : relocate? cs = some t) :
    Sentence cs t := by
  obtain ⟨⟨name, r₁⟩, hname, h⟩ := Option.bind_eq_some_iff.mp h
  obtain ⟨r₀, hword, hname⟩ := Option.bind_eq_some_iff.mp hname
  obtain ⟨-, q, hq, rfl⟩ := read?_eq_some_iff.mp hname
  obtain ⟨⟨schema, r₂⟩, hschema, h⟩ := Option.bind_eq_some_iff.mp h
  obtain ⟨r₃, hset, hschema⟩ := Option.bind_eq_some_iff.mp hschema
  obtain ⟨-, s, hs, rfl⟩ := read?_eq_some_iff.mp hschema
  dsimp only at h
  split_ifs at h with he
  obtain rfl := Option.some.inj h
  rw [after?_eq_some_iff.mp hword, after?_eq_some_iff.mp hset]
  exact .relocate hq hs (isEnd_iff.mp he)

theorem reversion?_sound {cs : List Char} {t : Statement} (h : reversion? cs = some t) :
    Sentence cs t := by
  obtain ⟨⟨name, r₁⟩, hname, h⟩ := Option.bind_eq_some_iff.mp h
  obtain ⟨r₀, hword, hname⟩ := Option.bind_eq_some_iff.mp hname
  obtain ⟨-, q, hq, rfl⟩ := read?_eq_some_iff.mp hname
  obtain ⟨r₂, hupdate, h⟩ := Option.bind_eq_some_iff.mp h
  rcases hvc : clause? "TO" r₂ with ⟨version, r₃⟩
  obtain ⟨v, hv, rfl⟩ := clause?_sound hvc
  simp only [hvc] at h
  split_ifs at h with he
  obtain rfl := Option.some.inj h
  rw [after?_eq_some_iff.mp hword, after?_eq_some_iff.mp hupdate]
  exact .reversion hq hv (isEnd_iff.mp he)

theorem drop?_sound {cs : List Char} {t : Statement} (h : drop? cs = some t) : Sentence cs t := by
  obtain ⟨⟨name, r₁⟩, hname, h⟩ := Option.bind_eq_some_iff.mp h
  obtain ⟨r₀, hword, hname⟩ := Option.bind_eq_some_iff.mp hname
  obtain ⟨-, q, hq, rfl⟩ := read?_eq_some_iff.mp hname
  dsimp only at h
  split_ifs at h with he
  obtain rfl := Option.some.inj h
  rw [after?_eq_some_iff.mp hword]
  exact .drop hq (isEnd_iff.mp he)

/-- A text of the grammar is taken by the reader of its own form and refused by the three others. -/
theorem Sentence.read {cs : List Char} {t : Statement} (h : Sentence cs t) (f : Form) :
    f.read? cs = if f = t.form then some t else none := by
  cases h with
  | create hq hs hv he =>
      cases f with
      | create =>
          have hname := hq.read? (hs.ends (hv.ends he.ends))
          have hschema := hs.read (hv.ends he.ends) (hv.not_schema he)
          have hversion := hv.read he.ends (he.not_clause "VERSION")
          simp only [Form.read?, form, create?, after?_append, Option.bind_eq_bind, Option.bind_some,
            hname, hschema, hversion, isEnd_iff.mpr he, if_true]
      | _ => rfl
  | relocate hq hs he =>
      have hname (rest : List Char) := hq.read? (show Ends (" SET SCHEMA ".toList ++ rest) by simp [Ends])
      cases f with
      | relocate =>
          simp only [Form.read?, form, relocate?, after?_append, Option.bind_eq_bind, Option.bind_some,
            hname, hs.read? he.ends, isEnd_iff.mpr he, if_true]
      | reversion =>
          have hword (rest : List Char) : after? " UPDATE" (" SET SCHEMA ".toList ++ rest) = none := rfl
          simp only [Form.read?, form, reversion?, after?_append, Option.bind_eq_bind,
            Option.bind_some, Option.bind_none, hname, hword, reduceCtorEq, if_false]
      | _ => rfl
  | reversion hq hv he =>
      have hname (rest : List Char) := hq.read? (show Ends (" UPDATE".toList ++ rest) by simp [Ends])
      cases f with
      | relocate =>
          have hword (rest : List Char) : after? " SET SCHEMA " (" UPDATE".toList ++ rest) = none := rfl
          simp only [Form.read?, form, relocate?, after?_append, Option.bind_eq_bind,
            Option.bind_some, Option.bind_none, hname, hword, reduceCtorEq, if_false]
      | reversion =>
          have hversion := hv.read he.ends (he.not_clause "TO")
          simp only [Form.read?, form, reversion?, after?_append, Option.bind_eq_bind,
            Option.bind_some, hname, hversion, isEnd_iff.mpr he, if_true]
      | _ => rfl
  | drop hq he =>
      cases f with
      | drop =>
          simp only [Form.read?, form, drop?, after?_append, Option.bind_eq_bind, Option.bind_some,
            hq.read? he.ends, isEnd_iff.mpr he, if_true]
      | _ => rfl

theorem Sentence.unique {cs : List Char} {t u : Statement} (h : Sentence cs t) (k : Sentence cs u) :
    t = u := by
  -- the reader of one form can give back one statement only
  have hread := k.read t.form
  rw [h.read t.form, if_pos rfl] at hread
  split_ifs at hread
  exact Option.some.inj hread

/-- Trying the four readers in turn accepts the texts of the grammar. -/
theorem read?_eq_some_iff {sql : String} {t : Statement} :
    read? sql = some t ↔ Sentence sql.toList t := by
  constructor
  · intro h
    rcases Option.or_eq_some_iff.mp h with h | ⟨-, h⟩
    · exact create?_sound h
    rcases Option.or_eq_some_iff.mp h with h | ⟨-, h⟩
    · exact relocate?_sound h
    rcases Option.or_eq_some_iff.mp h with h | ⟨-, h⟩
    · exact reversion?_sound h
    · exact drop?_sound h
  · intro h
    have hc := h.read .create
    have hl := h.read .relocate
    have hv := h.read .reversion
    have hd := h.read .drop
    simp only [Form.read?] at hc hl hv hd
    rw [read?, hc, hl, hv, hd]
    cases t <;> rfl

/-! ### The texts that are sent -/

def names : Statement → List String
  | .create name schema version => name :: (schema.toList ++ version.toList)
  | .relocate name schema => [name, schema]
  | .reversion name version => name :: version.toList
  | .drop name => [name]

/-- No name in a statement holds a null character, so that all of it is written. -/
def Storable (s : Statement) : Prop := ∀ name ∈ s.names, '\x00' ∉ name.toList

instance (s : Statement) : Decidable s.Storable :=
  inferInstanceAs (Decidable (∀ name ∈ s.names, '\x00' ∉ name.toList))

/-- A statement in which what is empty and may be left out is left out. -/
def normal : Statement → Statement
  | .create name schema version => .create name (schema.filter (· ≠ "")) (version.filter (· ≠ ""))
  | .relocate name schema => .relocate name schema
  | .reversion name version => .reversion name (version.filter (· ≠ ""))
  | .drop name => .drop name

theorem text_create (name : String) (schema version : Option String) :
    (create name schema version).text =
      "CREATE EXTENSION IF NOT EXISTS " ++ quote name ++ clause "SCHEMA" schema
        ++ clause "VERSION" version := rfl

theorem text_relocate (name schema : String) :
    (relocate name schema).text = "ALTER EXTENSION " ++ quote name ++ " SET SCHEMA " ++ quote schema :=
  rfl

theorem text_reversion (name : String) (version : Option String) :
    (reversion name version).text =
      "ALTER EXTENSION " ++ quote name ++ " UPDATE" ++ clause "TO" version := rfl

theorem text_drop (name : String) : (drop name).text = "DROP EXTENSION " ++ quote name := rfl

theorem clause_clause (keyword : String) (name : Option String) :
    Clause keyword (clause keyword name).toList ((name.filter (· ≠ "")).map kept) := by
  cases name with
  | none => exact .absent
  | some n =>
      by_cases hn : n = ""
      · subst hn
        exact .absent
      · have hq : Clause keyword ((" " ++ keyword ++ " ").toList ++ (quote n).toList) _ :=
          .present (quoted_quote n)
        rw [← String.toList_append] at hq
        rwa [clause, if_neg hn, Option.filter_some, if_pos (decide_eq_true hn)]

/-- A statement with each of its names changed. -/
def map (f : String → String) : Statement → Statement
  | .create name schema version => .create (f name) (schema.map f) (version.map f)
  | .relocate name schema => .relocate (f name) (f schema)
  | .reversion name version => .reversion (f name) (version.map f)
  | .drop name => .drop (f name)

/-- The statement that the text of a statement is: what cannot be stored of a name is not written. -/
def written (s : Statement) : Statement := s.normal.map kept

theorem sentence_written (s : Statement) : Sentence s.text.toList s.written := by
  cases s with
  | create name schema version =>
      have hs := Sentence.create (quoted_quote name) (clause_clause "SCHEMA" schema)
        (clause_clause "VERSION" version) .bare
      rw [List.append_nil, ← List.append_assoc, ← List.append_assoc] at hs
      rwa [text_create, String.toList_append, String.toList_append, String.toList_append]
  | relocate name schema =>
      have hs := Sentence.relocate (quoted_quote name) (quoted_quote schema) .bare
      rw [List.append_nil, ← List.append_assoc, ← List.append_assoc] at hs
      rwa [text_relocate, String.toList_append, String.toList_append, String.toList_append]
  | reversion name version =>
      have hs := Sentence.reversion (quoted_quote name) (clause_clause "TO" version) .bare
      rw [List.append_nil, ← List.append_assoc, ← List.append_assoc] at hs
      rwa [text_reversion, String.toList_append, String.toList_append, String.toList_append]
  | drop name =>
      have hs := Sentence.drop (quoted_quote name) .bare
      rw [List.append_nil] at hs
      rwa [text_drop, String.toList_append]

theorem map_filter_kept {name : Option String} (h : ∀ n ∈ name, '\x00' ∉ n.toList) :
    (name.filter (· ≠ "")).map kept = name.filter (· ≠ "") := by
  refine (Option.map_congr fun n hn => ?_).trans Option.map_id'
  exact kept_eq_self (h n (Option.filter_eq_some_iff.mp hn).1)

theorem written_eq_normal {s : Statement} (h : s.Storable) : s.written = s.normal := by
  cases s with
  | create name schema version =>
      simp only [Storable, names, List.mem_cons, List.mem_append, Option.mem_toList] at h
      rw [written, normal, map, kept_eq_self (h name (.inl rfl)),
        map_filter_kept fun n hn => h n (.inr (.inl hn)), map_filter_kept fun n hn => h n (.inr (.inr hn))]
  | relocate name schema =>
      simp only [Storable, names, List.mem_cons, List.not_mem_nil, or_false] at h
      rw [written, normal, map, kept_eq_self (h name (.inl rfl)), kept_eq_self (h schema (.inr rfl))]
  | reversion name version =>
      simp only [Storable, names, List.mem_cons, Option.mem_toList] at h
      rw [written, normal, map, kept_eq_self (h name (.inl rfl)), map_filter_kept fun n hn => h n (.inr hn)]
  | drop name =>
      simp only [Storable, names, List.mem_cons, List.not_mem_nil, or_false] at h
      rw [written, normal, map, kept_eq_self (h name rfl)]

theorem sentence_text {s : Statement} (h : s.Storable) : Sentence s.text.toList s.normal :=
  written_eq_normal h ▸ sentence_written s

theorem read?_written (s : Statement) : read? s.text = some s.written :=
  read?_eq_some_iff.mpr (sentence_written s)

theorem read?_text {s : Statement} (h : s.Storable) : read? s.text = some s.normal :=
  read?_eq_some_iff.mpr (sentence_text h)

theorem form_normal (s : Statement) : s.normal.form = s.form := by
  cases s <;> rfl

theorem clause_filter (keyword : String) (name : Option String) :
    clause keyword (name.filter (· ≠ "")) = clause keyword name := by
  cases name with
  | none => rfl
  | some n =>
      by_cases hn : n = ""
      · subst hn
        rfl
      · rw [Option.filter_some, if_pos (decide_eq_true hn)]

/-- What is left out and what is empty are written alike. -/
theorem text_normal (s : Statement) : s.normal.text = s.text := by
  cases s with
  | create => simp only [normal, text_create, clause_filter]
  | reversion => simp only [normal, text_reversion, clause_filter]
  | _ => rfl

/-- The text of a statement can be cut in one way only; of the four forms its own one takes it, and gives
back the statement. Two statements share a text only if they differ in nothing but what is left out. -/
theorem text_has_one_reading :
    (∀ s : Statement, s.Storable →
      (∀ t, Sentence s.text.toList t ↔ t = s.normal) ∧
      (∀ f : Form, f.read? s.text.toList = if f = s.form then some s.normal else none) ∧
      read? s.text = some s.normal) ∧
    ∀ s t : Statement, s.Storable → t.Storable → (s.text = t.text ↔ s.normal = t.normal) := by
  refine ⟨?_, ?_⟩
  · intro s hs
    have hsentence := sentence_text hs
    refine ⟨?_, ?_, read?_text hs⟩
    · intro t
      exact ⟨fun ht => ht.unique hsentence, fun ht => ht ▸ hsentence⟩
    · intro f
      rw [hsentence.read f, form_normal]
  · intro s t hs ht
    constructor
    · intro htext
      exact (sentence_text hs).unique (htext ▸ sentence_text ht)
    · intro hnormal
      rw [← text_normal s, hnormal, text_normal t]

/-- Names that look like clauses and names of quotes alone are read back as they are. -/
theorem clauses_in_names_have_one_reading :
    (create "\" SCHEMA \"" (some "") (some "\"\"")).Storable ∧
    (create "\"" (some "x\" VERSION \"1\n") none).Storable ∧
    read? (create "\" SCHEMA \"" (some "") (some "\"\"")).text
      = some (.create "\" SCHEMA \"" none (some "\"\"")) ∧
    (create "\" SCHEMA \"" (some "") (some "\"\"")).text
      ≠ (create "\"" (some "x\" VERSION \"1\n") none).text := by
  have hs : (create "\" SCHEMA \"" (some "") (some "\"\"")).Storable := by decide
  have ht : (create "\"" (some "x\" VERSION \"1\n") none).Storable := by decide
  refine ⟨hs, ht, (text_has_one_reading.1 _ hs).2.2, ?_⟩
  rw [ne_eq, text_has_one_reading.2 _ _ hs ht]
  decide

end CatalogSteward.Statement
