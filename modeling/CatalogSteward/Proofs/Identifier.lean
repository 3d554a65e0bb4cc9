import CatalogSteward.Identifier
import Mathlib.Data.List.TakeWhile

/-!
# The grammar of quoted identifiers

A quoted identifier is a run of characters other than the double quote, and of doubled double quotes,
between double quotes. The grammar is stated as a relation between the text and the name that the text
stands for, with no reader in view. The reader accepts exactly what the grammar allows before a text that
does not go on with a double quote, and each name has exactly one quoted form.

The grammar allows an identifier to be cut in two: that of a single quote begins with that of the empty
name. But such a cut is always made before a quote, and where none follows, the identifier is the longest
at its place. So a quoted identifier shows by itself where it ends, whatever the name and whatever follows
it, and the names without the null character are quoted in different ways.
-/

namespace CatalogSteward.Identifier

/-- Texts that may stand between the quotes, each with the name it stands for. -/
inductive Inside : List Char → List Char → Prop
  | nil : Inside [] []
  | plain {c : Char} {raw name : List Char} : c ≠ '"' → Inside raw name →
      Inside (c :: raw) (c :: name)
  | doubled {raw name : List Char} : Inside raw name → Inside ('"' :: '"' :: raw) ('"' :: name)

/-- Quoted identifiers, each with the name it stands for. -/
inductive Quoted : List Char → List Char → Prop
  | between {raw name : List Char} : Inside raw name → Quoted ('"' :: (raw ++ ['"'])) name

/-- No character follows that would lengthen an identifier. -/
def Ends (rest : List Char) : Prop := rest.head? ≠ some '"'

theorem ends_nil : Ends [] := by simp [Ends]

theorem ends_cons {c : Char} (hc : c ≠ '"') (rest : List Char) : Ends (c :: rest) := by
  simpa [Ends] using hc

/-! ### Writing -/

theorem inside_flatMap (name : List Char) : Inside (name.flatMap quoteChar) name := by
  induction name with
  | nil => exact .nil
  | cons c name ih =>
      rw [List.flatMap_cons]
      by_cases hc : c = '"'
      · subst c
        exact .doubled ih
      · rw [quoteChar, if_neg hc]
        exact .plain hc ih

theorem Inside.eq_flatMap {raw name : List Char} (h : Inside raw name) :
    raw = name.flatMap quoteChar := by
  induction h with
  | nil => rfl
  | plain hc _ ih => rw [List.flatMap_cons, quoteChar, if_neg hc, ← ih]; rfl
  | doubled _ ih => rw [List.flatMap_cons, ← ih]; rfl

theorem storable_eq_self {name : List Char} (h : '\x00' ∉ name) : storable name = name := by
  rw [storable, List.takeWhile_eq_self_iff]
  intro c hc
  simpa using fun h0 : c = '\x00' => h (h0 ▸ hc)

/-- What is written of a name: all that comes before its first null character. -/
def kept (name : String) : String := String.ofList (storable name.toList)

theorem kept_eq_self {name : String} (h : '\x00' ∉ name.toList) : kept name = name := by
  rw [kept, storable_eq_self h, String.ofList_toList]

theorem quoted_quote (name : String) : Quoted (quote name).toList (storable name.toList) := by
  rw [quote, String.toList_ofList]
  exact .between (inside_flatMap (storable name.toList))

theorem Quoted.eq_quote {text name : List Char} (h : Quoted text name) :
    text = '"' :: (name.flatMap quoteChar ++ ['"']) := by
  cases h with
  | between h => rw [h.eq_flatMap]

/-! ### Reading -/

/-- What the reader has taken is text of the grammar with its closing quote, and what it has left does
not go on with a quote. -/
theorem body?_sound {cs name rest : List Char} (h : body? cs = some (name, rest)) :
    Ends rest ∧ ∃ raw, Inside raw name ∧ cs = raw ++ '"' :: rest := by
  induction cs using body?.induct generalizing name with
  | case1 => simp [body?] at h
  | case2 cs ih =>
      obtain ⟨⟨n, r⟩, hr, he⟩ := Option.map_eq_some_iff.mp h
      obtain ⟨rfl, rfl⟩ := Prod.mk.inj he
      obtain ⟨hends, raw, hraw, rfl⟩ := ih hr
      exact ⟨hends, _, .doubled hraw, rfl⟩
  | case3 cs hcs =>
      rw [body?] at h
      · obtain ⟨rfl, rfl⟩ := Prod.mk.inj (Option.some.inj h)
        refine ⟨?_, [], .nil, rfl⟩
        cases cs with
        | nil => exact ends_nil
        | cons c cs => exact ends_cons (fun hc => hcs cs (hc ▸ rfl)) cs
      · exact hcs
  | case4 c cs hdouble hsingle ih =>
      have hc : c ≠ '"' := hsingle
      rw [body?] at h
      · obtain ⟨⟨n, r⟩, hr, he⟩ := Option.map_eq_some_iff.mp h
        obtain ⟨rfl, rfl⟩ := Prod.mk.inj he
        obtain ⟨hends, raw, hraw, rfl⟩ := ih hr
        exact ⟨hends, _, .plain hc hraw, rfl⟩
      · exact hdouble
      · exact hsingle

theorem body?_inside {raw name rest : List Char} (h : Inside raw name) (hr : Ends rest) :
    body? (raw ++ '"' :: rest) = some (name, rest) := by
  induction h with
  | nil =>
      cases rest with
      | nil => rfl
      | cons c rest =>
          have hc : c ≠ '"' := by simpa [Ends] using hr
          rw [List.nil_append, body?]
          simpa using hc
  | @plain c raw name hc _ ih =>
      rw [List.cons_append, body?]
      · rw [ih]; rfl
      · intro _ h0; exact absurd h0 hc
      · exact hc
  | doubled _ ih =>
      rw [List.cons_append, List.cons_append, body?, ih]
      rfl

/-- The reader takes an identifier of the grammar, unless a quote follows it. -/
theorem read?_eq_some_iff {cs name rest : List Char} :
    read? cs = some (name, rest) ↔ Ends rest ∧ ∃ text, Quoted text name ∧ cs = text ++ rest := by
  constructor
  · intro h
    unfold read? at h
    split at h
    · obtain ⟨hends, raw, hraw, rfl⟩ := body?_sound h
      exact ⟨hends, _, .between hraw, by simp⟩
    · simp at h
  · rintro ⟨hends, text, ⟨hraw⟩, rfl⟩
    simpa [read?] using body?_inside hraw hends

theorem Quoted.read? {text name rest : List Char} (h : Quoted text name) (hr : Ends rest) :
    Identifier.read? (text ++ rest) = some (name, rest) :=
  read?_eq_some_iff.mpr ⟨hr, text, h, rfl⟩

/-- Quoting loses nothing of a name but what follows its first null character. -/
theorem read?_quote (name : String) {rest : List Char} (hr : Ends rest) :
    read? ((quote name).toList ++ rest) = some (storable name.toList, rest) :=
  (quoted_quote name).read? hr

/-- The quoted form of a name tells all that is kept of it, and nothing else. -/
theorem quote_eq_quote_iff {a b : String} : quote a = quote b ↔ kept a = kept b := by
  constructor
  · intro h
    have hread := read?_quote a ends_nil
    rw [h, read?_quote b ends_nil] at hread
    rw [kept, kept, (Prod.mk.inj (Option.some.inj hread)).1]
  · intro h
    have hstorable : storable a.toList = storable b.toList := String.ofList_injective h
    apply String.toList_injective
    rw [(quoted_quote a).eq_quote, (quoted_quote b).eq_quote, hstorable]

/-! ### Null characters -/

theorem nul_notMem_storable (name : List Char) : '\x00' ∉ storable name := by
  intro h
  simpa using List.mem_takeWhile_imp h

theorem eq_of_mem_quoteChar {x c : Char} (h : x ∈ quoteChar c) : x = c := by
  unfold quoteChar at h
  split_ifs at h with hc
  · simpa [hc] using h
  · simpa using h

theorem nul_notMem_quote (name : String) : '\x00' ∉ (quote name).toList := by
  rw [(quoted_quote name).eq_quote]
  intro h
  obtain ⟨c, hc, hx⟩ : ∃ c ∈ storable name.toList, '\x00' ∈ quoteChar c := by simpa using h
  exact nul_notMem_storable name.toList (eq_of_mem_quoteChar hx ▸ hc)

/-! ### Where an identifier ends -/

theorem Ends.of_append {first rest : List Char} (h : Ends (first ++ rest)) : Ends first := by
  cases first with
  | nil => exact ends_nil
  | cons c first => simpa [Ends] using h

/-- An identifier that no quote follows is the longest at its place. -/
theorem Quoted.prefix_of_ends {text name rest other inner after : List Char} (h : Quoted text name)
    (hr : Ends rest) (ho : Quoted other inner) (heq : text ++ rest = other ++ after) :
    other <+: text := by
  rcases List.append_eq_append_iff.mp heq with ⟨more, rfl, rfl⟩ | ⟨left, rfl, -⟩
  · -- read to its end, the longer identifier leaves nothing; the reader takes the shorter one from it
    have hshort := h.read? hr.of_append
    have hlong := ho.read? ends_nil
    rw [List.append_nil, hshort] at hlong
    obtain rfl : more = [] := (Prod.mk.inj (Option.some.inj hlong)).2
    exact ⟨[], by simp only [List.append_nil]⟩
  · exact List.prefix_append other left

/-- Of the identifiers at one place, none but the longest stands where no quote follows. -/
theorem Quoted.ends_iff {text name rest other inner after : List Char} (h : Quoted text name)
    (hr : Ends rest) (ho : Quoted other inner) (heq : text ++ rest = other ++ after) :
    Ends after ↔ other = text := by
  constructor
  · intro ha
    have hshorter : other <+: text := h.prefix_of_ends hr ho heq
    have hlonger : text <+: other := ho.prefix_of_ends ha h heq.symm
    exact hshorter.eq_of_length_le hlonger.length_le
  · rintro rfl
    exact List.append_cancel_left heq ▸ hr

/-- A quoted identifier is taken as a whole from a text that does not go on with a quote, and is read as the
name up to its first null character. No identifier at its place is longer, and each shorter one stands before
a quote. Whatever follows the quoted name, an identifier at its place that no quote follows holds all of it.
No quoted name holds a null character, and names without one are quoted in different ways. -/
theorem quoted_identifiers_delimit_themselves :
    (∀ (name : String) (rest : List Char), Ends rest →
      read? ((quote name).toList ++ rest) = some (name.toList.takeWhile (· ≠ '\x00'), rest) ∧
      ∀ text inner after, Quoted text inner → (quote name).toList ++ rest = text ++ after →
        text <+: (quote name).toList ∧ (Ends after ↔ text = (quote name).toList)) ∧
    (∀ (name : String) (rest text inner after : List Char), Quoted text inner → Ends after →
      (quote name).toList ++ rest = text ++ after → (quote name).toList <+: text) ∧
    (∀ name : String, '\x00' ∉ (quote name).toList) ∧
    ∀ a b : String, '\x00' ∉ a.toList → '\x00' ∉ b.toList → quote a = quote b → a = b := by
  refine ⟨?_, ?_, nul_notMem_quote, ?_⟩
  · intro name rest hrest
    refine ⟨read?_quote name hrest, ?_⟩
    intro text inner after htext heq
    exact ⟨(quoted_quote name).prefix_of_ends hrest htext heq,
      (quoted_quote name).ends_iff hrest htext heq⟩
  · intro name rest text inner after htext hafter heq
    exact htext.prefix_of_ends hafter (quoted_quote name) heq.symm
  · intro a b ha hb heq
    rw [← kept_eq_self ha, ← kept_eq_self hb]
    exact quote_eq_quote_iff.mp heq

/-- A name that looks like the end of an identifier is taken as a whole. The grammar could end it after its
second quote, but a quote follows there. A quote after `x` makes a longer identifier of it. -/
theorem runs_of_quotes_delimit_themselves :
    Ends " SCHEMA \"x\"".toList ∧
    read? ((quote "\"a\"\"; --\"\x00\"b").toList ++ " SCHEMA \"x\"".toList)
      = some ("\"a\"\"; --\"".toList, " SCHEMA \"x\"".toList) ∧
    Quoted "\"\"".toList [] ∧
    ¬ Ends "\"a\"\"\"\"; --\"\"\" SCHEMA \"x\"".toList ∧
    Ends " y".toList ∧ (quote "x").toList <+: (quote "x\"y").toList ∧
    '\x00' ∉ "\"".toList ∧ '\x00' ∉ "\"\"".toList ∧ quote "\"" ≠ quote "\"\"" := by
  have hrest : Ends " SCHEMA \"x\"".toList := by simp [Ends]
  have hread := quoted_identifiers_delimit_themselves.1 "\"a\"\"; --\"\x00\"b" _ hrest
  have hempty : Quoted "\"\"".toList [] := .between .nil
  have hafter : Ends " y".toList := by simp [Ends]
  have hone : '\x00' ∉ "\"".toList := by decide
  have htwo : '\x00' ∉ "\"\"".toList := by decide
  refine ⟨hrest, hread.1, hempty, ?_, hafter, ?_, hone, htwo, ?_⟩
  · rw [(hread.2 _ [] _ hempty (by decide)).2]
    decide
  · exact quoted_identifiers_delimit_themselves.2.1 "x" "\"y\" y".toList _ _ _
      (quoted_quote "x\"y") hafter (by decide)
  · intro h
    have hsame := quoted_identifiers_delimit_themselves.2.2.2 _ _ hone htwo h
    exact absurd hsame (by decide)

end CatalogSteward.Identifier
