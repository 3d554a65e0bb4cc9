import CatalogSteward.Proofs.Act
import CatalogSteward.Proofs.Statement
import CatalogSteward.Server.Client

/-!
# What a catalog says

Installing an extension changes the entry of that extension and no other. The text of a statement is
answered by carrying out the statement, and the text of a query by the entries it is about; no statement
is taken for a query.
-/

namespace CatalogSteward

namespace Catalog

/-! ### Entries -/

theorem find?_put_self {α : Type} (entries : List (String × α)) (name : String) (value : α) :
    find? (put entries name value) name = some value := by
  unfold put
  split
  · next hany =>
      rw [find?]
      induction entries with
      | nil => simp at hany
      | cons e entries ih => grind
  · next hany =>
      have hnone : entries.find? (fun e => e.1 == name) = none :=
        List.find?_eq_none.mpr fun e he hname => hany (List.any_eq_true.mpr ⟨e, he, hname⟩)
      simp [find?, List.find?_append, hnone]

theorem find?_put_of_ne {α : Type} (entries : List (String × α)) {name other : String}
    (h : other ≠ name) (value : α) : find? (put entries name value) other = find? entries other := by
  unfold put
  split
  · next hany =>
      clear hany
      rw [find?, find?]
      induction entries with
      | nil => rfl
      | cons e entries ih =>
          rw [List.map_cons, List.find?_cons, List.find?_cons]
          by_cases he : e.1 = name
          · have hnew : (name == other) = false := by simpa using h.symm
            rw [if_pos he, he, hnew]
            exact ih
          · rw [if_neg he]
            cases e.1 == other with
            | true => rfl
            | false => exact ih
  · have hne : (name == other) = false := by simpa using h.symm
    simp [find?, List.find?_append, hne]

theorem installation?_install_self (c : Catalog) (name : String) (i : Installation) :
    (c.install name i).installation? name = some i := find?_put_self ..

theorem installation?_install_of_ne (c : Catalog) {name other : String} (h : other ≠ name)
    (i : Installation) : (c.install name i).installation? other = c.installation? other :=
  find?_put_of_ne _ h i

/-! ### Statements -/

theorem requireSchema_eq_ok_iff {c : Catalog} {schema found : String} :
    c.requireSchema schema = .ok found ↔ found = schema ∧ schema ∈ c.schemas := by
  unfold requireSchema
  split
  · next h =>
      have hm : schema ∈ c.schemas := List.contains_iff_mem.mp h
      exact ⟨fun hok => ⟨(Except.ok.inj hok).symm, hm⟩, fun ⟨hfound, _⟩ => hfound ▸ rfl⟩
  · next h =>
      refine ⟨fun hok => (by cases hok), fun ⟨_, hm⟩ => ?_⟩
      exact absurd (List.contains_iff_mem.mpr hm) h

theorem requireInstalled_eq_ok_iff {c : Catalog} {name : String} {i : Installation} :
    c.requireInstalled name = .ok i ↔ c.installation? name = some i := by
  unfold requireInstalled
  cases c.installation? name with
  | none => exact ⟨fun h => (by cases h), fun h => by cases h⟩
  | some j =>
      constructor
      · exact fun h => congrArg some (Except.ok.inj h)
      · exact fun h => congrArg Except.ok (Option.some.inj h)

/-- The chosen version is the wanted one, or else the first of those available. -/
theorem chooseVersion_eq_ok_iff {versions : List String} {wanted : Option String}
    {complaint : String → String} {version : String} :
    chooseVersion versions wanted complaint = .ok version ↔
      (wanted.filter (· ≠ "")).or versions.head? = some version ∧ version ∈ versions := by
  have hchosen (v : String) :
      (if versions.contains v then .ok v else refuse .invalidParameterValue (complaint v)) =
        (.ok version : Except Refusal String) ↔ v = version ∧ version ∈ versions := by
    split
    · next hm =>
        have hv : v ∈ versions := List.contains_iff_mem.mp hm
        exact ⟨fun hok => Except.ok.inj hok ▸ ⟨rfl, hv⟩, fun ⟨heq, _⟩ => heq ▸ rfl⟩
    · next hm =>
        refine ⟨fun hok => (by cases hok), fun ⟨heq, hmem⟩ => ?_⟩
        exact absurd (List.contains_iff_mem.mpr (heq ▸ hmem)) hm
  unfold chooseVersion
  cases hwanted : wanted.filter (· ≠ "") with
  | some v =>
      rw [Option.some_or, Option.some_inj]
      exact hchosen v
  | none =>
      rw [Option.none_or]
      cases versions with
      | nil => exact ⟨fun h => (by cases h), fun ⟨h, _⟩ => by cases h⟩
      | cons v versions =>
          rw [List.head?_cons, Option.some_inj]
          exact hchosen v

/-- The entry with which a server installs an extension: in the wanted schema or the default one, and of the
wanted version or the first of those available. What is wanted but empty counts as not wanted. -/
structure Offers (c : Catalog) (name : String) (schema version : Option String) (i : Installation) : Prop where
  schema : i.schema = (schema.filter (· ≠ "")).getD c.defaultSchema
  exists_schema : i.schema ∈ c.schemas
  version : ∃ versions, c.versions? name = some versions ∧
    (version.filter (· ≠ "")).or versions.head? = some i.version ∧ i.version ∈ versions

theorem apply_create_of_installed {c : Catalog} {name : String} {i : Installation}
    (h : c.installation? name = some i) (schema version : Option String) :
    c.apply (.create name schema version) = .ok c :=
  if_pos (by rw [h, Option.isSome_some])

/-- An absent extension is created as the server offers it, if it does. -/
theorem apply_create_eq_ok_iff {c d : Catalog} {name : String} {schema version : Option String}
    (h : c.installation? name = none) :
    c.apply (.create name schema version) = .ok d ↔
      ∃ i, c.Offers name schema version i ∧ d = c.install name i := by
  rw [apply, if_neg (by rw [h, Option.isSome_none]; exact Bool.false_ne_true)]
  constructor
  · intro hok
    cases hversions : c.versions? name with
    | none => rw [hversions] at hok; cases hok
    | some versions =>
        rw [hversions] at hok
        obtain ⟨found, hfound, hok⟩ := except_bind_eq_ok_iff.mp hok
        obtain ⟨chosen, hchosen, hok⟩ := except_bind_eq_ok_iff.mp hok
        obtain ⟨hschema, hexists⟩ := requireSchema_eq_ok_iff.mp hfound
        exact ⟨⟨found, chosen⟩, ⟨hschema, hschema ▸ hexists, versions, hversions,
          chooseVersion_eq_ok_iff.mp hchosen⟩, (Except.ok.inj hok).symm⟩
  · rintro ⟨i, ⟨hschema, hexists, versions, hversions, hchosen⟩, rfl⟩
    rw [hversions]
    refine except_bind_eq_ok_iff.mpr ⟨i.schema, ?_, ?_⟩
    · exact requireSchema_eq_ok_iff.mpr ⟨hschema, hschema ▸ hexists⟩
    · exact except_bind_eq_ok_iff.mpr ⟨i.version, chooseVersion_eq_ok_iff.mpr hchosen, rfl⟩

theorem apply_relocate_eq_ok_iff {c d : Catalog} {name schema : String} :
    c.apply (.relocate name schema) = .ok d ↔
      ∃ i, c.installation? name = some i ∧ schema ∈ c.schemas ∧
        d = c.install name { i with schema := schema } := by
  constructor
  · intro h
    obtain ⟨i, hi, hafter⟩ := except_bind_eq_ok_iff.mp h
    obtain ⟨found, hfound, hd⟩ := except_bind_eq_ok_iff.mp hafter
    obtain ⟨rfl, hm⟩ := requireSchema_eq_ok_iff.mp hfound
    exact ⟨i, requireInstalled_eq_ok_iff.mp hi, hm, (Except.ok.inj hd).symm⟩
  · rintro ⟨i, hi, hm, rfl⟩
    refine except_bind_eq_ok_iff.mpr ⟨i, requireInstalled_eq_ok_iff.mpr hi, ?_⟩
    exact except_bind_eq_ok_iff.mpr ⟨schema, requireSchema_eq_ok_iff.mpr ⟨rfl, hm⟩, rfl⟩

theorem apply_reversion_eq_ok_iff {c d : Catalog} {name : String} {wanted : Option String} :
    c.apply (.reversion name wanted) = .ok d ↔
      ∃ i versions version, c.installation? name = some i ∧ c.versions? name = some versions ∧
        (wanted.filter (· ≠ "")).or versions.head? = some version ∧ version ∈ versions ∧
        d = c.install name { i with version := version } := by
  constructor
  · intro h
    obtain ⟨i, hi, hafter⟩ := except_bind_eq_ok_iff.mp h
    cases hversions : c.versions? name with
    | none => rw [hversions] at hafter; cases hafter
    | some versions =>
        rw [hversions] at hafter
        obtain ⟨version, hversion, hd⟩ := except_bind_eq_ok_iff.mp hafter
        obtain ⟨hchosen, hm⟩ := chooseVersion_eq_ok_iff.mp hversion
        exact ⟨i, versions, version, requireInstalled_eq_ok_iff.mp hi, rfl, hchosen, hm,
          (Except.ok.inj hd).symm⟩
  · rintro ⟨i, versions, version, hi, hversions, hchosen, hm, rfl⟩
    refine except_bind_eq_ok_iff.mpr ⟨i, requireInstalled_eq_ok_iff.mpr hi, ?_⟩
    rw [hversions]
    exact except_bind_eq_ok_iff.mpr ⟨version, chooseVersion_eq_ok_iff.mpr ⟨hchosen, hm⟩, rfl⟩

end Catalog

/-! ### Texts -/

theorem Query.distinct_texts : (presence "").text ≠ (entry "").text ∧ (entry "").text ≠ all.text ∧
    all.text ≠ (presence "").text := by decide +kernel

/-- What does not depend on the name that a query asks for depends on its text alone. -/
theorem Query.of_text {α : Type} {f : Query → α} (hpresence : ∀ m n, f (.presence m) = f (.presence n))
    (hentry : ∀ m n, f (.entry m) = f (.entry n)) {q p : Query} (h : q.text = p.text) : f q = f p := by
  obtain ⟨hpe, hea, hap⟩ := distinct_texts
  cases q with
  | presence m =>
      cases p with
      | presence n => exact hpresence m n
      | entry n => exact absurd h hpe
      | all => exact absurd h.symm hap
  | entry m =>
      cases p with
      | presence n => exact absurd h.symm hpe
      | entry n => exact hentry m n
      | all => exact absurd h hea
  | all =>
      cases p with
      | presence n => exact absurd h hap
      | entry n => exact absurd h.symm hea
      | all => rfl

namespace Server

theorem select_all : "SELECT".toList.isPrefixOf Query.all.text.toList = true := by decide +kernel

theorem select_entry : "SELECT".toList.isPrefixOf (Query.entry "").text.toList = true := by decide +kernel

theorem select_presence : "SELECT".toList.isPrefixOf (Query.presence "").text.toList = true := by
  decide +kernel

/-- No statement is taken for a query. -/
theorem not_select_text (s : Statement) : "SELECT".toList.isPrefixOf s.text.toList = false := by
  cases s with
  | create =>
      rw [Statement.text_create, String.toList_append, String.toList_append, String.toList_append]
      rfl
  | relocate =>
      rw [Statement.text_relocate, String.toList_append, String.toList_append, String.toList_append]
      rfl
  | reversion =>
      rw [Statement.text_reversion, String.toList_append, String.toList_append, String.toList_append]
      rfl
  | drop =>
      rw [Statement.text_drop, String.toList_append]
      rfl

theorem regular_written (c : Catalog) (s : Statement) (parameters : Option (List Json)) :
    regular c s.text parameters = (c.apply s.written).map fun c => ([], c) := by
  have hselect := not_select_text s
  have hne {text : String} (ht : "SELECT".toList.isPrefixOf text.toList = true) : s.text ≠ text := by
    rintro rfl
    exact Bool.false_ne_true (hselect.symm.trans ht)
  rw [regular, if_neg (hne select_all), if_neg (hne select_entry), if_neg (hne select_presence), hselect,
    if_neg Bool.false_ne_true, Catalog.run, Statement.read?_written]

theorem regular_statement (c : Catalog) {s : Statement} (hs : s.Storable)
    (parameters : Option (List Json)) :
    regular c s.text parameters = (c.apply s.normal).map fun c => ([], c) := by
  rw [regular_written, Statement.written_eq_normal hs]

/-- A query changes nothing. -/
theorem regular_select {c d : Catalog} {text : String} {parameters : Option (List Json)}
    {rows : List (List Json)} (h : "SELECT".toList.isPrefixOf text.toList = true)
    (hregular : regular c text parameters = .ok (rows, d)) : d = c := by
  rw [regular, if_pos h] at hregular
  split_ifs at hregular <;> exact (Prod.mk.inj (Except.ok.inj hregular)).2.symm

theorem regular_entry (c : Catalog) (name : String) :
    regular c (Query.entry name).text (some [.str name]) =
      .ok (((c.installation? name).map (row name)).toList, c) := by
  have hall : (Query.entry name).text ≠ Query.all.text := Query.distinct_texts.2.1
  rw [regular, if_neg hall, if_pos (show (Query.entry name).text = (Query.entry "").text from rfl)]
  simp only [queried, Option.bind_some]
  cases c.installation? name <;> rfl

end Server

end CatalogSteward
