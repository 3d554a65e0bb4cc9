import CatalogSteward.Proofs.Lifecycle.Outcomes

/-!
# Extensions are created once

A server offers an absent extension in one way at most: in the schema and of the version that are wanted, with
the default in place of what is left out or empty. A creation installs what is offered and returns it, or there
is no offer and it fails. An extension that is there already is not altered by its creation, whatever is asked
for, so that a creation that has returned can be repeated.
-/

namespace CatalogSteward

namespace Catalog

theorem Offers.unique {c : Catalog} {name : String} {schema version : Option String} {i j : Installation}
    (hi : c.Offers name schema version i) (hj : c.Offers name schema version j) : i = j := by
  obtain ⟨is, iv⟩ := i
  obtain ⟨versions, hversions, hiv, -⟩ := hi.version
  obtain ⟨versions', hversions', hjv, -⟩ := hj.version
  obtain rfl := Option.some.inj (hversions.symm.trans hversions')
  obtain rfl := hi.schema.trans hj.schema.symm
  obtain rfl := Option.some.inj (hiv.symm.trans hjv)
  rfl

/-- What is empty counts as left out, and leaving it out changes nothing. -/
theorem offers_filter_iff {c : Catalog} {name : String} {schema version : Option String} {i : Installation} :
    c.Offers name (schema.filter (· ≠ "")) (version.filter (· ≠ "")) i ↔ c.Offers name schema version i := by
  have hfilter (wanted : Option String) : (wanted.filter (· ≠ "")).filter (· ≠ "") = wanted.filter (· ≠ "") := by
    simp only [Option.filter_filter, Bool.and_self]
  constructor
  · intro ⟨hschema, hexists, hversion⟩
    rw [hfilter] at hschema hversion
    exact ⟨hschema, hexists, hversion⟩
  · intro ⟨hschema, hexists, hversion⟩
    refine ⟨?_, hexists, ?_⟩
    · rwa [hfilter]
    · rwa [hfilter]

end Catalog

namespace Lifecycle
open Client

variable {access : Access} {w : World} {desired : Declared}

theorem create_of_installed (desired : Declared) {i : Installation} (hw : Ready access w)
    (hname : Rules.Acceptable desired.name) (hi : w.server.catalog.installation? desired.name = some i) :
    ∃ u, create access desired w = (.ok (some (i.observed desired.name)), u) ∧
      Answered access w w.server.catalog u :=
  create_answered (r := .ok (some (i.observed desired.name))) hw (Call.onCatalog_create_installed hname hi)

/-- An absent extension is installed as it is offered, or there is no offer and nothing changes. -/
theorem create_of_absent (hw : Ready access w) (hname : Rules.Acceptable desired.name)
    (hs : (Statement.create desired.name desired.schema desired.version).Storable)
    (habsent : w.server.catalog.installation? desired.name = none) :
    (∃ i u, w.server.catalog.Offers desired.name desired.schema desired.version i ∧
      create access desired w = (.ok (some (i.observed desired.name)), u) ∧
      Answered access w (w.server.catalog.install desired.name i) u) ∨
    (∀ i, ¬w.server.catalog.Offers desired.name desired.schema desired.version i) ∧
      ∃ f u, create access desired w = (.error f, u) ∧ Answered access w w.server.catalog u := by
  cases happly : w.server.catalog.apply
      (Statement.create desired.name desired.schema desired.version).normal with
  | ok d =>
      obtain ⟨i, hoffers, rfl⟩ := (Catalog.apply_create_eq_ok_iff habsent).mp happly
      have hcall := Call.onCatalog_create hname hs happly
      rw [Catalog.installation?_install_self] at hcall
      obtain ⟨u, hcreate, hu⟩ := create_answered (r := .ok (some (i.observed desired.name))) hw hcall
      exact .inl ⟨i, u, Catalog.offers_filter_iff.mp hoffers, hcreate, hu⟩
  | error refusal =>
      have hnone (i : Installation) :
          ¬w.server.catalog.Offers desired.name desired.schema desired.version i := by
        intro hoffers
        have hok := (Catalog.apply_create_eq_ok_iff habsent).mpr
          ⟨i, Catalog.offers_filter_iff.mpr hoffers, rfl⟩
        cases happly.symm.trans hok
      obtain ⟨f, hcall⟩ := Call.onCatalog_create_refused hname hs happly
      obtain ⟨u, hcreate, hu⟩ := create_answered (r := .error f) hw hcall
      exact .inr ⟨hnone, f, u, hcreate, hu⟩

/-- Creating an extension that is installed returns its entry and changes nothing, whatever is asked for.
Creating an absent one either installs the one entry that the server offers and returns it, with all other
entries as they were, or there is no offer, and it fails and changes nothing. Whenever a creation returns,
another one returns the same, whatever it asks for, and changes nothing. -/
theorem create_installs_once (hw : Ready access w) (hname : Rules.Acceptable desired.name)
    (hschema : ∀ s, desired.schema = some s → '\x00' ∉ s.toList)
    (hversion : ∀ v, desired.version = some v → '\x00' ∉ v.toList) :
    ∃ r u, create access desired w = (r, u) ∧
      (∀ i, w.server.catalog.installation? desired.name = some i →
        r = .ok (some (i.observed desired.name)) ∧ u.server = w.server) ∧
      (w.server.catalog.installation? desired.name = none →
        (∃ i, w.server.catalog.Offers desired.name desired.schema desired.version i ∧
          r = .ok (some (i.observed desired.name)) ∧
          u.server.catalog.installation? desired.name = some i ∧
          w.server.catalog.SameBut desired.name u.server.catalog ∧
          u.server = { w.server with catalog := u.server.catalog }) ∨
        (∀ i, ¬w.server.catalog.Offers desired.name desired.schema desired.version i) ∧
          ∃ f, r = .error f ∧ u.server = w.server) ∧
      ∀ o, r = .ok o → ∀ schema version,
        ∃ v, create access ⟨desired.name, schema, version⟩ u = (.ok o, v) ∧ v.server = u.server := by
  have hstorable : (Statement.create desired.name desired.schema desired.version).Storable := by
    simp only [Statement.Storable, Statement.names, List.mem_cons, List.mem_append, Option.mem_toList]
    rintro text (rfl | hs | hv)
    · exact hname.noNul
    · exact hschema text hs
    · exact hversion text hv
  -- where the extension is installed in the end, it can be created again
  have hagain {i : Installation} {d : Catalog} {u : World} (hu : Answered access w d u)
      (hi : d.installation? desired.name = some i) (schema version : Option String) :
      ∃ v, create access ⟨desired.name, schema, version⟩ u = (.ok (some (i.observed desired.name)), v) ∧
        v.server = u.server := by
    have hcatalog : u.server.catalog.installation? desired.name = some i := by rw [hu.server, hi]
    obtain ⟨v, hcreate, hv⟩ :=
      create_of_installed ⟨desired.name, schema, version⟩ hu.ready hname hcatalog
    exact ⟨v, hcreate, hv.server⟩
  cases hi : w.server.catalog.installation? desired.name with
  | some i =>
      obtain ⟨u, hcreate, hu⟩ := create_of_installed desired hw hname hi
      refine ⟨_, u, hcreate, ?_, fun h => (by cases h), ?_⟩
      · intro j hj
        obtain rfl := Option.some.inj hj
        exact ⟨rfl, hu.server⟩
      · intro o ho schema version
        obtain rfl := Except.ok.inj ho
        exact hagain hu hi schema version
  | none =>
      obtain ⟨i, u, hoffers, hcreate, hu⟩ | ⟨hnone, f, u, hcreate, hu⟩ :=
        create_of_absent hw hname hstorable hi
      · have hnew := w.server.catalog.installation?_install_self desired.name i
        have hcatalog : u.server.catalog = w.server.catalog.install desired.name i := by rw [hu.server]
        refine ⟨_, u, hcreate, fun j hj => (by cases hj), fun _ => .inl ?_, ?_⟩
        · refine ⟨i, hoffers, rfl, hcatalog ▸ hnew, hcatalog ▸ .install _ _ i, ?_⟩
          rw [hcatalog, hu.server]
        · intro o ho schema version
          obtain rfl := Except.ok.inj ho
          exact hagain hu hnew schema version
      · refine ⟨_, u, hcreate, fun j hj => (by cases hj), fun _ => .inr ⟨hnone, f, rfl, hu.server⟩, ?_⟩
        intro o ho
        cases ho

/-- An extension that is created in a schema of its choice and of the default version, and then with other
wishes. -/
theorem create_installs_once_hstore :
    ∃ u v, create ⟨.default, none⟩ ⟨"hstore", some "app", some ""⟩ (.ofServer ⟨.fresh, 90100, [], []⟩) =
        (.ok (some ⟨.str "hstore", .str "app", .str "1.8"⟩), u) ∧
      u.server.catalog.installation? "hstore" = some ⟨"app", "1.8"⟩ ∧
      create ⟨.default, none⟩ ⟨"hstore", some "absent", some "1.7"⟩ u =
        (.ok (some ⟨.str "hstore", .str "app", .str "1.8"⟩), v) ∧
      v.server = u.server := by
  have hready : Ready ⟨.default, none⟩ (.ofServer ⟨.fresh, 90100, [], []⟩) :=
    ⟨⟨rfl, rfl⟩, gate_of_recent rfl rfl (Int.le_refl _), ⟨rfl, rfl, rfl⟩⟩
  have hname : Rules.Acceptable (Declared.mk "hstore" (some "app") (some "")).name :=
    ⟨by decide, by decide, by decide⟩
  have hoffered : Catalog.fresh.Offers "hstore" (some "app") (some "") ⟨"app", "1.8"⟩ :=
    ⟨by decide, by decide, ["1.8", "1.7"], by decide, by decide, by decide⟩
  obtain ⟨r, u, hcreate, -, hcreated, hagain⟩ :=
    create_installs_once hready hname
      (fun s hs => Option.some.inj hs ▸ (by decide)) (fun v hv => Option.some.inj hv ▸ (by decide))
  obtain ⟨i, hoffers, rfl, hi, -, -⟩ | ⟨hnone, -⟩ := hcreated (by decide)
  · obtain rfl := hoffers.unique hoffered
    obtain ⟨v, hrepeated, hv⟩ := hagain _ rfl (some "absent") (some "1.7")
    exact ⟨u, v, hcreate, hi, hrepeated, hv⟩
  · exact absurd hoffered (hnone _)

end Lifecycle

end CatalogSteward
