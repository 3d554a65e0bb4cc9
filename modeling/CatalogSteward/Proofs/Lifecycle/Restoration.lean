import CatalogSteward.Proofs.Lifecycle.Outcomes
import Mathlib.Data.List.Nodup
import Mathlib.Data.List.Perm.Basic

/-!
# Deleting and creating again

The state of an installed extension, as it is adopted, says all that the catalog holds of it. Once the
extension has been deleted, creating it from that state puts back its schema and its version, whichever the
server would have chosen by itself, and with them the whole catalog.
-/

namespace CatalogSteward

namespace Catalog

/-- Two catalogs that say the same. In which order extensions were installed is no part of what a catalog
says, so that the entries are the same but for their order. -/
structure Same (c d : Catalog) : Prop where
  rest : d = { c with installed := d.installed }
  entries : ∀ name, d.installation? name = c.installation? name
  perm : (c.installed.map (·.1)).Nodup → d.installed.Perm c.installed

theorem SameBut.uninstall (name : String) (c : Catalog) : c.SameBut name (c.uninstall name) :=
  ⟨rfl, fun _ hne => installation?_uninstall_of_ne c hne⟩

theorem mem_installed {c : Catalog} {name : String} {i : Installation} (h : c.installation? name = some i) :
    (name, i) ∈ c.installed := by
  obtain ⟨e, he, hi⟩ := Option.map_eq_some_iff.mp h
  have hname : e.1 = name := by simpa using List.find?_some he
  have hentry : e = (name, i) := Prod.ext hname hi
  exact hentry ▸ List.mem_of_find?_eq_some he

/-- An entry that is not there is put last. -/
theorem installed_install_uninstall (c : Catalog) (name : String) (i : Installation) :
    ((c.uninstall name).install name i).installed =
      (c.installed.filter fun e => e.1 ≠ name) ++ [(name, i)] := by
  have hnone : ¬((c.installed.filter fun e => e.1 ≠ name).any fun e => e.1 == name) := by
    simp
  exact if_neg hnone

/-- Taking out an entry and putting it back leads to the same catalog. -/
theorem same_install_uninstall {c : Catalog} {name : String} {i : Installation}
    (h : c.installation? name = some i) : c.Same ((c.uninstall name).install name i) := by
  refine ⟨rfl, ?_, ?_⟩
  · intro other
    by_cases hother : other = name
    · rw [hother, installation?_install_self, h]
    · rw [installation?_install_of_ne _ hother, installation?_uninstall_of_ne _ hother]
  · intro hnodup
    rw [installed_install_uninstall]
    have hdistinct : c.installed.Nodup := .of_map _ hnodup
    have habsent : (name, i) ∉ c.installed.filter fun e => e.1 ≠ name := by
      simp
    have hafter : ((c.installed.filter fun e => e.1 ≠ name) ++ [(name, i)]).Nodup := by
      refine List.Nodup.append (hdistinct.filter _) (List.nodup_singleton _) ?_
      exact List.disjoint_singleton.mpr habsent
    rw [List.perm_ext_iff_of_nodup hafter hdistinct]
    intro e
    rw [List.mem_append, List.mem_filter, List.mem_singleton]
    constructor
    · intro he
      obtain ⟨he, -⟩ | rfl := he
      · exact he
      · exact mem_installed h
    · intro he
      by_cases hname : e.1 = name
      · exact .inr (List.inj_on_of_nodup_map hnodup he (mem_installed h) hname)
      · exact .inl ⟨he, decide_eq_true hname⟩

/-- An installed extension that could be dropped, and installed again just as it is. -/
structure Replaceable (c : Catalog) (name : String) (i : Installation) : Prop where
  acceptable : Rules.Acceptable name
  installed : c.installation? name = some i
  independent : c.Independent name
  schema : i.schema ∈ c.schemas
  schemaStorable : i.schema ≠ "" ∧ '\x00' ∉ i.schema.toList
  version : ∃ versions, c.versions? name = some versions ∧ i.version ∈ versions
  versionStorable : i.version ≠ "" ∧ '\x00' ∉ i.version.toList

end Catalog

/-- The declaration of an extension just as it is installed. -/
def Installation.declared (name : String) (i : Installation) : Declared :=
  ⟨name, some i.schema, some i.version⟩

/-- What is observed of an installed extension declares it as it is. -/
theorem Installation.eq_declared {name : String} {i : Installation} {d : Declared}
    (h : d.toJson = (i.observed name).toJson) : d = i.declared name := by
  obtain ⟨declaredName, schema, version⟩ := d
  simp only [Declared.toJson, Observed.toJson, observed] at h
  cases schema <;> cases version <;> simp_all [declared, Json.ofOption]

namespace Lifecycle
open Client

variable {access : Access} {name : String} {i : Installation}

theorem Call.onCatalog_create_declared {c : Catalog} (h : c.Replaceable name i) :
    (Call.create (i.declared name)).onCatalog (.ok ()) (c.uninstall name) =
      (.ok (.observed (some (i.observed name))), (c.uninstall name).install name i) := by
  obtain ⟨versions, hversions, hversion⟩ := h.version
  obtain ⟨hschema, hschemaNul⟩ := h.schemaStorable
  obtain ⟨hversionNe, hversionNul⟩ := h.versionStorable
  have hstorable : (Statement.create name (some i.schema) (some i.version)).Storable := by
    simp [Statement.Storable, Statement.names, h.acceptable.noNul, hschemaNul, hversionNul]
  have hnormal : (Statement.create name (some i.schema) (some i.version)).normal =
      .create name (some i.schema) (some i.version) := by
    simp [Statement.normal, Option.filter_some, hschema, hversionNe]
  have happly := Catalog.apply_create_of_absent (c.installation?_uninstall_self name) h.schema hschema
    hversions hversion hversionNe
  have hname : Rules.Acceptable (i.declared name).name := h.acceptable
  rw [onCatalog_create hname hstorable (hnormal ▸ happly)]
  simp only [Installation.declared, Catalog.installation?_install_self]
  rfl

/-- Where nothing stands in the way, an extension that is adopted, deleted and created again from what was
adopted is as it was, and so is all of the catalog. In between it is not there, and nothing else has changed. -/
theorem create_undoes_delete {w : World} (hw : Ready access w)
    (h : w.server.catalog.Replaceable name i) {d : Declared} (hd : d.toJson = (i.observed name).toJson) :
    ∃ u₁, adopt access name w = (.ok (i.observed name), u₁) ∧ u₁.server = w.server ∧
    ∃ u₂, delete access name u₁ = (.ok (), u₂) ∧ w.server.catalog.SameBut name u₂.server.catalog ∧
      u₂.server.catalog.installation? name = none ∧
    ∃ u₃, installed access name u₂ = (.ok false, u₃) ∧ u₃.server = u₂.server ∧
    ∃ u₄, read access name u₃ = (.ok none, u₄) ∧ u₄.server = u₂.server ∧
    ∃ u₅, create access d u₄ = (.ok (some (i.observed name)), u₅) ∧
      u₅.server = { w.server with catalog := u₅.server.catalog } ∧
      w.server.catalog.Same u₅.server.catalog := by
  obtain rfl := Installation.eq_declared hd
  have hne := h.acceptable.nonempty
  -- the state is adopted
  obtain ⟨u₁, hadopt, hadopted⟩ :=
    adopt_answered (r := .ok (i.observed name)) hw (Call.onCatalog_adopt hne h.installed)
  refine ⟨u₁, hadopt, hadopted.server, ?_⟩
  -- the extension is deleted
  have hdrop : u₁.server.catalog.apply (.drop name) = .ok (w.server.catalog.uninstall name) := by
    rw [hadopted.server]
    exact Catalog.apply_drop_eq_ok_iff.mpr ⟨⟨i, h.installed⟩, h.independent, rfl⟩
  obtain ⟨u₂, hdelete, hdeleted⟩ :=
    delete_answered (r := .ok ()) hadopted.ready (Call.onCatalog_delete h.acceptable hdrop)
  have hcatalog : u₂.server.catalog = w.server.catalog.uninstall name := by rw [hdeleted.server]
  have habsent : u₂.server.catalog.installation? name = none :=
    hcatalog ▸ w.server.catalog.installation?_uninstall_self name
  refine ⟨u₂, hdelete, hcatalog ▸ .uninstall name _, habsent, ?_⟩
  -- it is looked for in two ways
  obtain ⟨u₃, hinstalled, hmissed⟩ := installed_answered hdeleted.ready hne
  rw [habsent] at hinstalled
  refine ⟨u₃, hinstalled, hmissed.server, ?_⟩
  obtain ⟨u₄, hread, hunread⟩ := read_answered hmissed.ready hne
  have hserver : u₄.server = u₂.server := hunread.server.trans hmissed.server
  rw [hmissed.server, habsent] at hread
  refine ⟨u₄, hread, hserver, ?_⟩
  -- it is created again
  have hcreatable : (Call.create (i.declared name)).onCatalog (.ok ()) u₄.server.catalog =
      (.ok (.observed (some (i.observed name))), (w.server.catalog.uninstall name).install name i) := by
    rw [hserver, hcatalog]
    exact Call.onCatalog_create_declared h
  obtain ⟨u₅, hcreate, hcreated⟩ :=
    create_answered (r := .ok (some (i.observed name))) hunread.ready hcreatable
  refine ⟨u₅, hcreate, ?_, ?_⟩
  · rw [hcreated.server, hserver, hdeleted.server, hadopted.server]
  · rw [hcreated.server]
    exact Catalog.same_install_uninstall h.installed

/-- A catalog with an extension that is neither in the default schema nor of the default version, and with
another one. -/
def relocated : Catalog :=
  { Catalog.fresh with installed := [("we\"ird", ⟨"app", "1.0"⟩), ("hstore", ⟨"app", "1.7"⟩)] }

theorem create_undoes_delete_relocated :
    ∃ u₁ u₂ u₃ u₄ u₅, adopt ⟨.default, none⟩ "we\"ird" (.ofServer ⟨relocated, 90100, [], []⟩) =
        (.ok ⟨.str "we\"ird", .str "app", .str "1.0"⟩, u₁) ∧
      delete ⟨.default, none⟩ "we\"ird" u₁ = (.ok (), u₂) ∧
      installed ⟨.default, none⟩ "we\"ird" u₂ = (.ok false, u₃) ∧
      read ⟨.default, none⟩ "we\"ird" u₃ = (.ok none, u₄) ∧
      create ⟨.default, none⟩ ⟨"we\"ird", some "app", some "1.0"⟩ u₄ =
        (.ok (some ⟨.str "we\"ird", .str "app", .str "1.0"⟩), u₅) ∧
      u₅.server.catalog.installed.Perm relocated.installed := by
  have hready : Ready ⟨.default, none⟩ (.ofServer ⟨relocated, 90100, [], []⟩) :=
    ⟨⟨rfl, rfl⟩, gate_of_recent rfl rfl (Int.le_refl _), ⟨rfl, rfl, rfl⟩⟩
  have hreplaceable : relocated.Replaceable "we\"ird" ⟨"app", "1.0"⟩ :=
    ⟨⟨by decide, by decide, by decide⟩, by decide, by decide, by decide, by decide, ⟨["1.0"], by decide, by decide⟩,
      by decide⟩
  obtain ⟨u₁, hadopt, -, u₂, hdelete, -, -, u₃, hinstalled, -, u₄, hread, -, u₅, hcreate, -, hsame⟩ :=
    create_undoes_delete hready hreplaceable (d := ⟨"we\"ird", some "app", some "1.0"⟩) rfl
  exact ⟨u₁, u₂, u₃, u₄, u₅, hadopt, hdelete, hinstalled, hread, hcreate, hsame.perm (by decide)⟩

end Lifecycle

end CatalogSteward
