import CatalogSteward.Proofs.Lifecycle.Requests

/-!
# Updates converge

An update that returns has brought the entry of its extension to what was declared, has touched no other
entry, and returns the entry as it is then. Updating again from there finds nothing to do, unless the
default version was asked for: an empty version is never the version that is read back.
-/

namespace CatalogSteward

/-- Two catalogs that differ at most in the entry of one extension. -/
structure Catalog.SameBut (name : String) (c d : Catalog) : Prop where
  rest : d = { c with installed := d.installed }
  others : ∀ other, other ≠ name → d.installation? other = c.installation? other

namespace Catalog.SameBut

variable {name : String} {c d e : Catalog}

theorem refl (name : String) (c : Catalog) : SameBut name c c := ⟨rfl, fun _ _ => rfl⟩

theorem trans (h : SameBut name c d) (k : SameBut name d e) : SameBut name c e := by
  refine ⟨?_, fun other hne => (k.others other hne).trans (h.others other hne)⟩
  rw [k.rest, h.rest]

theorem install (name : String) (c : Catalog) (i : Installation) : SameBut name c (c.install name i) :=
  ⟨rfl, fun _ hne => installation?_install_of_ne c hne i⟩

theorem versions? (h : SameBut name c d) (other : String) : d.versions? other = c.versions? other := by
  rw [h.rest]
  rfl

end Catalog.SameBut

namespace Lifecycle
open Client

/-! ### Planned changes -/

theorem differing_str (wanted : Option String) (known : String) :
    differing wanted (.str known) = wanted.filter (· ≠ known) := by
  refine congrArg wanted.filter (funext fun s => ?_)
  change (!(s == known)) = decide (s ≠ known)
  by_cases h : s = known <;> simp [h]

theorem changes_eq_ok {desired : Declared} {name : String} {i : Installation} {changes : Changes}
    (h : desired.changes name (i.observed name) = .ok changes) :
    desired.name = name ∧
      changes = ⟨desired.schema.filter (· ≠ i.schema), desired.version.filter (· ≠ i.version)⟩ := by
  rw [Declared.changes] at h
  split at h
  · cases h
  · next hname =>
    refine ⟨Decidable.not_not.mp hname, ?_⟩
    simp only [Installation.observed, differing_str] at h
    cases hfilter : desired.schema.filter (· ≠ i.schema) with
    | none =>
        rw [hfilter] at h
        exact (Except.ok.inj h).symm
    | some wanted =>
        rw [hfilter] at h
        obtain ⟨schema, hschema, hchanges⟩ := except_bind_eq_ok_iff.mp h
        cases hcheck : Rules.checkSchemaChange name wanted with
        | error e => rw [hcheck] at hschema; cases hschema
        | ok checked =>
            rw [hcheck] at hschema
            obtain ⟨rfl, -⟩ := Rules.checkSchemaChange_eq_ok_iff.mp hcheck
            obtain rfl := Except.ok.inj hschema
            exact (Except.ok.inj hchanges).symm

/-- The entry that an update is to lead to. -/
structure Reaches (c : Catalog) (desired : Declared) (i j : Installation) : Prop where
  schema : j.schema = desired.schema.getD i.schema
  keeps : desired.version = none → j.version = i.version
  takes : ∀ v, desired.version = some v → v ≠ "" → j.version = v
  default : desired.version = some "" → (c.versions? desired.name).bind List.head? = some j.version

theorem getD_filter_ne {α : Type} [DecidableEq α] (wanted : Option α) (known : α) :
    (wanted.filter (· ≠ known)).getD known = wanted.getD known := by
  cases wanted with
  | none => rfl
  | some a =>
      rw [Option.filter_some]
      by_cases h : a = known
      · subst h
        rw [if_neg (by simp)]
        rfl
      · rw [if_pos (by simpa using h)]

/-! ### Carrying the changes out -/

theorem allOnCatalog_cons {q : Request} {qs : List Request} {reply last : Reply} {c d : Catalog}
    (h : allOnCatalog (q :: qs) reply c = (.ok last, d)) :
    ∃ next e, q.onCatalog c = (.ok next, e) ∧ allOnCatalog qs next e = (.ok last, d) := by
  rw [allOnCatalog] at h
  rcases hq : q.onCatalog c with ⟨f | next, e⟩
  · rw [hq] at h
    cases h
  · rw [hq] at h
    exact ⟨next, e, rfl, h⟩

section
variable {name : String} {i : Installation} {c d : Catalog} {qs : List Request} {reply last : Reply}

theorem allOnCatalog_relocate {schema : Option String} (hname : '\x00' ∉ name.toList)
    (hi : c.installation? name = some i)
    (h : allOnCatalog (schema.toList.map (.relocate name) ++ qs) reply c = (.ok last, d)) :
    ∃ next e, allOnCatalog qs next e = (.ok last, d) ∧ c.SameBut name e ∧
      e.installation? name = some ⟨schema.getD i.schema, i.version⟩ := by
  cases schema with
  | none => exact ⟨reply, c, h, .refl name c, hi⟩
  | some schema =>
      obtain ⟨next, e, hrelocate, hrest⟩ := allOnCatalog_cons h
      obtain ⟨j, hj, -, rfl⟩ := Catalog.apply_relocate_eq_ok_iff.mp (Request.onCatalog_relocate hname hrelocate)
      obtain rfl := Option.some.inj (hi.symm.trans hj)
      exact ⟨next, _, hrest, .install name c _, Catalog.installation?_install_self ..⟩

theorem allOnCatalog_reversion {version : Option String} (hname : '\x00' ∉ name.toList)
    (hversion : ∀ v, version = some v → '\x00' ∉ v.toList) (hi : c.installation? name = some i)
    (h : allOnCatalog (version.toList.map (fun v => .reversion name (some v)) ++ qs) reply c =
      (.ok last, d)) :
    ∃ next e v, allOnCatalog qs next e = (.ok last, d) ∧ c.SameBut name e ∧
      e.installation? name = some ⟨i.schema, v⟩ ∧
      match version with
      | none => v = i.version
      | some wanted =>
        (((some wanted).filter (· ≠ "")).or ((c.versions? name).bind List.head?)) = some v := by
  cases version with
  | none => exact ⟨reply, c, i.version, h, .refl name c, hi, rfl⟩
  | some wanted =>
      obtain ⟨next, e, hreversion, hrest⟩ := allOnCatalog_cons h
      obtain ⟨j, versions, v, hj, hversions, hv, -, rfl⟩ :=
        Catalog.apply_reversion_eq_ok_iff.mp (Request.onCatalog_reversion hname (hversion wanted rfl) hreversion)
      obtain rfl := Option.some.inj (hi.symm.trans hj)
      refine ⟨next, _, v, hrest, .install name c _, Catalog.installation?_install_self .., ?_⟩
      rw [hversions, Option.bind_some, ← hv, Option.filter_filter]
      simp

theorem allOnCatalog_find (h : allOnCatalog [.find name] reply c = (.ok last, d)) :
    d = c ∧ last.found = (c.installation? name).map (·.observed name) := by
  obtain ⟨next, e, hfind, hrest⟩ := allOnCatalog_cons h
  rw [Request.onCatalog_find] at hfind
  obtain ⟨hnext, rfl⟩ := Prod.mk.inj hfind
  obtain ⟨hlast, rfl⟩ := Prod.mk.inj hrest
  rw [← Except.ok.inj hlast, ← Except.ok.inj hnext]
  exact ⟨rfl, rfl⟩

end

def Updated.state (previous : Observed) : Updated → Option Observed
  | .unchanged => some previous
  | .readBack observed => observed

/-- The entry that the changes lead to which an update plans: each of the two is made where something is
declared that differs. -/
structure Changed (c : Catalog) (desired : Declared) (i j : Installation) : Prop where
  schema : j.schema = desired.schema.getD i.schema
  version : match desired.version.filter (· ≠ i.version) with
    | none => j.version = i.version
    | some wanted =>
      (((some wanted).filter (· ≠ "")).or ((c.versions? desired.name).bind List.head?)) = some j.version

namespace Changed

variable {c : Catalog} {desired : Declared} {i j : Installation}

theorem refl (hschema : desired.schema.filter (· ≠ i.schema) = none)
    (hversion : desired.version.filter (· ≠ i.version) = none) : Changed c desired i i := by
  constructor
  · rw [← getD_filter_ne, hschema]
    rfl
  · rw [hversion]

/-- A version that is declared, and not empty, is there in the end. -/
theorem takes (h : Changed c desired i j) {wanted : String} (hwanted : desired.version = some wanted)
    (hne : wanted ≠ "") : j.version = wanted := by
  have hversion := h.version
  rw [hwanted, Option.filter_some] at hversion
  by_cases hsame : wanted = i.version
  · rw [if_neg (by simpa using hsame)] at hversion
    exact hversion.trans hsame.symm
  · rw [if_pos (by simpa using hsame)] at hversion
    dsimp only at hversion
    rw [Option.filter_some, if_pos (by simpa using hne), Option.some_or] at hversion
    exact (Option.some.inj hversion).symm

/-- The entry after both changes is what was declared. -/
theorem reaches (h : Changed c desired i j) (hinstalled : i.version ≠ "") : Reaches c desired i j := by
  refine ⟨h.schema, fun hnone => ?_, fun wanted hwanted hne => h.takes hwanted hne, fun hempty => ?_⟩
  · have hversion := h.version
    rw [hnone] at hversion
    exact hversion
  · have hversion := h.version
    rw [hempty, Option.filter_some, if_pos (by simpa using hinstalled.symm)] at hversion
    simpa using hversion

end Changed

theorem plan_update {desired : Declared} {name : String} {i : Installation} {qs : List Request}
    (h : (Call.update name (i.observed name) desired).plan = .ok qs) :
    desired.name = name ∧
      (qs = [] ∧ desired.schema.filter (· ≠ i.schema) = none ∧
          desired.version.filter (· ≠ i.version) = none ∨
        qs = (desired.schema.filter (· ≠ i.schema)).toList.map (.relocate name) ++
          ((desired.version.filter (· ≠ i.version)).toList.map (fun v => .reversion name (some v)) ++
            [.find name])) := by
  cases hchanges : desired.changes name (i.observed name) with
  | error e =>
      simp only [Call.plan, hchanges] at h
      cases h
  | ok changes =>
      obtain ⟨hname, rfl⟩ := changes_eq_ok hchanges
      refine ⟨hname, ?_⟩
      simp only [Call.plan, hchanges, Except.map] at h
      obtain rfl := Except.ok.inj h
      split_ifs with hempty
      · obtain ⟨hschema, hversion⟩ := Bool.and_eq_true_iff.mp hempty
        exact .inl ⟨rfl, Option.isNone_iff_eq_none.mp hschema, Option.isNone_iff_eq_none.mp hversion⟩
      · exact .inr (List.append_assoc ..)

theorem update_onCatalog {name : String} {desired : Declared} {i : Installation} {c d : Catalog}
    {outcome : Updated} (hname : '\x00' ∉ name.toList)
    (hversion : ∀ v, desired.version = some v → '\x00' ∉ v.toList) (hi : c.installation? name = some i)
    (h : (Call.update name (i.observed name) desired).onCatalog (.ok ()) c = (.ok (.updated outcome), d)) :
    desired.name = name ∧
      ∃ j, d.installation? name = some j ∧ c.SameBut name d ∧ Changed c desired i j ∧
        outcome.state (i.observed name) = some (j.observed name) := by
  cases hplan : (Call.update name (i.observed name) desired).plan with
  | error e =>
      rw [Call.onCatalog_of_error hplan] at h
      cases h
  | ok qs =>
      -- either nothing differs, or each of the two changes is made where it is due
      obtain ⟨hsame, ⟨rfl, hschema, hkept⟩ | hqs⟩ := plan_update hplan
      · rw [Call.onCatalog_of_nil hplan] at h
        obtain ⟨hanswer, rfl⟩ := Prod.mk.inj h
        obtain rfl := Answer.updated.inj (Except.ok.inj hanswer)
        exact ⟨hsame, i, hi, .refl name c, .refl hschema hkept, rfl⟩
      · rw [Call.onCatalog_of_requests hplan (by rw [hqs]; simp)] at h
        rcases hall : allOnCatalog qs .nothing c with ⟨f | last, e⟩
        · rw [hall] at h
          cases h
        · rw [hall] at h
          obtain ⟨hanswer, rfl⟩ := Prod.mk.inj h
          obtain rfl := Answer.updated.inj (Except.ok.inj hanswer)
          have hnul (v : String) (hv : desired.version.filter (· ≠ i.version) = some v) :
              '\x00' ∉ v.toList := hversion v (Option.filter_eq_some_iff.mp hv).1
          rw [hqs] at hall
          obtain ⟨next, c₁, hrest, hsame₁, hi₁⟩ := allOnCatalog_relocate hname hi hall
          obtain ⟨next, c₂, v, hrest, hsame₂, hi₂, hv⟩ :=
            allOnCatalog_reversion hname hnul hi₁ hrest
          obtain ⟨rfl, hfound⟩ := allOnCatalog_find hrest
          rw [hsame₁.versions?, ← hsame] at hv
          refine ⟨hsame, _, hi₂, hsame₁.trans hsame₂, ⟨getD_filter_ne .., hv⟩, ?_⟩
          rw [hi₂] at hfound
          exact hfound

/-- From the entry that an update has reached, the same update has nothing to do. -/
theorem changes_again {name : String} {desired : Declared} {c : Catalog} {i j : Installation}
    (hname : desired.name = name) (hj : Reaches c desired i j) (hversion : desired.version ≠ some "") :
    desired.changes name (j.observed name) = .ok ⟨none, none⟩ := by
  have hschema : desired.schema.filter (· ≠ j.schema) = none := by
    rw [Option.filter_eq_none_iff]
    intro s hs
    rw [hj.schema, hs]
    simp
  have hkept : desired.version.filter (· ≠ j.version) = none := by
    rw [Option.filter_eq_none_iff]
    intro v hv
    rw [hj.takes v hv fun hempty => hversion (hempty ▸ hv)]
    simp
  rw [Declared.changes, if_neg (not_not_intro hname)]
  simp only [Installation.observed, differing_str, hschema, hkept]
  rfl

/-- An update that returns has brought the entry of the extension to what was declared, and no other; it
returns that entry. If the declared version is not the empty one, updating again from there does nothing
but tell so. -/
theorem update_converges {access : Access} {name : String} {desired : Declared} {i : Installation}
    {w u : World} {outcome : Updated} (hw : w.server.Unscripted) (hname : '\x00' ∉ name.toList)
    (hi : w.server.catalog.installation? name = some i) (hinstalled : i.version ≠ "")
    (hversion : ∀ v, desired.version = some v → '\x00' ∉ v.toList)
    (h : update access name (i.observed name) desired w = (.ok outcome, u)) :
    ∃ j, u.server.catalog.installation? name = some j ∧
      Reaches w.server.catalog desired i j ∧
      w.server.catalog.SameBut name u.server.catalog ∧
      outcome.state (i.observed name) = some (j.observed name) ∧
      (desired.version ≠ some "" →
        update access name (j.observed name) desired u =
          (.ok .unchanged, u.said .verbose ("Extension '" ++ name ++ "' is up to date"))) := by
  have hrun : (Call.update name (i.observed name) desired).run access w = (.ok (.updated outcome), u) :=
    Act.bind_ok h _
  obtain ⟨honCatalog, hran, hclient⟩ := Call.run_ok hw hrun
  obtain ⟨hsame, j, hj, hothers, hchanged, hstate⟩ := update_onCatalog hname hversion hi honCatalog
  have hreaches := hchanged.reaches hinstalled
  refine ⟨j, hj, hreaches, hothers, hstate, fun hagain => ?_⟩
  rw [update, Act.bind_ok (requireExtensions_cleared access _ hclient),
    changes_again hsame hreaches hagain]
  exact Act.bind_ok (Act.say_apply ..) _

/-- An update that changes both the schema and the version. -/
theorem update_converges_both :
    ∃ outcome u,
      update ⟨.default, none⟩ "hstore" (Installation.observed "hstore" ⟨"public", "1.7"⟩)
          ⟨"hstore", some "app", some "1.8"⟩
          (.ofServer ⟨Catalog.fresh.install "hstore" ⟨"public", "1.7"⟩, 160002, [], []⟩) =
        (.ok outcome, u) ∧
      u.server.catalog.installation? "hstore" = some ⟨"app", "1.8"⟩ ∧
      update ⟨.default, none⟩ "hstore" (Installation.observed "hstore" ⟨"app", "1.8"⟩)
          ⟨"hstore", some "app", some "1.8"⟩ u =
        (.ok .unchanged, u.said .verbose "Extension 'hstore' is up to date") := by
  have hok : (update ⟨.default, none⟩ "hstore" (Installation.observed "hstore" ⟨"public", "1.7"⟩)
      ⟨"hstore", some "app", some "1.8"⟩
      (.ofServer ⟨Catalog.fresh.install "hstore" ⟨"public", "1.7"⟩, 160002, [], []⟩)).1.isOk = true := by
    decide +kernel
  rcases hrun : update ⟨.default, none⟩ "hstore" (Installation.observed "hstore" ⟨"public", "1.7"⟩)
      ⟨"hstore", some "app", some "1.8"⟩
      (.ofServer ⟨Catalog.fresh.install "hstore" ⟨"public", "1.7"⟩, 160002, [], []⟩) with ⟨f | outcome, u⟩
  · rw [hrun] at hok
    cases hok
  · obtain ⟨j, hj, hreaches, -, -, hagain⟩ := update_converges ⟨rfl, rfl⟩ (by decide) (by decide)
      (by decide) (by decide) hrun
    obtain rfl : j = ⟨"app", "1.8"⟩ := by
      have hschema := hreaches.schema
      have hversion := hreaches.takes "1.8" rfl (by decide)
      cases j
      simp_all
    exact ⟨outcome, u, rfl, hj, hagain (by decide)⟩

end Lifecycle

end CatalogSteward
