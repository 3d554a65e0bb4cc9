import CatalogSteward.Proofs.Catalog
import CatalogSteward.Proofs.Lifecycle.Effects

/-!
# Requests and statements

A request that changes an extension does to the catalog what its statement does, and a request that reads
one gives back its entry and changes nothing.
-/

namespace CatalogSteward

/-- The state of an installed extension as it is read back. -/
def Installation.observed (name : String) (i : Installation) : Observed :=
  ⟨.str name, .str i.schema, .str i.version⟩

namespace Lifecycle
open Client

theorem exchange_statement {context : String} {s : Statement} {parameters : Option (List Json)}
    {rows : List (List Json)} {c d : Catalog} (hs : s.Storable)
    (h : exchange context s.text parameters c = (.ok rows, d)) : c.apply s.normal = .ok d := by
  rw [exchange, Server.regular_statement c hs] at h
  rcases hc : c.apply s.normal with (e | e) | d'
  · rw [hc] at h
    cases h
  · rw [hc] at h
    cases h
  · rw [hc] at h
    exact congrArg Except.ok (Prod.mk.inj h).2

theorem Request.exchange_of_onCatalog {q : Request} {reply : Reply} {c d : Catalog}
    (h : q.onCatalog c = (.ok reply, d)) :
    q.check = .ok () ∧ ∃ rows, exchange q.context q.text q.parameters c = (.ok rows, d) := by
  rw [onCatalog] at h
  cases hcheck : q.check with
  | error e => rw [hcheck] at h; cases h
  | ok _ =>
      rw [hcheck] at h
      rcases hexchange : exchange q.context q.text q.parameters c with ⟨f | rows, e⟩
      · rw [hexchange] at h
        cases h
      · rw [hexchange] at h
        obtain ⟨-, rfl⟩ := Prod.mk.inj h
        exact ⟨rfl, rows, rfl⟩

theorem Request.onCatalog_relocate {name schema : String} {reply : Reply} {c d : Catalog}
    (hname : '\x00' ∉ name.toList) (h : (Request.relocate name schema).onCatalog c = (.ok reply, d)) :
    c.apply (.relocate name schema) = .ok d := by
  obtain ⟨hcheck, rows, hexchange⟩ := exchange_of_onCatalog h
  have hschema : Rules.Acceptable schema := by
    rw [check] at hcheck
    cases hok : Rules.checkSchemaChange name schema with
    | error e => rw [hok] at hcheck; cases hcheck
    | ok checked => exact (Rules.checkSchemaChange_eq_ok_iff.mp hok).2
  have hstorable : (Statement.relocate name schema).Storable := by
    simp [Statement.Storable, Statement.names, hname, hschema.noNul]
  exact exchange_statement hstorable hexchange

theorem Request.onCatalog_reversion {name version : String} {reply : Reply} {c d : Catalog}
    (hname : '\x00' ∉ name.toList) (hversion : '\x00' ∉ version.toList)
    (h : (Request.reversion name (some version)).onCatalog c = (.ok reply, d)) :
    c.apply (.reversion name ((some version).filter (· ≠ ""))) = .ok d := by
  obtain ⟨-, rows, hexchange⟩ := exchange_of_onCatalog h
  have hstorable : (Statement.reversion name (some version)).Storable := by
    simp [Statement.Storable, Statement.names, hname, hversion]
  exact exchange_statement hstorable hexchange

/-- An extension is read back as its entry. -/
theorem Request.onCatalog_find (name : String) (c : Catalog) :
    (Request.find name).onCatalog c = (.ok ⟨(c.installation? name).map (·.observed name), false⟩, c) := by
  have hexchange : exchange "reading extension" (Query.entry name).text (some [.str name]) c =
      (.ok ((c.installation? name).map (Server.row name)).toList, c) := by
    rw [exchange, Server.regular_entry]
  simp only [onCatalog, check, context, text, parameters, hexchange]
  cases c.installation? name <;> rfl

end Lifecycle

end CatalogSteward
