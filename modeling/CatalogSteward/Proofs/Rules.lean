import CatalogSteward.Rules
import Mathlib.Tactic.SplitIfs

/-!
# What the rules accept

A check that succeeds gives back what it was given, and says what is true of it.
-/

namespace CatalogSteward.Rules

/-- A name that can be stored and that the server does not cut. -/
structure Acceptable (value : String) : Prop where
  nonempty : value ≠ ""
  noNul : '\x00' ∉ value.toList
  short : value.utf8ByteSize ≤ nameLimit

theorem checkName_eq_ok_iff {objectType value checked : String} :
    checkName objectType value = .ok checked ↔ checked = value ∧ Acceptable value := by
  unfold checkName
  split_ifs with hempty hnul hlong
  · exact ⟨fun h => (by cases h), fun h => absurd hempty h.2.nonempty⟩
  · exact ⟨fun h => (by cases h), fun h => absurd (List.contains_iff_mem.mp hnul) h.2.noNul⟩
  · exact ⟨fun h => (by cases h), fun h => absurd hlong (Nat.not_lt.mpr h.2.short)⟩
  · constructor
    · intro h
      refine ⟨(Except.ok.inj h).symm, hempty, fun hm => ?_, Nat.not_lt.mp hlong⟩
      exact hnul (List.contains_iff_mem.mpr hm)
    · rintro ⟨rfl, -⟩
      rfl

theorem checkSchemaChange_eq_ok_iff {extension schema checked : String} :
    checkSchemaChange extension schema = .ok checked ↔ checked = schema ∧ Acceptable schema := by
  unfold checkSchemaChange
  split_ifs with hempty
  · exact ⟨fun h => (by cases h), fun h => absurd hempty h.2.nonempty⟩
  · exact checkName_eq_ok_iff

end CatalogSteward.Rules
