import CatalogSteward.Proofs.Yaml.Parsing

/-!
# Sections

A document of sections is a mapping whose values are mappings of leaves: an outline of two levels.
-/

namespace CatalogSteward.Yaml

/-- A name with the leaf under it. -/
abbrev Field := String × Leaf

/-- A name with the fields under it. -/
abbrev Section := String × List Field

namespace Section

def entries (fields : List Field) : List (Leaf × Tree) := fields.map fun f => (.text f.1, .leaf f.2)

def tree (s : Section) : Leaf × Tree := (.text s.1, .mapping (entries s.2))

def values (fields : List Field) : List (Value × Value) := fields.map fun f => (.text f.1, f.2.value)

def value (s : Section) : Value × Value := (.text s.1, .mapping (values s.2))

/-- A section whose names are keys and whose values end with their lines. -/
structure IsPlain (s : Section) : Prop where
  name : IsKey s.1
  fields : ∀ f ∈ s.2, IsKey f.1 ∧ f.2.IsFlowing
  ne_nil : s.2 ≠ []

end Section

/-- Names that occur once in each section, and sections that occur once. -/
structure Distinct (ss : List Section) : Prop where
  sections : (ss.map (·.1)).Nodup
  fields : ∀ s ∈ ss, (s.2.map (·.1)).Nodup

namespace Outline

def ofFields : List Field → Outline
  | [] => nil
  | f :: fs => leaf f.1 f.2 (ofFields fs)

def ofSections : List Section → Outline
  | [] => nil
  | s :: ss => branch s.1 (ofFields s.2) (ofSections ss)

theorem isEmpty_ofSections {ss : List Section} (h : ss ≠ []) : (ofSections ss).isEmpty = false := by
  cases ss with
  | nil => exact absurd rfl h
  | cons s ss => rfl

theorem tree_ofFields (fs : List Field) : (ofFields fs).tree = Section.entries fs := by
  induction fs with
  | nil => rfl
  | cons f fs ih => rw [ofFields, tree, ih, Section.entries, Section.entries, List.map_cons]

theorem tree_ofSections (ss : List Section) : (ofSections ss).tree = ss.map Section.tree := by
  induction ss with
  | nil => rfl
  | cons s ss ih => rw [ofSections, tree, tree_ofFields, ih, List.map_cons, Section.tree]

theorem entries_ofFields (fs : List Field) : (ofFields fs).entries = fs.map fun f => (f.1, f.2.value) := by
  induction fs with
  | nil => rfl
  | cons f fs ih => rw [ofFields, entries, ih, List.map_cons]

theorem entries_ofSections (ss : List Section) :
    (ofSections ss).entries = ss.map fun s => (s.1, .mapping (Section.values s.2)) := by
  induction ss with
  | nil => rfl
  | cons s ss ih =>
      rw [ofSections, entries, ih, entries_ofFields, List.map_map, List.map_cons]
      rfl

theorem fits_ofFields {fs : List Field} (h : ∀ f ∈ fs, IsKey f.1 ∧ f.2.IsFlowing) : (ofFields fs).Fits 2 := by
  induction fs with
  | nil => trivial
  | cons f fs ih =>
      obtain ⟨⟨hname, hleaf⟩, hfs⟩ := List.forall_mem_cons.mp h
      exact ⟨⟨hname, by decide⟩, hleaf, ih hfs⟩

theorem fits_ofSections {ss : List Section} (h : ∀ s ∈ ss, s.IsPlain) : (ofSections ss).Fits 0 := by
  induction ss with
  | nil => trivial
  | cons s ss ih =>
      obtain ⟨⟨hname, hfields, hnil⟩, hss⟩ := List.forall_mem_cons.mp h
      refine ⟨⟨hname, by decide⟩, ⟨?_, fits_ofFields hfields⟩, ih hss⟩
      cases hs : s.2 with
      | nil => exact absurd hs hnil
      | cons f fs => rfl

theorem isKept_ofFields {fs : List Field} (hnames : (fs.map (·.1)).Nodup) (h : ∀ f ∈ fs, f.2.IsRead) :
    (ofFields fs).IsKept := by
  induction fs with
  | nil => trivial
  | cons f fs ih =>
      obtain ⟨hname, hnames⟩ := List.nodup_cons.mp hnames
      obtain ⟨hf, hfs⟩ := List.forall_mem_cons.mp h
      refine ⟨?_, hf, ih hnames hfs⟩
      rwa [entries_ofFields, List.map_map]

theorem isKept_ofSections {ss : List Section} (hdistinct : Distinct ss)
    (h : ∀ s ∈ ss, ∀ f ∈ s.2, f.2.IsRead) : (ofSections ss).IsKept := by
  obtain ⟨hsections, hfields⟩ := hdistinct
  induction ss with
  | nil => trivial
  | cons s ss ih =>
      obtain ⟨hname, hnames⟩ := List.nodup_cons.mp hsections
      obtain ⟨hs, hss⟩ := List.forall_mem_cons.mp hfields
      obtain ⟨hleaves, hmore⟩ := List.forall_mem_cons.mp h
      refine ⟨?_, isKept_ofFields hs hleaves, ih hmore hnames hss⟩
      rwa [entries_ofSections, List.map_map]

end Outline

open Outline

theorem isEasy_sections {ss : List Section} (hne : ss ≠ []) (hss : ∀ s ∈ ss, s.IsPlain) :
    ∀ c ∈ (write (ss.map Section.tree)).toList, Style.isEasy c = true := by
  rw [← tree_ofSections]
  exact isEasy_write (fits_ofSections hss) (isEmpty_ofSections hne)

/-- A written document is read back as the values of its sections. -/
theorem read_write {ss : List Section} (hne : ss ≠ []) (hss : ∀ s ∈ ss, s.IsPlain) (hdistinct : Distinct ss)
    (hleaves : ∀ s ∈ ss, ∀ f ∈ s.2, f.2.IsRead) :
    read (write (ss.map Section.tree)).toList = .ok (.mapping (ss.map Section.value)) := by
  rw [← tree_ofSections, Outline.read_write (fits_ofSections hss) (isEmpty_ofSections hne)
    (isKept_ofSections hdistinct hleaves), Outline.value, entries_ofSections, List.map_map]
  rfl

end CatalogSteward.Yaml
