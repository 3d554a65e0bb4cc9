import CatalogSteward.Proofs.Disk
import CatalogSteward.Proofs.Settings.RoundTrip
import CatalogSteward.Proofs.Utf8

/-!
# Settings in a file

Accepted settings that were written to a file are loaded from it as they are.
-/

namespace CatalogSteward.Settings
open Yaml Yaml.Section

variable {s : Settings} {d : Disk} {path : Path}

/-- The written settings are shown characters and line feeds. -/
theorem isEasy_toYaml (h : s.IsAccepted) (hs : s.isWritable = true) :
    ∀ c ∈ s.toYaml.toList, Style.isEasy c = true := by
  rw [toYaml_eq]
  exact isEasy_sections s.sections_ne_nil (isPlain_sections h hs)

theorem ofText_toYaml (h : s.IsAccepted) (hs : s.isWritable = true) (path : Path) :
    ofText path s.toYaml = .ok s := by
  rw [ofText, read_toYaml h hs]
  exact congrArg (Except.mapError _) (ofValue_document h)

/-- A file that holds a text is loaded as the text is. -/
theorem load_ofText {text : String} (hreturn : '\r' ∉ text.toList)
    (hread : d.read path = .ok (Text.encodeUtf8 text)) : load path d = (ofText path text, d) := by
  rw [load, run_get_bind, hread]
  dsimp only
  rw [Text.readText?_encodeUtf8 hreturn]
  rfl

theorem load_toYaml (h : s.IsAccepted) (hs : s.isWritable = true)
    (hread : d.read path = .ok (Text.encodeUtf8 s.toYaml)) : load path d = (.ok s, d) := by
  have hreturn : '\r' ∉ s.toYaml.toList := fun hmem => Bool.false_ne_true (isEasy_toYaml h hs '\r' hmem)
  rw [load_ofText hreturn hread, ofText_toYaml h hs]

end CatalogSteward.Settings
