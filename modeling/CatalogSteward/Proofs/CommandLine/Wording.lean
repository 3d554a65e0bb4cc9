import CatalogSteward.Proofs.CommandLine.Reports
import CatalogSteward.Proofs.Markup

/-!
# What of a report is read as markup

The details of a report are escaped, so no tag is read in them. Its message and its hint are printed as they
are, and the tags in them are read.
-/

namespace CatalogSteward
open Markup

/-- The line of a detail. -/
def Report.detailLine (detail : String) : String := "  [dim]" ++ escape detail ++ "[/dim]"

/-- What the console would show of a report if every part of it stood for itself. -/
def Report.literal (r : Report) : List Happening :=
  .line true (Level.error.tag ++ " " ++ escape r.message) ::
    r.details.map (fun detail => .line false (Report.detailLine detail)) ++
      match r.hint.filter (· ≠ "") with
      | some hint => [.line false (Level.hint.tag ++ " " ++ escape hint)]
      | none => []

/-- A detail is read without a tag. Its line has those around it alone, the closing one unless an odd number
of backslashes is left before it. -/
theorem Report.tags_detailLine (detail : String) :
    tags (detailLine detail) = "dim" :: if closingSlashes detail % 2 = 0 then ["/dim"] else [] := by
  have hrest : closes "[/dim]".toList = false := by decide
  have hopening (cs : List Char) : tagsFrom 0 ("  [dim]".toList ++ cs) = "dim" :: tagsFrom 0 cs := rfl
  have hclosing (n : Nat) : tagsFrom n "[/dim]".toList = if n % 2 = 0 then ["/dim"] else [] := by
    change (if opensTag "/dim]".toList ∧ n % 2 = 0 then ["/dim"] else []) = _
    rw [show opensTag "/dim]".toList = true by decide]
    simp only [true_and]
  rw [tags, detailLine, String.append_assoc, String.toList_append, hopening, ← tags,
    tags_escape_append detail hrest, hclosing]

theorem Report.tags_messageLine (message : String) :
    tags (Level.error.tag ++ " " ++ message) = ["red", "/red"] ++ tags message := by
  rw [tags, String.append_assoc, String.toList_append, String.toList_append]
  rfl

theorem Report.tags_hintLine (hint : String) :
    tags (Level.hint.tag ++ " " ++ hint) = ["cyan", "/cyan"] ++ tags hint := by
  rw [tags, String.append_assoc, String.toList_append, String.toList_append]
  rfl

theorem Report.shown_eq_literal_iff (r : Report) :
    r.shown = r.literal ↔ IsLiteral r.message ∧ ∀ hint ∈ r.hint.filter (· ≠ ""), IsLiteral hint := by
  have hsame (level : Level) (s : String) :
      level.tag ++ " " ++ s = level.tag ++ " " ++ escape s ↔ IsLiteral s := by
    rw [String.append_right_inj, eq_comm, escape_eq_self_iff]
  rw [shown, literal]
  cases r.hint.filter (· ≠ "") with
  | none => simp [hsame, detailLine]
  | some hint => simp [hsame, detailLine]

namespace CommandLine

/-- Whatever a report tells and however the console is configured, its message, its details and its hint are
shown in this order, each in one line; an empty hint is none. The details are escaped: no tag is read in them,
and in their lines none but those of the line. The message and the hint are shown as they are, and their tags
are read. So all of the report is shown literally exactly if the message and the hint stand for themselves. -/
theorem reports_escape_details (r : Report) (verbosity : Int) (noColor : Bool) (w : World) :
    reportError r { w with console := .configure verbosity noColor } =
        (.ok (), { w with console := .configure verbosity noColor, trace := w.trace ++ r.shown }) ∧
      (r.shown = r.literal ↔ IsLiteral r.message ∧ ∀ hint ∈ r.hint.filter (· ≠ ""), IsLiteral hint) ∧
      (∀ detail, tags (Report.detailLine detail) =
        "dim" :: if closingSlashes detail % 2 = 0 then ["/dim"] else []) ∧
      (∀ message, tags (Level.error.tag ++ " " ++ message) = ["red", "/red"] ++ tags message) ∧
      ∀ hint, tags (Level.hint.tag ++ " " ++ hint) = ["cyan", "/cyan"] ++ tags hint := by
  exact ⟨reportError_apply (le_max_left _ _) r, r.shown_eq_literal_iff, Report.tags_detailLine,
    Report.tags_messageLine, Report.tags_hintLine⟩

/-- There is a configuration file already whose name is a tag in brackets, and a new one is to be made. The tag
is shown as a tag, and what is printed is not what escaping would have given. -/
theorem bracketed_path_is_read_as_tag :
    (run ["config", "init", "--config", "[b].yaml"]
        { configured [] with disk := ⟨[(["[b].yaml"], .file [] 0o644)]⟩ }).2.trace =
      [.line true "[red][ERROR][/red] Configuration file already exists: [b].yaml",
        .line false "[cyan]Hint:[/cyan] Use --force to overwrite"] ∧
      (Error.configPresent (.ofText "[b].yaml")).report.literal =
        [.line true "[red][ERROR][/red] Configuration file already exists: \\[b].yaml",
          .line false "[cyan]Hint:[/cyan] Use --force to overwrite"] ∧
      tags "[red][ERROR][/red] Configuration file already exists: [b].yaml" = ["red", "/red", "b"] ∧
      tags "[red][ERROR][/red] Configuration file already exists: \\[b].yaml" = ["red", "/red"] :=
  ⟨by rfl, by rfl, by decide +kernel, by decide +kernel⟩

end CommandLine

end CatalogSteward
