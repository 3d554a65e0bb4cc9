import CatalogSteward.Markup

/-!
# The console

Status lines carry the tag of their level and are printed when the verbosity reaches it. Errors and
warnings go to the error stream, all else to the output.
-/

namespace CatalogSteward

inductive Level where
  | error
  | warn
  | info
  | success
  | step
  | hint
  | verbose
  | debug
  deriving DecidableEq, Repr

namespace Level

def tag : Level → String
  | error => "[red][ERROR][/red]"
  | warn => "[yellow][WARN][/yellow]"
  | info => "[green][INFO][/green]"
  | success => "[green][OK][/green]"
  | step => "[blue]->[/blue]"
  | hint => "[cyan]Hint:[/cyan]"
  | verbose => "[dim][VERBOSE][/dim]"
  | debug => "[cyan][DEBUG][/cyan]"

def threshold : Level → Int
  | error | warn | hint => 0
  | info | success | step => 1
  | verbose => 2
  | debug => 3

def toErrors : Level → Bool
  | error | warn => true
  | _ => false

end Level

/-- How much is printed, from 0 to 3, and whether in colour. -/
structure Console where
  verbosity : Int
  noColor : Bool
  deriving DecidableEq, Repr

namespace Console

def start : Console := ⟨1, false⟩

def leastVerbosity : Int := 0
def greatestVerbosity : Int := 3

def configure (verbosity : Int) (noColor : Bool) : Console :=
  ⟨max leastVerbosity (min verbosity greatestVerbosity), noColor⟩

def shows (c : Console) (level : Level) : Bool := level.threshold ≤ c.verbosity

def confirmation (message : String) (default : Bool) : String :=
  message ++ " " ++ Markup.escape (if default then "[Y/n]" else "[y/N]") ++ ": "

def summary (items : List (String × Option String)) : String :=
  "\n".intercalate (items.map fun item =>
    "[bold]" ++ item.1 ++ ":[/bold] " ++ item.2.getD "[dim]-[/dim]")

def padRow (width : Nat) (row : List String) : List String :=
  row ++ List.replicate (width - row.length) ""

/-- The columns and rows of a table: short rows are filled up, and a row that is too long adds columns
without a title. -/
def tableCells (columns : List String) (rows : List (List String)) : List String × List (List String) :=
  let width := rows.foldl (fun w row => max w row.length) columns.length
  (padRow width columns, rows.map (padRow width))

end Console

end CatalogSteward
