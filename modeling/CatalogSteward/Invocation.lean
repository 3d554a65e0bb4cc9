import CatalogSteward.Console
import CatalogSteward.Settings.File

/-!
# Invocations

What one invocation of the program was asked for besides its task: whether to ask back, how much to
print and how, and where the configuration is.
-/

namespace CatalogSteward

structure Invocation where
  yes : Bool
  verbosity : Int
  noColor : Bool
  configPath : Path
  deriving DecidableEq, Repr

namespace Invocation

/-- An invocation with the given options. To be quiet wins over any wish for more output, and of that
only so much counts as can be had. -/
def ofOptions (yes : Bool) (verbose : Int) (quiet noColor : Bool) (config : Option Path) :
    Invocation where
  yes := yes
  verbosity :=
    if quiet then Console.leastVerbosity
    else min (Console.start.verbosity + verbose) Console.greatestVerbosity
  noColor := noColor
  configPath := config.getD Settings.defaultPath

def console (i : Invocation) : Console := .configure i.verbosity i.noColor

def isVerbose (i : Invocation) : Bool := Level.verbose.threshold ≤ i.verbosity

def shouldConfirm (i : Invocation) : Bool := !i.yes

end Invocation

end CatalogSteward
