import CatalogSteward.Json.Basic
import CatalogSteward.Text.Case

/-!
# Redaction

A value under a key that hints at a secret is replaced as a whole, at any depth. All else stays as it
is.
-/

namespace CatalogSteward.Redaction

def replacement : Json := .str "***REDACTED***"

def markers : List String := ["password", "passwd", "secret", "token", "credential"]

def occursIn (word : List Char) : List Char → Bool
  | [] => word.isEmpty
  | c :: cs => word.isPrefixOf (c :: cs) || occursIn word cs

/-- Whether a key hints at a secret; its case does not count. -/
def isSensitive (key : String) : Bool :=
  let low := (Text.lower key).toList
  markers.any fun marker => occursIn marker.toList low

mutual

def redact : Json → Json
  | .object fields => .object (redactFields fields)
  | .list items => .list (redactItems items)
  | j => j

def redactItems : List Json → List Json
  | [] => []
  | j :: js => redact j :: redactItems js

def redactFields : List (String × Json) → List (String × Json)
  | [] => []
  | (k, j) :: fs => (k, if isSensitive k then replacement else redact j) :: redactFields fs

end

end CatalogSteward.Redaction
