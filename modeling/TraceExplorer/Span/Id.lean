import TraceExplorer.Json.Value
import TraceExplorer.Text.Blank
import TraceExplorer.Text.Case

/-!
# Span ids

Ids are compared in lower case and padded with zeros to 16 characters, so that the spellings of
one hexadecimal number are one id. Longer ids are kept whole.
-/

namespace TraceExplorer

def idWidth : Nat := 16

/-- The canonical spelling of an id; a blank text is no id. -/
def canonicalId (s : Text) : Option Text :=
  let trimmed := Text.lower s.trim
  if trimmed.isEmpty then none else some (trimmed.padLeft '0' idWidth)

def normalizeId : Json.Value → Option Text
  | .null => none
  | v => canonicalId v.display

end TraceExplorer
