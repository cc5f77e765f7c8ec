/-!
# Ranges of code points

A property of characters is given as a sorted list of closed ranges of code points.
-/

namespace TraceExplorer.Text

/-- A closed range of code points, first and last. -/
abbrev CodeRange := Nat × Nat

/-- Some range of a sorted list holds the code point. -/
def CodeRange.cover : List CodeRange → Nat → Bool
  | [], _ => false
  | (first, last) :: rest, code => if code ≤ last then first ≤ code else cover rest code

end TraceExplorer.Text
