import TraceExplorer.Number.Quantity

/-!
# Time markers

Evenly spaced labels along the time axis of a window, with two places.
-/

namespace TraceExplorer

open Number (Scalar ArithmeticError)

def markerCount : Int := 6

def markerLabel (first step : Scalar) (steps : Nat) : Except ArithmeticError String := do
  let distance ← step.mul (.whole steps)
  let time ← first.add distance
  time.toFixed 2

def timeMarkers (first last : Scalar) (count : Int := markerCount) :
    Except ArithmeticError (List String) := do
  let span ← last.sub first
  let step ← span.div (.whole (count - 1))
  (List.range count.toNat).mapM (markerLabel first step)

end TraceExplorer
