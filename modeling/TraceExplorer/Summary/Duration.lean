import TraceExplorer.Number.Quantity
import TraceExplorer.Trace.Extent

/-!
# Durations as text

A duration in microseconds is written in microseconds below a millisecond, in milliseconds below
a second, and else in seconds. Whole milliseconds are written without places, as many clocks
measure no finer.
-/

namespace TraceExplorer

open Number (Scalar ArithmeticError)

def Number.Scalar.isMultipleOfThousand (x : Scalar) : Bool :=
  match x.exact.value? with
  | some q => (q / 1000).den == 1
  | none => false

/-- The text of a duration; none for a duration of zero. -/
def durationText (duration : Scalar) : Except ArithmeticError String :=
  if duration.isZero then .ok ""
  else if duration.lt (.whole 1000) then do
    return (← duration.toFixed 0) ++ "μs"
  else if duration.lt (.whole 1000000) then do
    let milliseconds ← duration.div (.whole 1000)
    return (← milliseconds.toFixed (if duration.isMultipleOfThousand then 0 else 3)) ++ "ms"
  else do
    let seconds ← duration.div (.whole 1000000)
    return (← seconds.toFixed 3) ++ "s"

def optionalDurationText : Option Scalar → Except ArithmeticError String
  | none => .ok ""
  | some duration => durationText duration

end TraceExplorer
