import TraceExplorer.Span.Basic

/-!
# The extent of a trace in time

A trace reaches from its earliest to its latest instant. A span adds its start, and its end if it
has a duration; a span without a start, or starting at zero, adds nothing.
-/

namespace TraceExplorer

def Span.instants (s : Span) : List Int :=
  match s.startTime? with
  | none => []
  | some start =>
    match s.duration.filter (· != 0) with
    | none => [start]
    | some d => [start, start + d]

def extentLength (instants : List Int) : Int :=
  match instants.max?, instants.min? with
  | some last, some first => last - first
  | _, _ => 0

def instantsOf (spans : List Span) : List Int := spans.flatMap (·.instants)

end TraceExplorer
