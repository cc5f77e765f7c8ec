import TraceExplorer.Summary.Duration

/-!
# Service intervals

For each service of a trace, the stretches of time in which its spans ran. The time covered by
several stretches counts overlaps once.
-/

namespace TraceExplorer

/-- A stretch of time from a timestamp on, in microseconds. -/
structure Interval where
  timestamp : Int
  duration : Int
  deriving DecidableEq, Repr

namespace Interval

/-- The first microsecond after the interval. -/
def finish (i : Interval) : Int := i.timestamp + i.duration

/-- Extends the time covered up to `reach` by an interval that starts no earlier than the ones
before it. Yields the time covered and how far it reaches. -/
def extend (covered : Int × Int) (i : Interval) : Int × Int :=
  let (total, reach) := covered
  if i.finish ≤ reach then covered
  else if i.timestamp ≤ reach then (total + (i.finish - reach), i.finish)
  else (total + i.duration, i.finish)

/-- The time covered by some intervals, overlaps counted once. Intervals without a duration cover
nothing. -/
def totalDuration (intervals : List Interval) : Int :=
  match (intervals.filter (·.duration != 0)).mergeSort fun a b => a.timestamp ≤ b.timestamp with
  | [] => 0
  | first :: rest => (rest.foldl extend (first.duration, first.finish)).1

end Interval

/-- The intervals of each service, in the order in which the services first appear. -/
abbrev ServiceIntervals := List (Text × List Interval)

namespace ServiceIntervals

/-- Adds an interval to a service; a new service comes last. -/
def insert : ServiceIntervals → Text → Interval → ServiceIntervals
  | [], service, i => [(service, [i])]
  | (name, is) :: rest, service, i =>
    if name = service then (name, is ++ [i]) :: rest else (name, is) :: insert rest service i

/-- Adds a span to the services at both its ends. A span with the same service at both ends
counts twice. -/
def addSpan (grouped : ServiceIntervals) (s : Span) : ServiceIntervals :=
  let i : Interval := ⟨s.timestamp.getD 0, s.length⟩
  (s.endpoints.filterMap (·.service?)).foldl (fun grouped service => grouped.insert service i)
    grouped

def ofSpans (spans : List Span) : ServiceIntervals := spans.foldl addSpan []

end ServiceIntervals

structure ServiceSummary where
  serviceName : Text
  spanCount : Nat
  maxSpanDuration : Int
  deriving DecidableEq, Repr

namespace ServiceSummary

/-- The longer service comes first; services of the same length are ordered by name. -/
def le (a b : ServiceSummary) : Bool :=
  b.maxSpanDuration < a.maxSpanDuration ||
    (a.maxSpanDuration == b.maxSpanDuration && a.serviceName ≤ b.serviceName)

def ofIntervals? (service : Text × List Interval) : Option ServiceSummary :=
  (service.2.map (·.duration)).max?.map fun longest => ⟨service.1, service.2.length, longest⟩

def all (grouped : ServiceIntervals) : List ServiceSummary :=
  (grouped.filterMap ofIntervals?).mergeSort le

def maxDurationText (s : ServiceSummary) : Except Number.ArithmeticError String :=
  durationText (.whole s.maxSpanDuration)

end ServiceSummary

end TraceExplorer
