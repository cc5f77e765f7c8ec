import TraceExplorer.Calendar.Stamp
import TraceExplorer.Summary.Trace

/-!
# Ranking traces

Summaries become the rows of a list, the longest trace first and traces of the same length by id.
A row shows the length of a trace as a share of the longest one, and how much of it was spent in a
chosen service.
-/

namespace TraceExplorer

open Number (Double Scalar ArithmeticError)
open Json (Value)

/-- A row of the list of traces. Only a trace with a duration has a width and texts for it. -/
structure TraceListItem where
  traceId : Text
  timestamp : Int
  startText : String
  spanCount : Nat
  duration : Int := 0
  width : Option Int := none
  milliseconds : Option Double := none
  durationText : String := ""
  services : List ServiceSummary := []
  servicePercentage : Option Int := none
  errorClass : Option String := none
  deriving DecidableEq, Repr

structure ListOptions where
  serviceName : Option Text := none
  utc : Bool := false
  zone : Calendar.Zone := .utc

/-- The share of a part in a whole in percent, computed in doubles and cut to a whole number. -/
def percentage (part whole : Int) : Except ArithmeticError Int := do
  let share ← (Scalar.whole part).div (.whole whole)
  let percent ← share.mul (.whole 100)
  match percent.exact.truncate? with
  | some n => return n
  | none => throw .overflow

namespace TraceListItem

/-- The longer trace comes first; traces of the same length are ordered by id. -/
def le (a b : TraceListItem) : Bool :=
  b.duration < a.duration || (a.duration == b.duration && a.traceId ≤ b.traceId)

def chosenIntervals? (options : ListOptions) (s : TraceSummary) : Option (List Interval) := do
  let service ← options.serviceName.filter (!·.isEmpty)
  (s.grouped.lookup service).filter (!·.isEmpty)

/-- Adds what a row shows of a duration other than zero. -/
def withDuration (item : TraceListItem) (duration longest : Int) :
    Except ArithmeticError TraceListItem := do
  let width ← percentage duration longest
  let milliseconds ← Double.ofQuotient duration 1000
  let text ← TraceExplorer.durationText (.whole duration)
  return { item with duration, width := some width, milliseconds := some milliseconds,
                     durationText := text }

def shareOfService (options : ListOptions) (s : TraceSummary) :
    Except ArithmeticError (Option Int) :=
  match chosenIntervals? options s with
  | some intervals =>
    if s.duration = 0 then .ok none
    else (percentage (Interval.totalDuration intervals) s.duration).map some
  | none => .ok none

def ofSummary (options : ListOptions) (longest : Int) (s : TraceSummary) :
    Except Failure TraceListItem := do
  let startText ← Calendar.formatStamp s.timestamp options.utc options.zone
  let item : TraceListItem := {
    traceId := s.traceId.getD ""
    timestamp := s.timestamp
    startText
    spanCount := s.spanCount
    services := ServiceSummary.all s.grouped
    errorClass :=
      if s.errorType = .none then none else some ("trace-error-" ++ s.errorType.name) }
  let timed ← liftArithmetic
    (if s.duration = 0 then .ok item else item.withDuration s.duration longest)
  let servicePercentage ← liftArithmetic (shareOfService options s)
  return { timed with servicePercentage }

def rank (options : ListOptions) (summaries : List TraceSummary) :
    Except Failure (List TraceListItem) := do
  let longest := (summaries.map (·.duration)).max?.getD 0
  let items ← summaries.mapM (ofSummary options longest)
  return items.mergeSort le

/-! ## JSON -/

def textOrNull : Option String → Value
  | some s => .text s
  | none => .null

def wholeOrNull : Option Int → Value
  | some n => .whole n
  | none => .null

def serviceToJson (s : ServiceSummary) : Except ArithmeticError Value := do
  let longest ← s.maxDurationText
  return .object [("service_name", .text s.serviceName), ("span_count", .whole s.spanCount),
    ("max_span_duration_str", .text longest)]

def toJson (item : TraceListItem) : Except ArithmeticError Value := do
  let services ← item.services.mapM serviceToJson
  return .object [
    ("trace_id", .text item.traceId),
    ("timestamp", .whole item.timestamp),
    ("start_ts", .text item.startText),
    ("span_count", .whole item.spanCount),
    ("duration_us", .whole item.duration),
    ("width", wholeOrNull item.width),
    ("duration_ms", (item.milliseconds.map fun x => Value.number (.real x)).getD .null),
    ("duration_str", .text item.durationText),
    ("service_summaries", .list services),
    ("service_percentage", wholeOrNull item.servicePercentage),
    ("info_class", textOrNull item.errorClass)]

end TraceListItem

end TraceExplorer
