import TraceExplorer.Host.Basic
import TraceExplorer.Json.Reader
import TraceExplorer.Span.Reader
import TraceExplorer.Text.Lines

/-!
# Loading traces

A file holds one trace, as a list of spans, or many, as a list of such lists. A file whose name
ends in `.jsonl` holds one value on each line. In a list that is not made of lists only, the spans
are grouped by trace id.
-/

namespace TraceExplorer

open Json (Value)

inductive LoadFault where
  | notJson (path : String) (line : Option Nat) (fault : Json.Fault)
  | notAList (kind : String)
  | notOneTrace (path : String) (count : Nat)
  | badSpan (fault : SpanFault)

namespace LoadFault

def failure : LoadFault → Failure
  | notJson path line fault =>
    match fault.failure, line with
    | .notJson reason, none =>
      .reported (.spanInvalid (some (path ++ ": invalid JSON: " ++ reason)))
    | .notJson reason, some line =>
      .reported (.spanInvalid (some (path ++ ":" ++ toString line ++ ": invalid JSON: " ++ reason)))
    | failure, _ => failure
  | notAList kind => .reported (.spanInvalid (some ("expected a list of spans, got " ++ kind)))
  | notOneTrace path count =>
    .reported (.spanInvalid (some (path ++ ": expected one trace, found " ++ toString count)))
  | badSpan fault => fault.failure

end LoadFault

namespace Trace

def readSpan (v : Value) : Except LoadFault Span := (Span.ofJson v).mapError .badSpan

/-- Adds a span to the trace of its trace id; a new id starts a trace at the end. -/
def addToTrace : List (List Span) → Span → List (List Span)
  | [], s => [[s]]
  | trace :: rest, s =>
    if trace.head?.map (·.traceId) = some s.traceId then (trace ++ [s]) :: rest
    else trace :: addToTrace rest s

def groupByTraceId (spans : List Span) : List (List Span) := spans.foldl addToTrace []

def items? : Value → Option (List Value)
  | .list items => some items
  | _ => none

def ofItems (items : List Value) : Except LoadFault (List (List Span)) :=
  match items.mapM items? with
  | some traces => traces.mapM fun trace => trace.mapM readSpan
  | none => (items.mapM readSpan).map groupByTraceId

def ofJson : Value → Except LoadFault (List (List Span))
  | .object fields => ofItems [.object fields]
  | .list items => ofItems items
  | v => .error (.notAList v.kindName)

/-- The JSON values on the lines of a text, starting at the given line number. Blank lines hold
none. -/
def readLines (path : String) : Nat → List String → Except LoadFault (List Value)
  | _, [] => .ok []
  | number, line :: rest =>
    let trimmed := Text.trim line
    if trimmed.isEmpty then readLines path (number + 1) rest
    else
      match Json.read trimmed with
      | .error fault => .error (.notJson path (some number) fault)
      | .ok v => (readLines path (number + 1) rest).map (v :: ·)

def linesExtension : String := ".jsonl"

def ofText (path : Host.Path) (text : String) : Except LoadFault (List (List Span)) :=
  if path.extension = linesExtension then do
    let items ← readLines path.text 1 (Text.fullLines text)
    ofJson (.list items)
  else
    match Json.read text with
    | .error fault => .error (.notJson path.text none fault)
    | .ok v => ofJson v

def loadAll (h : Host) (path : Host.Path) : Except Failure (List (List Span)) := do
  let text ← h.readText path
  (ofText path text).mapError (·.failure)

/-- Loads the trace in a file that must hold exactly one. -/
def loadOne (h : Host) (path : Host.Path) : Except Failure (List Span) := do
  let traces ← loadAll h path
  match traces with
  | [trace] => return trace
  | _ => throw (LoadFault.notOneTrace path.text traces.length).failure

end Trace

end TraceExplorer
