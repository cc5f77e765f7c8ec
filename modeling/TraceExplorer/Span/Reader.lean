import TraceExplorer.Failure
import TraceExplorer.Number.Numeral
import TraceExplorer.Span.Basic
import TraceExplorer.Span.Id

/-!
# Reading spans

Reads a span from a decoded JSON object. Numbers may be given as doubles, which are cut to whole
numbers, or as numerals in a string. The first fault found is the one reported.
-/

namespace TraceExplorer

open Json (Value)

inductive SpanFault where
  | notAnObject (kind : String)
  | idMissing
  | kindUnknown (v : Value)
  | notAnInteger (field : String) (v : Value)
  | durationNegative (n : Int)
  | annotationNotAnObject (kind : String)
  /-- An infinite double has no whole part. -/
  | integerInfinite
  | annotationsNotIterable
  | tagsNotAnObject
  | endpointNotAnObject

namespace SpanFault

/-- The wording of a fault that is reported as invalid span data; other faults have none. -/
def message? : SpanFault → Option String
  | notAnObject kind => some ("span must be an object, got " ++ kind)
  | idMissing => some "span requires both traceId and id"
  | kindUnknown v => some ("unknown span kind " ++ v.quoted)
  | notAnInteger field v => some (field ++ " must be an integer, got " ++ v.quoted)
  | durationNegative n => some ("duration must not be negative, got " ++ toString n)
  | annotationNotAnObject kind => some ("annotation must be an object, got " ++ kind)
  | integerInfinite | annotationsNotIterable | tagsNotAnObject | endpointNotAnObject => none

def failure (fault : SpanFault) : Failure :=
  match fault with
  | integerInfinite => .arithmetic .overflow
  | annotationsNotIterable => .notIterable
  | tagsNotAnObject | endpointNotAnObject => .noFields
  | _ => .reported (.spanInvalid fault.message?)

end SpanFault

namespace Span

def fieldOf (fields : List (Text × Value)) (name : Text) : Value :=
  (Value.field? fields name).getD .null

/-- Reads the whole number in a field; null and the empty string are no number. -/
def readIntegerField (fields : List (Text × Value)) (name : String) :
    Except SpanFault (Option Int) :=
  let v := fieldOf fields name
  let refused : Except SpanFault (Option Int) := .error (.notAnInteger name v)
  match v with
  | .null => .ok none
  | .bool b => .ok (some (if b then 1 else 0))
  | .number (.whole n) => .ok (some n)
  | .number (.real (.infinite _)) => .error .integerInfinite
  | .number (.real x) =>
    match x.truncate? with
    | some n => .ok (some n)
    | none => refused
  | .text s =>
    if s.isEmpty then .ok none
    else
      match Number.readInteger? s with
      | some n => .ok (some n)
      | none => refused
  | .list _ | .object _ => refused

/-- The first of three values that counts as present, or else the last. -/
def firstPresent (a b c : Value) : Value :=
  if a.isTruthy then a else if b.isTruthy then b else c

/-- Reads an endpoint; a value that does not count as present is none. -/
def readEndpoint (v : Value) : Except SpanFault (Option Endpoint) :=
  if !v.isTruthy then .ok none
  else
    match v with
    | .object fields => do
      let service := fieldOf fields "serviceName"
      let port ← readIntegerField fields "port"
      return some {
        serviceName := if service.isTruthy then some (Text.lower service.display) else none
        ip := firstPresent (fieldOf fields "ipv4") (fieldOf fields "ipv6") (fieldOf fields "ip")
        port := port.filter (· != 0) }
    | _ => .error .endpointNotAnObject

def readAnnotation : Value → Except SpanFault Annotation
  | .object fields => do
    let timestamp ← readIntegerField fields "timestamp"
    let value := match Value.field? fields "value" with
      | some v => v.display
      | none => Text.empty
    return { timestamp := timestamp.getD 0, value := value }
  | v => .error (.annotationNotAnObject v.kindName)

/-- The values that going through a value yields: items, code points, or names of fields. -/
def iterate? : Value → Option (List Value)
  | .list items => some items
  | .text s => some (s.points.map fun p => .text ⟨[p]⟩)
  | .object fields => some (fields.map fun (name, _) => .text name)
  | _ => none

def readAnnotations (v : Value) : Except SpanFault (List Annotation) :=
  if !v.isTruthy then .ok []
  else
    match iterate? v with
    | some items => items.mapM readAnnotation
    | none => .error .annotationsNotIterable

/-- Reads the tags of a span; every value becomes its text. -/
def readTags (v : Value) : Except SpanFault (List (Text × Text)) :=
  if !v.isTruthy then .ok []
  else
    match v with
    | .object fields => .ok (fields.map fun (name, w) => (name, w.display))
    | _ => .error .tagsNotAnObject

/-- Reads the kind of a span; a value that does not count as present is no kind. -/
def readKind (v : Value) : Except SpanFault Kind :=
  if !v.isTruthy then .ok .none
  else
    match Kind.ofName? (Text.upper v.display) with
    | some kind => .ok kind
    | none => .error (.kindUnknown v)

def readDuration (fields : List (Text × Value)) : Except SpanFault (Option Int) := do
  let duration ← readIntegerField fields "duration"
  match duration with
  | some n => if n < 0 then .error (.durationNegative n) else .ok duration
  | none => .ok none

/-- Reads a span from the fields of an object. A span that names itself as its parent is a
root. -/
def ofFields (fields : List (Text × Value)) : Except SpanFault Span :=
  match normalizeId (fieldOf fields "id"), normalizeId (fieldOf fields "traceId") with
  | some id, some traceId => do
    let kind ← readKind (fieldOf fields "kind")
    let duration ← readDuration fields
    let annotations ← readAnnotations (fieldOf fields "annotations")
    let tags ← readTags (fieldOf fields "tags")
    let parentId := (normalizeId (fieldOf fields "parentId")).filter (· != id)
    let timestamp ← readIntegerField fields "timestamp"
    let localEndpoint ← readEndpoint (fieldOf fields "localEndpoint")
    let remoteEndpoint ← readEndpoint (fieldOf fields "remoteEndpoint")
    return {
      traceId, id, parentId, kind, timestamp, duration, localEndpoint, remoteEndpoint,
      annotations, tags
      name := fieldOf fields "name"
      shared := (fieldOf fields "shared").isTruthy }
  | _, _ => .error .idMissing

def ofJson : Value → Except SpanFault Span
  | .object fields => ofFields fields
  | v => .error (.notAnObject v.kindName)

end Span

end TraceExplorer
