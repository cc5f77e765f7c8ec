import TraceExplorer.Span.Basic

/-!
# Writing spans

Writes a span as a JSON object. Fields without a value are left out.
-/

namespace TraceExplorer

open Json (Value)

def Endpoint.toJson (e : Endpoint) : Value :=
  .object
    ((e.service?.map fun name => Value.field "serviceName" (.text name)).toList ++
      (if e.ip.isTruthy then [Value.field "ipv4" e.ip] else []) ++
      ((e.port.filter (· != 0)).map fun port => Value.field "port" (.whole port)).toList)

def Annotation.toJson (a : Annotation) : Value :=
  .object [("timestamp", .whole a.timestamp), ("value", .text a.value)]

namespace Span

/-- The fields of a span that have a value, in the order in which they are written. -/
def toFields (s : Span) : List (Text × Value) :=
  [Value.field "traceId" (.text s.traceId), Value.field "id" (.text s.id)] ++
    (s.declaredParent?.map fun parent => Value.field "parentId" (.text parent)).toList ++
    (if s.kind = .none then [] else [Value.field "kind" (.text s.kind.name)]) ++
    (if s.name.isTruthy then [Value.field "name" s.name] else []) ++
    (s.timestamp.map fun t => Value.field "timestamp" (.whole t)).toList ++
    (s.duration.map fun d => Value.field "duration" (.whole d)).toList ++
    (s.localEndpoint.map fun e => Value.field "localEndpoint" e.toJson).toList ++
    (s.remoteEndpoint.map fun e => Value.field "remoteEndpoint" e.toJson).toList ++
    (if s.annotations.isEmpty then []
      else [Value.field "annotations" (.list (s.annotations.map (·.toJson)))]) ++
    (if s.tags.isEmpty then []
      else [Value.field "tags" (.object (s.tags.map fun (name, v) => (name, .text v)))]) ++
    (if s.shared then [Value.field "shared" (.bool true)] else [])

def toJson (s : Span) : Value := .object s.toFields

end Span

end TraceExplorer
