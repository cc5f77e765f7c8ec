import TraceExplorer.Schema.Basic

/-!
# The schema of spans

What the fields of a span may hold. Fields that are not named here may hold anything.
-/

namespace TraceExplorer.Schema

def textSchema : List Keyword := [.type [.string]]

def endpointSchema : List Keyword :=
  [.type [.object],
    .properties [
      ("serviceName", textSchema),
      ("ipv4", textSchema),
      ("ipv6", textSchema),
      ("port", [.type [.integer], .minimum 0, .maximum 65535])]]

def annotationSchema : List Keyword :=
  [.type [.object],
    .required ["timestamp", "value"],
    .properties [("timestamp", [.type [.integer]]), ("value", textSchema)]]

def spanSchema : List Keyword :=
  [.type [.object],
    .required ["traceId", "id"],
    .properties [
      ("traceId", [.type [.string], .pattern ⟨1, 32⟩]),
      ("id", [.type [.string], .pattern ⟨1, 16⟩]),
      ("parentId", [.type [.string, .null], .pattern ⟨0, 16⟩]),
      ("name", textSchema),
      ("kind", [.oneOf ["CLIENT", "SERVER", "PRODUCER", "CONSUMER"]]),
      ("timestamp", [.type [.integer], .minimum 0]),
      ("duration", [.type [.integer], .minimum 0]),
      ("debug", [.type [.boolean]]),
      ("shared", [.type [.boolean]]),
      ("localEndpoint", endpointSchema),
      ("remoteEndpoint", endpointSchema),
      ("annotations", [.type [.array], .items annotationSchema]),
      ("tags", [.type [.object], .otherProperties textSchema])]]

end TraceExplorer.Schema
