import TraceExplorer.Span.Basic

/-!
# Traces

A trace is an ordered list of spans that share a trace id. Spans without a timestamp come after
all others.
-/

namespace TraceExplorer

/-- The earlier of two optional times comes first; no time comes last. -/
def timeLe : Option Int → Option Int → Bool
  | some a, some b => a ≤ b
  | none, some _ => false
  | _, none => true

structure Trace where
  spans : List Span

namespace Trace

/-- The spans in the order of their timestamps; spans at the same time keep their order. -/
def ofSpans (spans : List Span) : Trace :=
  ⟨spans.mergeSort fun a b => timeLe a.timestamp b.timestamp⟩

def traceId? (t : Trace) : Option Text := t.spans.head?.map (·.traceId)

end Trace

end TraceExplorer
