import TraceExplorer.Summary.Service
import TraceExplorer.Summary.Severity
import TraceExplorer.Tree.TraceTree

/-!
# The summary of a trace

Every span of a tree is looked at once. The summary has the extent of the trace in time, the
number of spans, the worst error, and the intervals of each service.
-/

namespace TraceExplorer

structure TraceSummary where
  traceId : Option Text
  timestamp : Int
  duration : Int
  spanCount : Nat
  errorType : ErrorType
  grouped : ServiceIntervals := []
  deriving DecidableEq, Repr

namespace TraceSummary

/-- Summarizes spans, given the verdict on their errors. A trace needs a timestamp other than
zero. -/
def ofSpans (spans : List Span) (errorType : ErrorType) : Except TraceError TraceSummary :=
  let traceId := spans.getLast?.map (·.traceId)
  match (instantsOf spans).min? with
  | none => .error (.timestampMissing (traceId.map (·.shown)))
  | some first =>
    .ok {
      traceId, errorType
      timestamp := first
      duration := extentLength (instantsOf spans)
      spanCount := spans.length
      grouped := .ofSpans spans }

def ofTree {σ : Type} (classify : Classifier σ) (t : TraceTree) :
    ExceptT Failure (StateM σ) TraceSummary := do
  let errorType ← classify.judge .none t.spans
  match ofSpans t.spans errorType with
  | .ok summary => return summary
  | .error e => throw (.reported e)

end TraceSummary

end TraceExplorer
