import TraceExplorer.Summary.Ranking

/-!
# Summarizing a batch of traces

Each trace of a batch is summarized for itself. A trace that cannot be summarized is skipped and
reported; the others are ranked.
-/

namespace TraceExplorer

abbrev SkewCorrection := List Span → Except Failure (List Span)

/-- A trace that could not be summarized, by the trace id of its first span. -/
structure SkippedTrace where
  traceId : Option Text
  failure : Failure
  deriving DecidableEq, Repr

def SkippedTrace.logText (s : SkippedTrace) : String :=
  "Skipping trace " ++ (s.traceId.map (·.shown)).getD "None" ++ ": " ++ s.failure.logText

structure Outcome where
  traceId : Option Text
  notes : List BuildNote := []
  result : Except Failure TraceSummary

/-- What came of a batch: the notes on the trees, the traces skipped, and the ranked rows. -/
structure Batch where
  notes : List BuildNote
  skipped : List SkippedTrace
  items : Except Failure (List TraceListItem)

namespace Outcome

/-- The tree of a trace after its clocks were corrected; a trace needs a span. -/
def treeOf (correct : SkewCorrection) (spans : List Span) : Except Failure TraceTree :=
  if spans.isEmpty then .error (.reported (.traceEmpty none))
  else do
    let corrected ← correct spans
    TraceTree.build corrected

def ofSpans {σ : Type} (correct : SkewCorrection) (classify : Classifier σ)
    (spans : List Span) : StateM σ Outcome := do
  let traceId := spans.head?.map (·.traceId)
  match treeOf correct spans with
  | .error failure => return { traceId, result := .error failure }
  | .ok tree =>
    let result ← (TraceSummary.ofTree classify tree).run
    return { traceId, notes := tree.notes, result }

def skipped? (o : Outcome) : Option SkippedTrace :=
  match o.result with
  | .error failure => some ⟨o.traceId, failure⟩
  | .ok _ => none

def summary? (o : Outcome) : Option TraceSummary := o.result.toOption

end Outcome

namespace Batch

def ofOutcomes (options : ListOptions) (outcomes : List Outcome) : Batch where
  notes := outcomes.flatMap (·.notes)
  skipped := outcomes.filterMap (·.skipped?)
  items := TraceListItem.rank options (outcomes.filterMap (·.summary?))

def summarize {σ : Type} (options : ListOptions) (correct : SkewCorrection)
    (classify : Classifier σ) (traces : List (List Span)) : StateM σ Batch := do
  let outcomes ← traces.mapM (Outcome.ofSpans correct classify)
  return ofOutcomes options outcomes

/-- Summarizes and ranks a batch of traces as they are, with the usual classifier. -/
def ofTraces (options : ListOptions) (traces : List (List Span)) : Batch :=
  (summarize options Except.ok (Classifier.standard (σ := Unit)) traces).run ()
    |>.1

end Batch

end TraceExplorer
