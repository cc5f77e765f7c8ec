import TraceExplorer.Number.Quantity
import TraceExplorer.Trace.Extent
import TraceExplorer.Tree.TraceTree

/-!
# Rows of a timeline

Each node of a tree has a row, drawn from its earliest timestamp to the latest end of its spans.
Places are percentages of the whole trace. The computation is the same for any kind of number;
over the rationals it is exact.
-/

namespace TraceExplorer

open Number (Quantity ArithmeticError)

/-- The place of a node on the timeline, in percent. -/
structure Row (α : Type) where
  id : Text
  offset : α
  width : α
  deriving DecidableEq, Repr

namespace SpanGroup

/-- The ends of the spans that have a timestamp and a duration. -/
def ends (g : SpanGroup) : List Int :=
  g.spans.filterMap fun s =>
    match s.timestamp, s.duration.filter (· != 0) with
    | some start, some d => some (start + d)
    | _, _ => none

/-- The latest end of a group that starts at the given time. -/
def endAfter (g : SpanGroup) (start : Int) : Int := g.ends.max?.getD start

end SpanGroup

namespace Row

variable {α : Type} [Quantity α]

def percentOf (part whole : Int) : Except ArithmeticError α := do
  let share ← Quantity.div (Quantity.count part : α) (Quantity.count whole)
  Quantity.mul share (Quantity.count 100)

/-- The row of a node, given the start and the length of the trace. A node without a timestamp,
and any node of a trace without length, lies at the left edge. -/
def ofGroup (traceStart traceLength : Int) (g : SpanGroup) : Except ArithmeticError (Row α) :=
  match g.timestamp with
  | none => .ok ⟨g.id, Quantity.level 0, Quantity.level 0⟩
  | some start =>
    if traceLength = 0 then .ok ⟨g.id, Quantity.level 0, Quantity.level 0⟩
    else do
      let offset ← percentOf (start - traceStart) traceLength
      let width ← percentOf (g.endAfter start - start) traceLength
      return ⟨g.id, offset, width⟩

def layout (t : TraceTree) : Except ArithmeticError (List (Row α)) :=
  let instants := instantsOf t.spans
  t.nodes.mapM (ofGroup (instants.min?.getD 0) (extentLength instants))

end Row

end TraceExplorer
