import TraceExplorer.Failure
import TraceExplorer.Timeline.Row

/-!
# Zooming into a timeline

Rows are drawn again for a window of time: what lies outside is cut off, and the window takes the
full width. A row is highlighted if it overlaps the window.
-/

namespace TraceExplorer

open Number (Quantity ArithmeticError Scalar)

/-- The place of a node in a window of the timeline, in percent. -/
structure ZoomedRow (α : Type) where
  id : Text
  offset : α
  width : α
  highlighted : Bool
  deriving DecidableEq, Repr

inductive ZoomError (α : Type) where
  | invalidRange (first last : α)
  | alreadyActive
  | arithmetic (error : ArithmeticError)

def ZoomError.failure : ZoomError Scalar → Failure
  | invalidRange first last =>
    .reported (.zoomRangeInvalid (some (first.display ++ " >= " ++ last.display)))
  | alreadyActive => .reported (.zoomActive none)
  | arithmetic e => .arithmetic e

namespace Row

variable {α : Type} [Quantity α]

open Number.Quantity

def timeAt (percent duration : α) : Except ArithmeticError α := do
  let scaled ← mul percent duration
  div scaled (count 100)

def percentOfWindow (first last window : α) : Except ArithmeticError α := do
  let stretch ← sub last first
  let share ← div stretch window
  mul share (count 100)

def zoomTo (row : Row α) (duration first last : α) : Except ArithmeticError (ZoomedRow α) := do
  let window ← sub last first
  let start ← timeAt row.offset duration
  let length ← timeAt row.width duration
  let finish ← add start length
  if le last start then
    -- A row that starts exactly where the window ends still touches it.
    return ⟨row.id, level 100, level 0, le start last⟩
  else if le first start then
    let offset ← percentOfWindow first start window
    let width ← percentOfWindow start (if le finish last then finish else last) window
    return ⟨row.id, offset, width, true⟩
  else if le finish first then
    return ⟨row.id, level 0, level 0, false⟩
  else if le finish last then
    return ⟨row.id, level 0, ← percentOfWindow first finish window, true⟩
  else
    return ⟨row.id, level 0, level 100, true⟩

/-- The places of rows in the window from `first` to `last`, in times from the start of a trace
of the given duration. -/
def zoom (rows : List (Row α)) (first last duration : α) :
    Except (ZoomError α) (List (ZoomedRow α)) :=
  if le last first then .error (.invalidRange first last)
  else
    match rows.mapM fun row => row.zoomTo duration first last with
    | .ok zoomed => .ok zoomed
    | .error e => .error (.arithmetic e)

end Row

end TraceExplorer
