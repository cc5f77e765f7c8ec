import TraceExplorer.Timeline.Markers
import TraceExplorer.Timeline.Zoom

/-!
# A timeline that can be zoomed

A timeline keeps its rows and the window that is shown. While a window is shown no other one can
be selected; zooming out shows the rows as they were laid out.
-/

namespace TraceExplorer

open Number (Quantity Scalar ArithmeticError)

structure Mapper (α : Type) where
  rows : List (Row α)
  duration : α
  window : Option (α × α) := none
  deriving Repr

namespace Mapper

variable {α : Type} [Quantity α]

def ofTree (t : TraceTree) : Except ArithmeticError (Mapper α) := do
  let rows ← Row.layout t
  return { rows, duration := Quantity.count (extentLength (instantsOf t.spans)) }

def isZoomed (m : Mapper α) : Bool := m.window.isSome

def selectionEnabled (m : Mapper α) : Bool := m.window.isNone

/-- Shows a window, unless one is shown. -/
def zoom (m : Mapper α) (first last : α) :
    Except (ZoomError α) (List (ZoomedRow α) × Mapper α) :=
  if m.isZoomed then .error .alreadyActive
  else do
    let rows ← Row.zoom m.rows first last m.duration
    return (rows, { m with window := some (first, last) })

def zoomOut (m : Mapper α) : List (Row α) × Mapper α := (m.rows, { m with window := none })

def bounds (m : Mapper α) : α × α := m.window.getD (Quantity.count 0, m.duration)

def markers (m : Mapper Scalar) : Except ArithmeticError (List String) :=
  timeMarkers m.bounds.1 m.bounds.2

end Mapper

end TraceExplorer
