import TraceExplorer.Number.Quantity

/-!
# Selecting a window with the pointer

A rectangle dragged over the timeline selects a window of time. What lies left of the timeline is
cut off, and a rectangle without width selects nothing.
-/

namespace TraceExplorer

open Number (Quantity ArithmeticError)

structure PixelSpan (α : Type) where
  left : α
  width : α
  deriving DecidableEq, Repr

namespace PixelSpan

variable {α : Type} [Quantity α]

open Number.Quantity

def clipLeft (selection : PixelSpan α) (edge : α) : Except ArithmeticError (PixelSpan α) :=
  if lt selection.left edge then do
    let outside ← sub edge selection.left
    let width ← sub selection.width outside
    return ⟨edge, width⟩
  else .ok selection

/-- The window of time under a selection, for a timeline drawn over the given view. -/
def toWindow? (selection view : PixelSpan α) (duration : α) :
    Except ArithmeticError (Option (α × α)) := do
  let clipped ← selection.clipLeft view.left
  let scale ← div duration view.width
  let fromEdge ← sub clipped.left view.left
  let first ← mul fromEdge scale
  let right ← add clipped.left clipped.width
  let rightFromEdge ← sub right view.left
  let last ← mul rightFromEdge scale
  return if le last first then none else some (first, last)

end PixelSpan

end TraceExplorer
