/-!
# Reference counts

A counter that never goes below zero.
-/

namespace TraceExplorer

structure RefCount where
  value : Nat := 0
  deriving DecidableEq, Repr, Inhabited

namespace RefCount

def increment (c : RefCount) : RefCount := ⟨c.value + 1⟩

/-- Counts one less, unless the count is zero. -/
def decrement (c : RefCount) : RefCount := ⟨c.value - 1⟩

def isPositive (c : RefCount) : Bool := 0 < c.value

def reset (_ : RefCount) : RefCount := {}

def text (c : RefCount) : String := s!"RefCount({c.value})"

end RefCount

end TraceExplorer
