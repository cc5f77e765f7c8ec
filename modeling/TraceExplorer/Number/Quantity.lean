import TraceExplorer.Number.Scalar

/-!
# Quantities

The timeline computes on any kind of number with the four operations and an order. Programs use
scalars, which round; the same formulas over the rationals are exact.
-/

namespace TraceExplorer.Number

/-- A kind of number to compute with. Operations may fail; `count` is an exact whole number and
`level` a fixed point on a scale of measured values. -/
class Quantity (α : Type) where
  count : Int → α
  level : Int → α
  add : α → α → Except ArithmeticError α
  sub : α → α → Except ArithmeticError α
  mul : α → α → Except ArithmeticError α
  div : α → α → Except ArithmeticError α
  le : α → α → Bool
  lt : α → α → Bool

instance : Quantity Scalar where
  count n := .whole n
  level n := .real (.ofRat n)
  add := Scalar.add
  sub := Scalar.sub
  mul := Scalar.mul
  div := Scalar.div
  le := Scalar.le
  lt := Scalar.lt

instance : Quantity Rat where
  count n := n
  level n := n
  add a b := .ok (a + b)
  sub a b := .ok (a - b)
  mul a b := .ok (a * b)
  div a b := if b = 0 then .error .divisionByZero else .ok (a / b)
  le a b := a ≤ b
  lt a b := a < b

end TraceExplorer.Number
