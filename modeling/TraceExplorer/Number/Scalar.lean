import TraceExplorer.Number.Decimal

/-!
# Scalars

A scalar is a whole number of any size or a double. Whole numbers stay whole under addition,
subtraction and multiplication; a quotient, and any operation with a double, is a double. Two
scalars are compared exactly.
-/

namespace TraceExplorer.Number

inductive ArithmeticError where
  | overflow
  | divisionByZero
  deriving DecidableEq, Repr

inductive Scalar where
  | whole (n : Int)
  | real (x : Double)
  deriving DecidableEq, Repr, Inhabited

def Double.ofInt (n : Int) : Except ArithmeticError Double :=
  match Double.ofRat n with
  | .infinite _ => .error .overflow
  | x => .ok x

def Double.ofQuotient (a b : Int) : Except ArithmeticError Double :=
  if b = 0 then .error .divisionByZero
  else
    match Double.ofResult (decide (a < 0) != decide (b < 0)) ((a : Rat) / (b : Rat)) with
    | .infinite _ => .error .overflow
    | x => .ok x

namespace Scalar

def toDouble : Scalar → Except ArithmeticError Double
  | whole n => Double.ofInt n
  | real x => .ok x

/-- The number itself, before any rounding; only for comparison. -/
def exact : Scalar → Double
  | whole n => .finite n
  | real x => x

def liftReal (op : Double → Double → Double) (a b : Scalar) : Except ArithmeticError Scalar := do
  let x ← a.toDouble
  let y ← b.toDouble
  return real (op x y)

def add : Scalar → Scalar → Except ArithmeticError Scalar
  | whole a, whole b => .ok (whole (a + b))
  | a, b => liftReal Double.add a b

def sub : Scalar → Scalar → Except ArithmeticError Scalar
  | whole a, whole b => .ok (whole (a - b))
  | a, b => liftReal Double.sub a b

def mul : Scalar → Scalar → Except ArithmeticError Scalar
  | whole a, whole b => .ok (whole (a * b))
  | a, b => liftReal Double.mul a b

/-- The quotient, always a double and rounded once. -/
def div : Scalar → Scalar → Except ArithmeticError Scalar
  | whole a, whole b => (Double.ofQuotient a b).map real
  | a, b => do
    let x ← a.toDouble
    let y ← b.toDouble
    if y.isZero then throw .divisionByZero
    return real (Double.div x y)

def lt (a b : Scalar) : Bool := Double.lt a.exact b.exact

def le (a b : Scalar) : Bool := Double.le a.exact b.exact

def isZero (a : Scalar) : Bool := a.exact.isZero

/-- The text of a scalar: a whole number has no point, a double always has one or an exponent. -/
def display : Scalar → String
  | whole n => toString n
  | real x => x.toText .display

def toFixed (places : Nat) (a : Scalar) : Except ArithmeticError String :=
  a.toDouble.map (Double.toFixed places)

end Scalar

end TraceExplorer.Number
