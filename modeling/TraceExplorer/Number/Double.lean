import TraceExplorer.Number.Rounding

/-!
# Double-precision numbers

A finite double is the rational it stands for, and an operation rounds its exact result. Zero has
a sign, results beyond the largest double are infinite, and a result without meaning is not a
number.
-/

namespace TraceExplorer.Number

/-- A double-precision number. Zero with a minus sign is a number of its own. -/
inductive Double where
  | finite (value : Rat)
  | negativeZero
  | infinite (negative : Bool)
  | nan
  deriving DecidableEq, Repr, Inhabited

namespace Double

def zero : Bool → Double
  | true => negativeZero
  | false => finite 0

/-- The magnitude at which rounding leaves the finite doubles. -/
def overflowBound : Rat := (Nat.pow 2 1024 : Rat)

def ofRat (q : Rat) : Double :=
  if q = 0 then finite 0
  else
    let magnitude := nearestMultiple (if q < 0 then -q else q)
    if overflowBound ≤ magnitude then infinite (q < 0)
    else if magnitude = 0 then zero (q < 0)
    else finite (if q < 0 then -magnitude else magnitude)

/-- The double nearest to a decimal number `mantissa · 10 ^ exponent`. A number far outside the
range of doubles is not computed. -/
def ofDecimal (negative : Bool) (mantissa : Nat) (exponent : Int) : Double :=
  let leading := exponent + digitCount 10 mantissa
  if mantissa = 0 || leading < -330 then zero negative
  else if 320 < leading then infinite negative
  else
    let magnitude := (mantissa : Rat) * power 10 exponent
    match ofRat (if negative then -magnitude else magnitude) with
    | finite 0 => zero negative
    | x => x

def value? : Double → Option Rat
  | finite q => some q
  | negativeZero => some 0
  | infinite _ | nan => none

def isNegative : Double → Bool
  | finite q => q < 0
  | negativeZero => true
  | infinite negative => negative
  | nan => false

def neg : Double → Double
  | finite q => if q = 0 then negativeZero else finite (-q)
  | negativeZero => finite 0
  | infinite negative => infinite !negative
  | nan => nan

/-- The nearest double, or the zero of the given sign when the exact result is zero. -/
def ofResult (negative : Bool) (q : Rat) : Double :=
  if q = 0 then zero negative else ofRat q

/-- The sum; two negative zeros add up to a negative zero, any other zero sum is positive. -/
def add : Double → Double → Double
  | nan, _ | _, nan => nan
  | infinite a, infinite b => if a = b then infinite a else nan
  | infinite a, _ => infinite a
  | _, infinite b => infinite b
  | x, y => ofResult (x.isNegative && y.isNegative) (x.value?.getD 0 + y.value?.getD 0)

def sub (x y : Double) : Double := add x y.neg

def mul (x y : Double) : Double :=
  let negative := x.isNegative != y.isNegative
  match x, y with
  | nan, _ | _, nan => nan
  | infinite _, y => if y.value? = some 0 then nan else infinite negative
  | x, infinite _ => if x.value? = some 0 then nan else infinite negative
  | x, y => ofResult negative (x.value?.getD 0 * y.value?.getD 0)

/-- The quotient by a divisor other than zero. -/
def div (x y : Double) : Double :=
  let negative := x.isNegative != y.isNegative
  match x, y with
  | nan, _ | _, nan => nan
  | infinite _, infinite _ => nan
  | infinite _, _ => infinite negative
  | _, infinite _ => zero negative
  | x, y => ofResult negative (x.value?.getD 0 / y.value?.getD 0)

/-- Less than; not a number is never less and nothing is less than it. -/
def lt : Double → Double → Bool
  | nan, _ | _, nan => false
  | infinite a, infinite b => a && !b
  | infinite a, _ => a
  | _, infinite b => !b
  | x, y => x.value?.getD 0 < y.value?.getD 0

/-- Equal as numbers: the zeros are equal, and not a number equals nothing. -/
def beq : Double → Double → Bool
  | nan, _ | _, nan => false
  | infinite a, infinite b => a == b
  | infinite _, _ | _, infinite _ => false
  | x, y => x.value? == y.value?

def le (x y : Double) : Bool := lt x y || beq x y

def isZero (x : Double) : Bool := x.value? == some 0

/-- The integer next to a finite double in the direction of zero. -/
def truncate? (x : Double) : Option Int :=
  x.value?.map fun q => if q < 0 then -(-q).floor else q.floor

end Double

end TraceExplorer.Number
