/-!
# Rounding to nearest

Every inexact number of this library is an exact rational that was rounded once: to the nearest
integer, or to the nearest number of 53 binary digits. A tie goes to the even neighbour.
-/

namespace TraceExplorer.Number

/-- The integer nearest to a rational; a half goes to the even neighbour. -/
def roundHalfEven (q : Rat) : Int :=
  let below := q.floor
  let rest := q - below
  if rest < 1 / 2 then below
  else if 1 / 2 < rest then below + 1
  else if below % 2 = 0 then below
  else below + 1

def power (base : Nat) (exponent : Int) : Rat :=
  if 0 ≤ exponent then (base.pow exponent.toNat : Rat)
  else 1 / (base.pow (-exponent).toNat : Rat)

/-- The number of digits of a number in a base of at least two; zero has one digit. -/
def digitCount (base n : Nat) : Nat :=
  if _h : 2 ≤ base ∧ base ≤ n then digitCount base (n / base) + 1 else 1
termination_by n
decreasing_by exact Nat.div_lt_self (by omega) (by omega)

/-- Corrects an estimate of the leading digit's exponent that may be one too high. -/
def settleExponent (base : Nat) (estimate : Int) (q : Rat) : Int :=
  if q < power base estimate then estimate - 1 else estimate

def binaryExponent (q : Rat) : Int :=
  settleExponent 2 ((q.num.natAbs.log2 : Int) - (q.den.log2 : Int)) q

def decimalExponent (q : Rat) : Int :=
  settleExponent 10 ((digitCount 10 q.num.natAbs : Int) - (digitCount 10 q.den : Int)) q

/-- The distance between neighbouring doubles around a positive rational: 53 binary digits are
kept, and none below 2 ^ -1074. -/
def spacing (q : Rat) : Rat := power 2 (max (binaryExponent q) (-1022) - 52)

def nearestMultiple (q : Rat) : Rat := (roundHalfEven (q / spacing q) : Rat) * spacing q

end TraceExplorer.Number
