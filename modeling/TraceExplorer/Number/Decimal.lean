import TraceExplorer.Number.Double

/-!
# Decimal text of doubles

A double is written with the fewest digits that read back, or with a fixed number of places. Both
are exact: the first compares candidates by rounding them back, the second rounds the rational
itself.
-/

namespace TraceExplorer.Number

def digitsOf (n : Nat) : List Char := Nat.toDigits 10 n

/-! ## Fewest digits -/

/-- The nearer of two decimals to a rational; at equal distance the one with the even digit. -/
def nearerCandidate (q step : Rat) (below : Int) : Int :=
  let rest := q / step - below
  if rest < 1 / 2 then below
  else if 1 / 2 < rest then below + 1
  else if below % 2 = 0 then below
  else below + 1

/-- The decimal of the given number of digits that reads back as the positive double `q` and is
nearest to it, as an integer and the exponent of its last digit. -/
def candidate? (q : Rat) (leading : Int) (digits : Nat) : Option (Nat × Int) :=
  let last := leading - digits + 1
  let step := power 10 last
  let below := (q / step).floor
  let readsBack (n : Int) : Bool := Double.ofRat (n * step) == .finite q
  match readsBack below, readsBack (below + 1) with
  | true, true => some ((nearerCandidate q step below).toNat, last)
  | true, false => some (below.toNat, last)
  | false, true => some ((below + 1).toNat, last)
  | false, false => none

def dropTrailingZeros (n : Nat) (exponent : Int) : Nat × Int :=
  if _h : 0 < n ∧ n % 10 = 0 then dropTrailingZeros (n / 10) (exponent + 1) else (n, exponent)
termination_by n
decreasing_by exact Nat.div_lt_self (by omega) (by omega)

/-- The decimal with the fewest digits that reads back as a positive double; 17 digits always
do. -/
def shortestDecimal (q : Rat) : Nat × Int :=
  let leading := decimalExponent q
  match (List.range 17).findSome? fun i => candidate? q leading (i + 1) with
  | some (n, exponent) => dropTrailingZeros n exponent
  | none => (0, 0)

/-- How a double is written with the fewest digits: from which exponent of the leading digit on,
and up to which, every place is written out, and the names of the special numbers. -/
structure DecimalStyle where
  leastPositional : Int
  leastScientific : Int
  infinity : String
  notANumber : String

/-- Places are written out from 0.0001 to below 10 ^ 16. -/
def DecimalStyle.display : DecimalStyle := ⟨-4, 16, "inf", "nan"⟩

def DecimalStyle.json : DecimalStyle := ⟨-4, 16, "Infinity", "NaN"⟩

/-- Digits with every place written out and at least one after the point. -/
def positionalText (digits : List Char) (leading : Int) : List Char :=
  if leading < 0 then
    ['0', '.'] ++ List.replicate (-leading - 1).toNat '0' ++ digits
  else
    let whole := leading.toNat + 1
    let fraction := digits.drop whole
    digits.take whole ++ List.replicate (whole - digits.length) '0' ++ ['.'] ++
      (if fraction.isEmpty then ['0'] else fraction)

/-- Digits with a point after the first and the exponent in at least two digits. -/
def scientificText (digits : List Char) (leading : Int) : List Char :=
  let exponent := digitsOf leading.natAbs
  digits.take 1 ++ (if 1 < digits.length then '.' :: digits.drop 1 else []) ++ ['e'] ++
    [if leading < 0 then '-' else '+'] ++
    (if exponent.length < 2 then ['0'] else []) ++ exponent

def shortestText (style : DecimalStyle) (q : Rat) : List Char :=
  let (n, exponent) := shortestDecimal q
  let digits := digitsOf n
  let leading := exponent + digits.length - 1
  if style.leastPositional ≤ leading && leading < style.leastScientific then
    positionalText digits leading
  else scientificText digits leading

def Double.toText (style : DecimalStyle) : Double → String
  | .nan => style.notANumber
  | .infinite negative => (if negative then "-" else "") ++ style.infinity
  | .negativeZero => "-0.0"
  | .finite q =>
    if q = 0 then "0.0"
    else if q < 0 then "-" ++ String.ofList (shortestText style (-q))
    else String.ofList (shortestText style q)

/-! ## Fixed places -/

def placesText (places n : Nat) : List Char :=
  let digits := digitsOf n
  let padded := List.replicate (places + 1 - digits.length) '0' ++ digits
  let whole := padded.length - places
  padded.take whole ++ (if places = 0 then [] else '.' :: padded.drop whole)

/-- The text of a double with a fixed number of places; a negative number that rounds to zero
keeps its sign. -/
def Double.toFixed (places : Nat) : Double → String
  | .nan => "nan"
  | .infinite negative => if negative then "-inf" else "inf"
  | x =>
    let q := x.value?.getD 0
    let units := (roundHalfEven ((if q < 0 then -q else q) * power 10 places)).toNat
    (if x.isNegative then "-" else "") ++ String.ofList (placesText places units)

end TraceExplorer.Number
