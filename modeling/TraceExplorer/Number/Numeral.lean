import TraceExplorer.Number.Double
import TraceExplorer.Text.Blank
import TraceExplorer.Text.DecimalDigit

/-!
# Reading numerals

Numerals that people write: digits of any script, single underscores between digits, a sign, and
blanks around the whole. A whole number may be written in base ten, or in base two, eight or
sixteen with a mark for the base in front; only in base ten the number of digits is limited.
-/

namespace TraceExplorer.Number

def isAsciiDigit (c : Char) : Bool := '0' ≤ c && c ≤ '9'

def natOfDigits (digits : List Char) : Nat :=
  digits.foldl (fun n c => 10 * n + (c.toNat - '0'.toNat)) 0

def hexValue? (c : Char) : Option Nat :=
  if '0' ≤ c && c ≤ '9' then some (c.toNat - '0'.toNat)
  else if 'a' ≤ c && c ≤ 'f' then some (c.toNat - 'a'.toNat + 10)
  else if 'A' ≤ c && c ≤ 'F' then some (c.toNat - 'A'.toNat + 10)
  else none

def digitValue? (base : Nat) (c : Char) : Option Nat := (hexValue? c).filter (· < base)

/-- The number written by digits of a base up to sixteen; there must be a digit. -/
def natInBase? (base : Nat) (digits : List Char) : Option Nat :=
  if digits.isEmpty then none
  else digits.foldlM (fun n c => (digitValue? base c).map (base * n + ·)) 0

/-- The most decimal digits that a whole number may be written with. -/
def digitLimit : Nat := 4300

def hasText (n : Int) : Bool := n.natAbs < Nat.pow 10 digitLimit

/-- A blank around a numeral: white space, but not an ASCII separator. -/
def isNumeralBlank (c : Char) : Bool :=
  Text.isBlank c && !(0x1C ≤ c.toNat && c.toNat ≤ 0x1F)

/-- The numeral without the blanks around it and with digits of any script in ASCII. -/
def plainNumeral (s : List Char) : List Char :=
  (Text.trimBy isNumeralBlank s).map fun c =>
    match Text.decimalValue? c with
    | some value => Char.ofNat ('0'.toNat + value)
    | none => c

/-- Drops underscores, if each stands between two digits. -/
def dropUnderscores? (isDigit : Char → Bool) : Bool → List Char → Option (List Char)
  | _, [] => some []
  | afterDigit, '_' :: rest =>
    match afterDigit, rest with
    | true, c :: _ => if isDigit c then dropUnderscores? isDigit false rest else none
    | _, _ => none
  | _, c :: rest => (dropUnderscores? isDigit (isDigit c) rest).map (c :: ·)

/-- Splits off a sign; true for minus. -/
def splitSign : List Char → Bool × List Char
  | '-' :: rest => (true, rest)
  | '+' :: rest => (false, rest)
  | rest => (false, rest)

def baseLetter? : Nat → Option Char
  | 2 => some 'b'
  | 8 => some 'o'
  | 16 => some 'x'
  | _ => none

/-- Drops the mark of a base in front of the digits; an underscore may follow the mark. -/
def dropBaseMark (base : Nat) (s : List Char) : List Char :=
  match s with
  | '0' :: letter :: rest =>
    if baseLetter? base = some letter.toLower then
      match rest with
      | '_' :: digits => digits
      | _ => rest
    else s
  | _ => s

def readIntegerIn? (base : Nat) (s : List Char) : Option Int := do
  let (negative, body) := splitSign (plainNumeral s)
  let digits ←
    dropUnderscores? (fun c => (digitValue? base c).isSome) false (dropBaseMark base body)
  guard (base != 10 || digits.length ≤ digitLimit)
  let n ← natInBase? base digits
  return if negative then -n else n

def readInteger? (s : Text) : Option Int := s.chars?.bind (readIntegerIn? 10)

def spanDigits (s : List Char) : List Char × List Char :=
  (s.takeWhile isAsciiDigit, s.dropWhile isAsciiDigit)

/-- Splits off a point and the digits after it; without a point there are none. -/
def spanFraction : List Char → List Char × List Char
  | '.' :: rest => spanDigits rest
  | rest => ([], rest)

/-- The exponent that ends a decimal: a sign may follow the `e`, and a digit must. -/
def readExponent? : List Char → Option Int
  | [] => some 0
  | mark :: rest => do
    guard (mark = 'e' || mark = 'E')
    let (negative, digits) := splitSign rest
    guard (!digits.isEmpty && digits.all isAsciiDigit)
    let n : Int := natOfDigits digits
    return if negative then -n else n

def readDecimal? (negative : Bool) (s : List Char) : Option Double := do
  let (whole, afterWhole) := spanDigits s
  let (fraction, afterFraction) := spanFraction afterWhole
  guard (!(whole.isEmpty && fraction.isEmpty))
  let exponent ← readExponent? afterFraction
  return .ofDecimal negative (natOfDigits (whole ++ fraction)) (exponent - fraction.length)

def readDouble? (s : Text) : Option Double := do
  let (negative, body) := splitSign (plainNumeral (← s.chars?))
  match String.ofList (body.map Char.toLower) with
  | "inf" | "infinity" => return .infinite negative
  | "nan" => return .nan
  | _ => readDecimal? negative (← dropUnderscores? isAsciiDigit false body)

end TraceExplorer.Number
