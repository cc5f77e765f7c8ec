import TraceExplorer.Number.Numeral
import TraceExplorer.Text.Lines
import TraceExplorer.Yaml.Tag

/-!
# What a plain scalar stands for

A scalar without quotes may be null, a truth value, a number, a date or a moment; any other is a
text. Whole numbers may be binary, octal with a leading zero, hexadecimal, or in base sixty with
colons. One line feed at the end of a scalar does not change its form.
-/

namespace TraceExplorer.Yaml

open Number (splitSign isAsciiDigit)
open Text (splitAtChar)

/-! ## Forms -/

def isNumberChar (c : Char) : Bool := isAsciiDigit c || c = '_'

/-- A part after a colon in base sixty: one digit, or two below sixty. -/
def isSixtieth : List Char → Bool
  | [d] => isAsciiDigit d
  | [t, d] => '0' ≤ t && t ≤ '5' && isAsciiDigit d
  | _ => false

/-- A number in base sixty: a first part that passes the test, and further parts. -/
def isBaseSixty (first : List Char → Bool) (s : List Char) : Bool :=
  match splitAtChar ':' s with
  | head :: part :: rest => first head && (part :: rest).all isSixtieth
  | _ => false

def startsNonzero : List Char → Bool
  | c :: rest => '1' ≤ c && c ≤ '9' && rest.all isNumberChar
  | [] => false

def startsDigit : List Char → Bool
  | c :: rest => isAsciiDigit c && rest.all isNumberChar
  | [] => false

def isIntBody (s : List Char) : Bool :=
  match s with
  | '0' :: 'b' :: c :: rest => (c :: rest).all fun d => d = '0' || d = '1' || d = '_'
  | '0' :: 'x' :: c :: rest => (c :: rest).all fun d => (hexDigitOk d) || d = '_'
  | ['0'] => true
  | '0' :: rest => rest.all fun d => ('0' ≤ d && d ≤ '7') || d = '_'
  | _ => startsNonzero s || isBaseSixty startsNonzero s
where
  hexDigitOk (d : Char) : Bool :=
    isAsciiDigit d || ('a' ≤ d && d ≤ 'f') || ('A' ≤ d && d ≤ 'F')

def isExponent : List Char → Bool
  | mark :: sign :: d :: rest =>
    (mark = 'e' || mark = 'E') && (sign = '-' || sign = '+') && (d :: rest).all isAsciiDigit
  | _ => false

def isFractionTail (s : List Char) : Bool :=
  let after := s.dropWhile isNumberChar
  after.isEmpty || isExponent after

def isSixtiethFraction (s : List Char) : Bool :=
  match splitAtChar '.' s with
  | [whole, fraction] => isSixtieth whole && fraction.all isNumberChar
  | _ => false

def isBaseSixtyFloat (s : List Char) : Bool :=
  match (splitAtChar ':' s).reverse with
  | last :: between =>
    match between.reverse with
    | head :: middle => startsDigit head && middle.all isSixtieth && isSixtiethFraction last
    | [] => false
  | [] => false

/-- The form of decimals, after the sign: digits, a point, and a fraction. -/
def isDecimalBody (s : List Char) : Bool :=
  let whole := s.takeWhile isNumberChar
  match s.drop whole.length with
  | '.' :: rest => startsDigit whole && isFractionTail rest
  | _ => false

/-- The form of doubles. A fraction without a whole part has no sign. -/
def isFloat (s : List Char) : Bool :=
  let body := (splitSign s).2
  isDecimalBody body || isBaseSixtyFloat body
    || [".inf".toList, ".Inf".toList, ".INF".toList].contains body
    || [".nan".toList, ".NaN".toList, ".NAN".toList].contains s
    || (match s with
      | '.' :: d :: rest => isAsciiDigit d && isFractionTail (d :: rest)
      | _ => false)

def isInt (s : List Char) : Bool := isIntBody (splitSign s).2

def nullWords : List String := ["~", "null", "Null", "NULL", ""]

def boolWords : List (String × Bool) :=
  [("yes", true), ("Yes", true), ("YES", true), ("no", false), ("No", false), ("NO", false),
    ("true", true), ("True", true), ("TRUE", true), ("false", false), ("False", false),
    ("FALSE", false), ("on", true), ("On", true), ("ON", true), ("off", false), ("Off", false),
    ("OFF", false)]

/-! ## Dates -/

/-- The parts of a date or a moment as they are written. -/
structure TimestampText where
  year : List Char
  month : List Char
  day : List Char
  time : Option (List Char × List Char × List Char) := none
  fraction : List Char := []
  /-- The distance from UTC: true for a minus sign, hours and minutes. -/
  offset : Option (Bool × List Char × List Char) := none
  isUtc : Bool := false

def digitRun? (least most : Nat) (s : List Char) : Option (List Char × List Char) :=
  let digits := (s.takeWhile isAsciiDigit).take most
  if least ≤ digits.length then some (digits, s.drop digits.length) else none

def char? (c : Char) : List Char → Option (List Char)
  | d :: rest => if c = d then some rest else none
  | [] => none

def isTimeBlank (c : Char) : Bool := c = ' ' || c = '\t'

def readOffset (t : TimestampText) (s : List Char) : Option TimestampText :=
  match s.dropWhile isTimeBlank with
  | ['Z'] => some { t with isUtc := true }
  | sign :: rest => do
    guard (sign = '-' || sign = '+')
    let (hours, rest) ← digitRun? 1 2 rest
    match rest with
    | [] => return { t with offset := some (sign = '-', hours, []) }
    | ':' :: minutes => do
      guard (minutes.length = 2 && minutes.all isAsciiDigit)
      return { t with offset := some (sign = '-', hours, minutes) }
    | _ => none
  | [] => if s.isEmpty then some t else none

def readTime (t : TimestampText) (s : List Char) : Option TimestampText := do
  let (hour, s) ← digitRun? 1 2 s
  let s ← char? ':' s
  let (minute, s) ← digitRun? 2 2 s
  let s ← char? ':' s
  let (second, s) ← digitRun? 2 2 s
  let t := { t with time := some (hour, minute, second) }
  match s with
  | '.' :: rest =>
    let fraction := rest.takeWhile isAsciiDigit
    readOffset { t with fraction } (rest.drop fraction.length)
  | _ => readOffset t s

/-- Reads the parts of a date or a moment. Month and day may have one digit. -/
def readTimestamp? (s : List Char) : Option TimestampText := do
  let (year, s) ← digitRun? 4 4 s
  let s ← char? '-' s
  let (month, s) ← digitRun? 1 2 s
  let s ← char? '-' s
  let (day, s) ← digitRun? 1 2 s
  let t : TimestampText := { year, month, day }
  match s with
  | [] => some t
  | mark :: rest =>
    if mark = 'T' || mark = 't' then readTime t rest
    else if isTimeBlank mark then readTime t (rest.dropWhile isTimeBlank)
    else none

/-- The form of dates and moments. Month and day of a date without a time have two digits. -/
def isTimestamp (s : List Char) : Bool :=
  match readTimestamp? s with
  | some t => t.time.isSome || (t.month.length = 2 && t.day.length = 2)
  | none => false

/-! ## Tags by form -/

/-- The tag of a scalar by its characters, without a line feed at the end. -/
def tagOfForm (s : List Char) : Tag :=
  let word := String.ofList s
  if (boolWords.lookup word).isSome then .bool
  else if isFloat s then .float
  else if isInt s then .int
  else if word = "<<" then .merge
  else if nullWords.contains word then .null
  else if isTimestamp s then .timestamp
  else if word = "=" then .default
  else if ["!", "&", "*"].contains word then .other
  else .text

/-- The tag of a scalar by its form. A scalar that holds more than characters, or only a line
feed, is a text. -/
def Tag.ofPlain (text : Text) : Tag :=
  match text.chars? with
  | none | some ['\n'] => .text
  | some s => tagOfForm (Text.dropFinalLineFeed s)

end TraceExplorer.Yaml
