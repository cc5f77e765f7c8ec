import TraceExplorer.Text.Base64
import TraceExplorer.Text.Case
import TraceExplorer.Yaml.Plain
import TraceExplorer.Yaml.Value

/-!
# The values of scalars

Reads the text of a scalar by its tag. A tag may be written in front of any text, so the text need
not have the form that the tag asks for; each kind of misfit is a fault of its own.
-/

namespace TraceExplorer.Yaml

open Calendar (CivilDate)
open Number (Scalar Double readIntegerIn? readDouble? splitSign natOfDigits)
open Text (splitAtChar)

inductive Fault where
  /-- The text is not YAML, or says something that no value stands for. -/
  | malformed
  /-- A part of the text cannot be read as its tag asks. -/
  | failed (failure : Failure)
  deriving DecidableEq, Repr

def orUnusable {α : Type} (reason : String) : Option α → Except Fault α
  | some a => .ok a
  | none => .error (.failed (.unusableValue reason))

def numeralChars (text : Text) : Option (List Char) :=
  text.chars?.map fun s => s.filter (· != '_')

/-! ## Numbers -/

def baseSixty? (s : List Char) : Option Int := do
  let parts ← (splitAtChar ':' s).mapM (readIntegerIn? 10)
  return parts.foldl (fun n part => 60 * n + part) 0

/-- Reads a whole number after its sign; its first characters tell the base. -/
def readIntBody (body : List Char) : Except Fault Int :=
  match body with
  | [] => .error (.failed .noCharacter)
  | ['0'] => .ok 0
  | '0' :: 'b' :: digits => orUnusable "invalid binary number" (readIntegerIn? 2 digits)
  | '0' :: 'x' :: digits => orUnusable "invalid hexadecimal number" (readIntegerIn? 16 digits)
  | '0' :: _ => orUnusable "invalid octal number" (readIntegerIn? 8 body)
  | _ =>
    orUnusable "invalid whole number"
      (if body.contains ':' then baseSixty? body else readIntegerIn? 10 body)

def readInt (text : Text) : Except Fault Int := do
  let s ← orUnusable "invalid whole number" (numeralChars text)
  if s.isEmpty then throw (.failed .noCharacter)
  let (negative, body) := splitSign s
  let n ← readIntBody body
  return if negative then -n else n

/-- A part of a double in base sixty, scaled by its place; the scale is a whole number. -/
def scaledPart (part : Double) (place : Nat) : Except Fault Double :=
  match (Scalar.real part).mul (.whole (Nat.pow 60 place)) with
  | .ok (.real x) => .ok x
  | .ok (.whole n) => .ok (.ofRat n)
  | .error e => .error (.failed (.arithmetic e))

/-- A double in base sixty; the last part may have a fraction. -/
def baseSixtyDouble (s : List Char) : Except Fault Double := do
  let parts ← orUnusable "invalid number" ((splitAtChar ':' s).mapM fun part =>
    readDouble? (.ofChars part))
  let scaled ← parts.reverse.zipIdx.mapM fun (part, place) => scaledPart part place
  return scaled.foldl Double.add (.finite 0)

def readFloatBody (body : List Char) : Except Fault Double :=
  if body = ".inf".toList then .ok (.infinite false)
  else if body = ".nan".toList then .ok .nan
  else if body.contains ':' then baseSixtyDouble body
  else orUnusable "invalid number" (readDouble? (.ofChars body))

def floatChars (text : Text) : Option (List Char) :=
  (Text.lower text).chars?.map fun s => s.filter (· != '_')

def readFloat (text : Text) : Except Fault Double := do
  let s ← orUnusable "invalid number" (floatChars text)
  if s.isEmpty then throw (.failed .noCharacter)
  let (negative, body) := splitSign s
  let x ← readFloatBody body
  return if negative then x.neg else x

def isUsualNan (text : Text) : Bool :=
  match floatChars text with
  | some s => (splitSign s).2 = ".nan".toList
  | none => false

/-! ## Words, bytes and dates -/

def readBool (text : Text) : Except Fault Bool :=
  let word := Text.lower text
  match boolWords.find? fun (known, _) => known = word with
  | some (_, b) => .ok b
  | none => .error (.failed (.absentKey word))

def readBytes (text : Text) : Except Fault (List UInt8) :=
  match text.chars? with
  | none => .error .malformed
  | some s =>
    match if s.all (·.toNat < 0x80) then Base64.decode s else none with
    | some bytes => .ok bytes
    | none => .error .malformed

def daysInMonth (year month : Nat) : Nat :=
  if month = 2 then
    if year % 4 = 0 && (year % 100 != 0 || year % 400 = 0) then 29 else 28
  else if month = 4 || month = 6 || month = 9 || month = 11 then 30
  else 31

/-- The first six digits of a fraction as a number of millionths. -/
def millionths (fraction : List Char) : Nat :=
  let digits := fraction.take 6
  natOfDigits (digits ++ List.replicate (6 - digits.length) '0')

/-- The distance from UTC in minutes; it is less than a day. -/
def TimestampText.minutes? (t : TimestampText) : Option (Option Int) :=
  match t.offset with
  | some (negative, hours, minutes) =>
    let n : Int := 60 * natOfDigits hours + natOfDigits minutes
    if n < 1440 then some (some (if negative then -n else n)) else none
  | none => some (if t.isUtc then some 0 else none)

def TimestampText.value? (t : TimestampText) : Option Value := do
  let year := natOfDigits t.year
  let month := natOfDigits t.month
  let day := natOfDigits t.day
  guard (1 ≤ year && 1 ≤ month && month ≤ 12 && 1 ≤ day && day ≤ daysInMonth year month)
  let date : CivilDate := ⟨year, month, day⟩
  match t.time with
  | none => return .date date
  | some (hour, minute, second) => do
    let hour := natOfDigits hour
    let minute := natOfDigits minute
    let second := natOfDigits second
    guard (hour < 24 && minute < 60 && second < 60)
    let offset ← t.minutes?
    return .moment { date, hour, minute, second, microsecond := millionths t.fraction, offset }

def readTimestamp (text : Text) : Except Fault Value :=
  match text.chars?.bind fun s => readTimestamp? (Text.dropFinalLineFeed s) with
  | some t => orUnusable "date out of range" t.value?
  | none => .error (.failed .noFields)

/-! ## All scalars -/

def scalarValue (tag : Tag) (text : Text) : Except Fault Value :=
  match tag with
  | .null => .ok .null
  | .bool => (readBool text).map .bool
  | .int => (readInt text).map fun n => .number (.whole n)
  | .float => (readFloat text).map fun x => .number (.real x)
  | .binary => (readBytes text).map .bytes
  | .timestamp => readTimestamp text
  | .text => .ok (.text text)
  | _ => .error .malformed

end TraceExplorer.Yaml
