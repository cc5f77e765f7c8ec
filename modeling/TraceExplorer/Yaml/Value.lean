import TraceExplorer.Calendar.Civil
import TraceExplorer.Failure
import TraceExplorer.Json.Value
import TraceExplorer.Number.Numeral

/-!
# YAML values

What a node of a YAML document stands for. Besides the values of JSON there are bytes, dates,
moments, sets and lists of pairs, and the keys of a mapping may be any values but collections. A
list or a mapping may be part of itself; inside, it is only named. A value has a text unless it
holds a whole number with too many digits or is nested too deeply.
-/

namespace TraceExplorer.Yaml

open Calendar (CivilDate padZeros)
open Number (Scalar)

/-- A moment with its distance from UTC in minutes, if one was given. -/
structure Moment where
  date : CivilDate
  hour : Nat
  minute : Nat
  second : Nat
  microsecond : Nat
  offset : Option Int := none
  deriving DecidableEq, Repr

/-- The number of microseconds from the start of 1970 to a moment, as if it were given in UTC. -/
def Moment.wallMicroseconds (m : Moment) : Int :=
  ((m.date.toDays * 24 + m.hour) * 60 + m.minute) * 60000000 + m.second * 1000000 + m.microsecond

/-- Two moments are the same one. A moment with a distance from UTC is never one without. -/
def Moment.isSame (m n : Moment) : Bool :=
  match m.offset, n.offset with
  | some a, some b => m.wallMicroseconds - a * 60000000 = n.wallMicroseconds - b * 60000000
  | none, none => m.wallMicroseconds = n.wallMicroseconds
  | _, _ => false

/-- A YAML value. The keys of a mapping and the members of a set are distinct. -/
inductive Value where
  | null
  | bool (b : Bool)
  | number (x : Scalar)
  | text (s : Text)
  | bytes (bs : List UInt8)
  | date (d : CivilDate)
  | moment (m : Moment)
  | list (items : List Value)
  | mapping (entries : List (Value × Value))
  | set (members : List Value)
  | pairs (items : List (Value × Value))
  /-- The list that this place is part of. -/
  | enclosingList
  /-- The mapping that this place is part of. -/
  | enclosingMapping
  deriving Repr, Inhabited

/-! ## Dates as text -/

def dateText (d : CivilDate) : String :=
  padZeros 4 d.year ++ "-" ++ padZeros 2 d.month ++ "-" ++ padZeros 2 d.day

def offsetText (minutes : Int) : String :=
  (if minutes < 0 then "-" else "+") ++ padZeros 2 (minutes.natAbs / 60) ++ ":" ++
    padZeros 2 (minutes.natAbs % 60)

/-- A moment as date and time; microseconds and the distance from UTC only if there are any. -/
def Moment.text (m : Moment) : String :=
  dateText m.date ++ " " ++ padZeros 2 m.hour ++ ":" ++ padZeros 2 m.minute ++ ":" ++
    padZeros 2 m.second ++ (if m.microsecond = 0 then "" else "." ++ padZeros 6 m.microsecond) ++
    (m.offset.map offsetText).getD ""

def dateNumbers (d : CivilDate) : List String := [toString d.year, toString d.month, toString d.day]

/-- The time of a moment by its numbers, without seconds and microseconds that are zero. -/
def Moment.timeNumbers (m : Moment) : List String :=
  let all := [m.hour, m.minute, m.second, m.microsecond]
  let shown :=
    if m.microsecond != 0 then all else if m.second != 0 then all.take 3 else all.take 2
  shown.map toString

def zoneText (minutes : Int) : String :=
  if minutes = 0 then "datetime.timezone.utc"
  else
    let days := minutes * 60 / 86400
    let seconds := minutes * 60 % 86400
    let parts := (if days = 0 then [] else ["days=" ++ toString days]) ++
      (if seconds = 0 then [] else ["seconds=" ++ toString seconds])
    "datetime.timezone(datetime.timedelta(" ++ ", ".intercalate parts ++ "))"

def Moment.quoted (m : Moment) : String :=
  "datetime.datetime(" ++ ", ".intercalate (dateNumbers m.date ++ m.timeNumbers ++
    (m.offset.map fun minutes => "tzinfo=" ++ zoneText minutes).toList) ++ ")"

namespace Value

/-! ## Text of a value -/

def numberText : Scalar → Except Failure String
  | .whole n =>
    if Number.hasText n then .ok (Scalar.display (.whole n))
    else .error (.unusableValue "whole number with too many digits")
  | x => .ok x.display

def plainQuoted : Value → Except Failure String
  | null => .ok "None"
  | bool b => .ok (if b then "True" else "False")
  | number x => numberText x
  | text s => .ok (Text.quote s)
  | bytes bs => .ok ("b" ++ Text.quoteBytes bs)
  | date d => .ok ("datetime.date(" ++ ", ".intercalate (dateNumbers d) ++ ")")
  | moment m => .ok m.quoted
  | enclosingMapping => .ok "\x7b...\x7d"
  | _ => .ok "[...]"

/-- The most collections inside each other that a text can show. As with reading, this is the room
on the stack of one interpreter, with the writer called at one depth, and no rule of the format. -/
def textDepth : Nat := 985

mutual

/-- The text of a value with every string in quotes, for collections down to the given depth. -/
def quotedTo : Nat → Value → Except Failure String
  | 0, list _ | 0, mapping _ | 0, set _ | 0, pairs _ => .error .tooDeep
  | depth + 1, list items => do
    return "[" ++ ", ".intercalate (← quotedItems depth items) ++ "]"
  | depth + 1, mapping entries => do
    return "\x7b" ++ ", ".intercalate (← quotedEntries depth entries) ++ "\x7d"
  | depth + 1, set members => do
    if members.isEmpty then return "set()"
    return "\x7b" ++ ", ".intercalate (← quotedItems depth members) ++ "\x7d"
  | depth + 1, pairs items => do
    return "[" ++ ", ".intercalate (← quotedPairs depth items) ++ "]"
  | _, v => v.plainQuoted

def quotedItems (depth : Nat) : List Value → Except Failure (List String)
  | [] => .ok []
  | v :: rest => do
    let first ← v.quotedTo depth
    return first :: (← quotedItems depth rest)

def quotedEntries (depth : Nat) : List (Value × Value) → Except Failure (List String)
  | [] => .ok []
  | (k, v) :: rest => do
    let key ← k.quotedTo depth
    let value ← v.quotedTo depth
    return (key ++ ": " ++ value) :: (← quotedEntries depth rest)

def quotedPairs (depth : Nat) : List (Value × Value) → Except Failure (List String)
  | [] => .ok []
  | (k, v) :: rest => do
    let key ← k.quotedTo (depth - 1)
    let value ← v.quotedTo (depth - 1)
    return ("(" ++ key ++ ", " ++ value ++ ")") :: (← quotedPairs depth rest)

end

def quoted (v : Value) : Except Failure String := v.quotedTo textDepth

def display : Value → Except Failure Text
  | text s => .ok s
  | date d => .ok (dateText d)
  | moment m => .ok m.text
  | v => v.quoted.map Text.ofString

def isNull : Value → Bool
  | null => true
  | _ => false

/-- A value that counts as present: not null, false, zero, or empty. -/
def isTruthy : Value → Bool
  | null => false
  | bool b => b
  | number x => !x.isZero
  | text s => !s.isEmpty
  | bytes bs => !bs.isEmpty
  | date _ | moment _ | enclosingList | enclosingMapping => true
  | list items => !items.isEmpty
  | mapping entries => !entries.isEmpty
  | set members => !members.isEmpty
  | pairs items => !items.isEmpty

/-! ## Keys -/

def keyNumber? : Value → Option Scalar
  | bool b => some (.whole (if b then 1 else 0))
  | number x => some x
  | _ => none

/-- Two values without others inside are one key. Keys that are equal as numbers are one, and the
truth values count as the numbers one and zero. -/
def sameKey (a b : Value) : Bool :=
  match a.keyNumber?, b.keyNumber? with
  | some x, some y => x.exact.beq y.exact
  | none, none =>
    match a, b with
    | null, null => true
    | text s, text t => s == t
    | bytes s, bytes t => s == t
    | date d, date e => d == e
    | moment m, moment n => m.isSame n
    | _, _ => false
  | _, _ => false

/-! ## JSON -/

mutual

def ofJson : Json.Value → Value
  | .null => null
  | .bool b => bool b
  | .number x => number x
  | .text s => text s
  | .list items => list (ofJsonItems items)
  | .object fields => mapping (ofJsonFields fields)

def ofJsonItems : List Json.Value → List Value
  | [] => []
  | v :: rest => ofJson v :: ofJsonItems rest

def ofJsonFields : List (Text × Json.Value) → List (Value × Value)
  | [] => []
  | (name, v) :: rest => (text name, ofJson v) :: ofJsonFields rest

end

end Value

end TraceExplorer.Yaml
