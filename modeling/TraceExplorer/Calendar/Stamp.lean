import TraceExplorer.Calendar.Civil
import TraceExplorer.Failure

/-!
# Date stamps

A moment is written as month, day and year with the time to the millisecond and the distance of
the zone from UTC. Only years 1 to 9999 can be written. A year below 1000 is not padded, and a
millisecond is cut, not rounded.
-/

namespace TraceExplorer.Calendar

open Number (Scalar)

/-- How far a clock is ahead of UTC. -/
structure Offset where
  seconds : Int
  deriving DecidableEq, Repr

def Offset.utc : Offset := ⟨0⟩

/-- The offset at every second since the start of 1970. -/
def Offsets : Type := Int → Offset

/-- A number stands for clocks that are always as many minutes ahead of UTC. -/
instance : Coe Int Offsets := ⟨fun minutes _ => ⟨minutes * 60⟩⟩

/-- A time zone. Its clocks may be put forward and back. -/
structure Zone where
  offsetAt : Offsets

def Zone.utc : Zone := ⟨fun _ => .utc⟩

/-- The first second of year 1. -/
def firstSecond : Int := -62135596800

/-- The first second after year 9999. -/
def endSecond : Int := 253402300800

def isWritable (seconds : Int) : Bool := firstSecond ≤ seconds && seconds < endSecond

/-- The first second that does not fit 64 bits, 2 to the power of 63. -/
def clockEnd : Int := 9223372036854775808

def fitsClock (seconds : Int) : Bool := -clockEnd ≤ seconds && seconds < clockEnd

/-- The year of the second fits 32 bits. -/
def yearFits (seconds : Int) : Bool :=
  -67768040609740800 ≤ seconds && seconds ≤ 67768036191676799

def Offset.text (o : Offset) : String :=
  let distance : Int := o.seconds.natAbs
  (if o.seconds < 0 then "-" else "+") ++ padZeros 2 (distance / 3600) ++
    padZeros 2 (distance / 60 % 60) ++
    (if distance % 60 = 0 then "" else padZeros 2 (distance % 60))

def stampText (t : CivilTime) (milliseconds : Int) (o : Offset) : String :=
  padZeros 2 t.date.month ++ "-" ++ padZeros 2 t.date.day ++ "-" ++ padZeros 1 t.date.year ++
    "T" ++ padZeros 2 t.hour ++ ":" ++ padZeros 2 t.minute ++ ":" ++ padZeros 2 t.second ++
    "." ++ padZeros 3 milliseconds ++ o.text

/-- A local clock is less than a day from UTC. -/
def Offset.isUsual (o : Offset) : Bool := -86400 < o.seconds && o.seconds < 86400

/-- A moment that can be shown by a clock: the system clock can hold it, in UTC and on the wall, and
the wall time is in the years 1 to 9999. With a local clock so are the wall time a day before, the
wall time shifted once more, and the moment itself, all by the offset at this moment. -/
def checkMoment (seconds : Int) (o : Offset) (isLocal : Bool) : Except Failure Unit :=
  let wall := seconds + o.seconds
  if !fitsClock seconds then .error (.arithmetic .overflow)
  else if !yearFits seconds || !yearFits wall then .error .yearTooLarge
  else if !isWritable wall then .error (.unusableValue "year is out of range")
  else if !isLocal then .ok ()
  else if !isWritable (wall - 86400) || !isWritable (wall + o.seconds) then
    .error (.unusableValue "year is out of range")
  else if !o.isUsual then .error (.unusableValue "zone a day or more from UTC")
  else if !isWritable seconds then .error (.arithmetic .overflow)
  else .ok ()

/-- The stamp of a number of microseconds since the start of 1970, in UTC or by a local clock. -/
def stampAt (microseconds : Int) (utc : Bool) (offset : Offset) : Except Failure String := do
  let seconds := microseconds / 1000000
  let o := if utc then Offset.utc else offset
  checkMoment seconds o (!utc)
  return stampText (.ofSeconds (seconds + o.seconds)) (microseconds % 1000000 / 1000) o

def formatStamp (microseconds : Int) (utc : Bool) (zone : Zone) : Except Failure String :=
  stampAt microseconds utc (zone.offsetAt (microseconds / 1000000))

/-- The stamp of a number of microseconds that may be a double; its fraction is cut. -/
def formatScalarStamp (microseconds : Scalar) (utc : Bool) (zone : Zone) :
    Except Failure String :=
  match microseconds with
  | .whole n => formatStamp n utc zone
  | .real x =>
    match x.truncate?, x with
    | some n, _ => formatStamp n utc zone
    | none, .nan => .error (.unusableValue "cannot convert float NaN to integer")
    | none, _ => .error (.arithmetic .overflow)

end TraceExplorer.Calendar
