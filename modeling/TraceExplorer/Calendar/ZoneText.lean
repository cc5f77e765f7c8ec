import TraceExplorer.Calendar.Stamp
import TraceExplorer.Number.Numeral

/-!
# Zones as text

A zone is written as a name and how far UTC is ahead of it, in hours with optional minutes:
`EST5`, or `<+0530>-5:30`, whose name is in angle brackets. The name `UTC` needs no number. Only
zones with a fixed distance from UTC can be written so.
-/

namespace TraceExplorer.Calendar

open Number (isAsciiDigit natOfDigits splitSign)

def afterZoneName? (s : List Char) : Option (List Char) :=
  match s with
  | '<' :: quoted => (quoted.dropWhile (· != '>')).tail?
  | _ =>
    let rest := s.dropWhile Char.isAlpha
    if rest.length < s.length then some rest else none

def minutesOf? (s : List Char) : Option Nat :=
  let hours := s.takeWhile isAsciiDigit
  match hours.isEmpty, s.dropWhile isAsciiDigit with
  | false, [] => some (60 * natOfDigits hours)
  | false, [':', a, b] =>
    if isAsciiDigit a && isAsciiDigit b then some (60 * natOfDigits hours + natOfDigits [a, b])
    else none
  | _, _ => none

def Zone.ofText? (s : String) : Option Zone :=
  if s = "UTC" then some .utc
  else do
    let (ahead, body) := splitSign (← afterZoneName? s.toList)
    let minutes ← minutesOf? body
    let east : Int := if ahead then minutes else -(minutes : Int)
    return ⟨east⟩

end TraceExplorer.Calendar
