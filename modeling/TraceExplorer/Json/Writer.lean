import TraceExplorer.Json.Value

/-!
# Writing JSON

A value is written on one line, or over several lines with an indent for each level. Characters
outside ASCII are kept or written as escapes of their UTF-16 units. Half of a surrogate pair is
always written as an escape.
-/

namespace TraceExplorer.Json

open Number (Scalar DecimalStyle)

/-- How a value is written: with escapes for all but printable ASCII, and with the given indent
for each level or on one line. -/
structure Layout where
  asciiOnly : Bool := false
  indent : Option Nat := none

def unitEscape (unit : Nat) : List Char := '\\' :: 'u' :: Text.hexDigits 4 unit

def characterEscape (code : Nat) : List Char :=
  if code < 0x10000 then unitEscape code
  else
    unitEscape (0xD800 + (code - 0x10000) / 0x400) ++
      unitEscape (0xDC00 + (code - 0x10000) % 0x400)

def writeChar (asciiOnly : Bool) (c : Char) : List Char :=
  if c = '"' || c = '\\' then ['\\', c]
  else if c = '\n' then ['\\', 'n']
  else if c = '\r' then ['\\', 'r']
  else if c = '\t' then ['\\', 't']
  else if c = '\x08' then ['\\', 'b']
  else if c = '\x0c' then ['\\', 'f']
  else if c.toNat < 0x20 || (asciiOnly && 0x7E < c.toNat) then characterEscape c.toNat
  else [c]

def writePoint (asciiOnly : Bool) : CodePoint → List Char
  | .char c => writeChar asciiOnly c
  | half => unitEscape half.code

def writeString (asciiOnly : Bool) (s : Text) : String :=
  String.ofList ('"' :: s.points.flatMap (writePoint asciiOnly) ++ ['"'])

/-- A number; a double always shows a point or an exponent. -/
def writeNumber : Scalar → String
  | .whole n => toString n
  | .real x => x.toText .json

def Layout.separator (layout : Layout) (level : Nat) : String :=
  match layout.indent with
  | none => ", "
  | some width => ",\n" ++ String.ofList (List.replicate (width * level) ' ')

/-- What stands inside a bracket before the parts at the given level, or after them. -/
def Layout.margin (layout : Layout) (level : Nat) : String :=
  match layout.indent with
  | none => ""
  | some width => "\n" ++ String.ofList (List.replicate (width * level) ' ')

mutual

def Value.writeAt (layout : Layout) (level : Nat) : Value → String
  | .null => "null"
  | .bool b => if b then "true" else "false"
  | .number x => writeNumber x
  | .text s => writeString layout.asciiOnly s
  | .list [] => "[]"
  | .object [] => "\x7b\x7d"
  | .list (v :: rest) =>
    "[" ++ layout.margin (level + 1) ++ v.writeAt layout (level + 1) ++
      writeMoreItems layout (level + 1) rest ++ layout.margin level ++ "]"
  | .object ((name, v) :: rest) =>
    "\x7b" ++ layout.margin (level + 1) ++ writeString layout.asciiOnly name ++ ": " ++
      v.writeAt layout (level + 1) ++ writeMoreFields layout (level + 1) rest ++
      layout.margin level ++ "\x7d"

def writeMoreItems (layout : Layout) (level : Nat) : List Value → String
  | [] => ""
  | v :: rest =>
    layout.separator level ++ v.writeAt layout level ++ writeMoreItems layout level rest

def writeMoreFields (layout : Layout) (level : Nat) : List (Text × Value) → String
  | [] => ""
  | (name, v) :: rest =>
    layout.separator level ++ writeString layout.asciiOnly name ++ ": " ++
      v.writeAt layout level ++ writeMoreFields layout level rest

end

def Value.write (layout : Layout) (v : Value) : String := v.writeAt layout 0

end TraceExplorer.Json
