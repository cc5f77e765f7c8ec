import TraceExplorer.Text.Basic
import TraceExplorer.Text.Printable

/-!
# Quoted text

A text is shown between quotes: single ones, or double ones when it holds single quotes and no
double quote. Backslashes, the chosen quote and code points without a printed form are escaped.
-/

namespace TraceExplorer.Text

def hexDigit (n : Nat) : Char :=
  if n < 10 then Char.ofNat (0x30 + n) else Char.ofNat (0x61 + (n - 10))

/-- The lowest hexadecimal digits of a number, as many as asked for. -/
def hexDigits : Nat → Nat → List Char
  | 0, _ => []
  | width + 1, n => hexDigits width (n / 16) ++ [hexDigit (n % 16)]

/-- The escape that names a code point by two, four or eight hexadecimal digits. -/
def codeEscape (code : Nat) : List Char :=
  if code < 0x100 then '\\' :: 'x' :: hexDigits 2 code
  else if code < 0x10000 then '\\' :: 'u' :: hexDigits 4 code
  else '\\' :: 'U' :: hexDigits 8 code

def quoteChar (mark c : Char) : List Char :=
  if c = mark || c = '\\' then ['\\', c]
  else if c = '\n' then ['\\', 'n']
  else if c = '\r' then ['\\', 'r']
  else if c = '\t' then ['\\', 't']
  else if isPrintable c then [c]
  else codeEscape c.toNat

def quotePoint (mark : Char) : CodePoint → List Char
  | .char c => quoteChar mark c
  | half => codeEscape half.code

def quoteMark (s : Text) : Char :=
  if s.points.contains (.char '\'') && !s.points.contains (.char '"') then '"' else '\''

def quote (s : Text) : String :=
  let mark := quoteMark s
  String.ofList (mark :: s.points.flatMap (quotePoint mark) ++ [mark])

/-- One byte between the given quotes; bytes outside ASCII have no printed form. -/
def quoteByte (mark : Char) (b : UInt8) : List Char :=
  if b < 0x7F then quoteChar mark (Char.ofNat b.toNat) else codeEscape b.toNat

def quoteBytes (bytes : List UInt8) : String :=
  let mark := quoteMark (ofChars (bytes.map fun b => Char.ofNat b.toNat))
  String.ofList (mark :: bytes.flatMap (quoteByte mark) ++ [mark])

end TraceExplorer.Text
