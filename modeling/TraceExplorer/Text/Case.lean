import TraceExplorer.Text.Basic
import TraceExplorer.Text.CaseMap
import TraceExplorer.Text.Cased

/-!
# Lower and upper case

Whole texts in lower or upper case. A capital sigma is lowered by its place: it becomes the final
form when a cased letter stands before it and none after it, characters that casing looks through
apart.
-/

namespace TraceExplorer.Text

/-- The first code point that casing does not look through is a letter with case. -/
def startsCased (s : List CodePoint) : Bool :=
  match s.dropWhile (·.isChar isCaseIgnorable) with
  | [] => false
  | c :: _ => c.isChar isCased

/-- Lower-case form of one character between others; those before it are in reverse order. -/
def lowerChar (before : List CodePoint) (c : Char) (after : List CodePoint) : List Char :=
  if c = 'Σ' then if startsCased before && !startsCased after then ['ς'] else ['σ']
  else if c.toNat < 0x80 then [c.toLower]
  else mapCase lowerExpansions lowerRuns c

/-- Lower-case form of a text, given the code points before it in reverse order. -/
def lowerAfter : List CodePoint → List CodePoint → List CodePoint
  | _, [] => []
  | before, .char c :: rest =>
    (lowerChar before c rest).map .char ++ lowerAfter (.char c :: before) rest
  | before, half :: rest => half :: lowerAfter (half :: before) rest

def lower (s : Text) : Text := ⟨lowerAfter [] s.points⟩

def upperChar (c : Char) : List Char :=
  if c.toNat < 0x80 then [c.toUpper] else mapCase upperExpansions upperRuns c

def upperPoint : CodePoint → List CodePoint
  | .char c => (upperChar c).map .char
  | half => [half]

def upper (s : Text) : Text := ⟨s.points.flatMap upperPoint⟩

end TraceExplorer.Text
