/-!
# Lines

Three ways to cut a text into lines. Reading a file turns each carriage return, alone or before a
line feed, into a line feed. A *full* split then cuts at every line boundary of any script, a
*plain* split at line feeds only.
-/

namespace TraceExplorer.Text

def unifyLineEnds : List Char → List Char
  | [] => []
  | '\r' :: '\n' :: rest => '\n' :: unifyLineEnds rest
  | '\r' :: rest => '\n' :: unifyLineEnds rest
  | c :: rest => c :: unifyLineEnds rest

def isLineBoundary (c : Char) : Bool :=
  let code := c.toNat
  (0x0A ≤ code && code ≤ 0x0D) || (0x1C ≤ code && code ≤ 0x1E) || code == 0x85
    || code == 0x2028 || code == 0x2029

/-- Cuts at every line boundary; a carriage return with its line feed is one boundary. The
characters of the current line are held in reverse order, and a last line without characters is
no line. -/
def splitBoundaries : List Char → List Char → List (List Char)
  | [], [] => []
  | line, [] => [line.reverse]
  | line, '\r' :: '\n' :: rest => line.reverse :: splitBoundaries [] rest
  | line, c :: rest =>
    if isLineBoundary c then line.reverse :: splitBoundaries [] rest
    else splitBoundaries (c :: line) rest

def fullLines (s : String) : List String :=
  (splitBoundaries [] s.toList).map String.ofList

/-- Cuts at each separator; there is always one part more than there are separators. -/
def splitAtChar (separator : Char) : List Char → List (List Char)
  | [] => [[]]
  | c :: rest =>
    if c = separator then [] :: splitAtChar separator rest
    else
      match splitAtChar separator rest with
      | [] => [[c]]
      | part :: parts => (c :: part) :: parts

def plainLines (s : String) : List String :=
  (splitAtChar '\n' s.toList).map String.ofList

def dropFinalLineFeed (s : List Char) : List Char :=
  if s.getLast? = some '\n' then s.dropLast else s

end TraceExplorer.Text
