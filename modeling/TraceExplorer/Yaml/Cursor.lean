/-!
# A place in a YAML text

A cursor knows the characters that are left and counts characters, lines and columns. Beyond the
end every character is a NUL, which no YAML text holds.
-/

namespace TraceExplorer.Yaml

structure Cursor where
  rest : List Char
  index : Nat := 0
  line : Nat := 0
  column : Nat := 0
  deriving Repr, Inhabited

def endMark : Char := '\x00'

def isBreak (c : Char) : Bool :=
  c = '\r' || c = '\n' || c = '\x85' || c = '\u2028' || c = '\u2029'

def isBreakOrEnd (c : Char) : Bool := c = endMark || isBreak c

def isSpaceOrEnd (c : Char) : Bool := c = ' ' || isBreakOrEnd c

def isGapOrEnd (c : Char) : Bool := c = '\t' || isSpaceOrEnd c

def isAllowed (c : Char) : Bool :=
  let code := c.toNat
  code == 0x09 || code == 0x0A || code == 0x0D || (0x20 ≤ code && code ≤ 0x7E) || code == 0x85
    || (0xA0 ≤ code && code ≤ 0xD7FF) || (0xE000 ≤ code && code ≤ 0xFFFD) || 0x10000 ≤ code

namespace Cursor

def peek (c : Cursor) (ahead : Nat := 0) : Char := (c.rest[ahead]?).getD endMark

def lookahead (c : Cursor) (n : Nat) : List Char := c.rest.take n

def next (c : Cursor) : Cursor :=
  match c.rest with
  | [] => c
  | ch :: rest =>
    let endsLine := isBreak ch && !(ch = '\r' && rest.head? = some '\n')
    { rest
      index := c.index + 1
      line := if endsLine then c.line + 1 else c.line
      column := if endsLine then 0 else if ch = '\uFEFF' then c.column else c.column + 1 }

def skip : Nat → Cursor → Cursor
  | 0, c => c
  | n + 1, c => skip n c.next

def takeWhile (c : Cursor) (p : Char → Bool) : List Char := c.rest.takeWhile p

def skipWhile (p : Char → Bool) (c : Cursor) : Cursor := c.skip (c.takeWhile p).length

def skipSpaces (c : Cursor) : Cursor := c.skipWhile (· = ' ')

def skipComment (c : Cursor) : Cursor :=
  if c.peek = '#' then c.skipWhile (!isBreak ·) else c

/-- Reads a line break. Most breaks are read as a line feed; the separators of lines and
paragraphs are kept. -/
def readBreak (c : Cursor) : List Char × Cursor :=
  match c.rest with
  | '\r' :: '\n' :: _ => (['\n'], c.skip 2)
  | ch :: _ =>
    if ch = '\u2028' || ch = '\u2029' then ([ch], c.next)
    else if isBreak ch then (['\n'], c.next)
    else ([], c)
  | [] => ([], c)

/-- A document marker, three dashes or dots, stands here, and a gap follows it. -/
def atMarker (c : Cursor) : Bool :=
  (c.lookahead 3 = ['-', '-', '-'] || c.lookahead 3 = ['.', '.', '.']) && isGapOrEnd (c.peek 3)

end Cursor

end TraceExplorer.Yaml
