import TraceExplorer.Number.Numeral
import TraceExplorer.Yaml.Cursor

/-!
# The text of a scalar

Scalars are written plainly, between quotes, or as a block of indented lines. Line breaks inside
plain and quoted scalars are folded: a single one becomes a space, and of several the first is
dropped. Each reader yields the text and the place after it, or what is wrong.
-/

namespace TraceExplorer.Yaml

open Number (hexValue?)

inductive Flaw where
  | malformed
  /-- An escape names a number beyond the code points. -/
  | noCodePoint
  /-- An escape names a number that does not fit 31 bits. -/
  | codeOverflow
  | versionTooLong
  deriving DecidableEq, Repr

def orMalformed {α : Type} : Option α → Except Flaw α
  | some a => .ok a
  | none => .error .malformed

abbrev Read := List Char × Cursor

def foldBreaks (first more : List Char) : List Char :=
  (if first != ['\n'] then first else if more.isEmpty then [' '] else []) ++ more

/-! ## Quoted scalars -/

def shortEscape? : Char → Option Char
  | '0' => some '\x00'
  | 'a' => some '\x07'
  | 'b' => some '\x08'
  | 't' | '\t' => some '\x09'
  | 'n' => some '\n'
  | 'v' => some '\x0b'
  | 'f' => some '\x0c'
  | 'r' => some '\r'
  | 'e' => some '\x1b'
  | ' ' => some ' '
  | '"' => some '"'
  | '\\' => some '\\'
  | '/' => some '/'
  | 'N' => some '\x85'
  | '_' => some '\xA0'
  | 'L' => some '\u2028'
  | 'P' => some '\u2029'
  | _ => none

def codeEscapeWidth? : Char → Option Nat
  | 'x' => some 2
  | 'u' => some 4
  | 'U' => some 8
  | _ => none

def hexNumber? (width : Nat) (digits : List Char) : Option Nat :=
  if digits.length = width then
    digits.foldlM (fun n c => (hexValue? c).map (16 * n + ·)) 0
  else none

/-- Line breaks with the blanks around them; a document marker may not follow a break. -/
def readFoldedBreaks : Nat → Cursor → Option Read
  | 0, _ => none
  | fuel + 1, c =>
    if c.atMarker then none
    else
      let c := c.skipWhile fun ch => ch = ' ' || ch = '\t'
      if isBreak c.peek then do
        let (first, c) := c.readBreak
        let (more, c) ← readFoldedBreaks fuel c
        return (first ++ more, c)
      else some ([], c)

def codePoint (code : Nat) : Except Flaw CodePoint :=
  if code < 0x110000 then .ok (.ofNat code)
  else if code < 0x80000000 then .error .noCodePoint
  else .error .codeOverflow

abbrev ReadPoints := List CodePoint × Cursor

/-- What a backslash between double quotes stands for; the place is after the backslash. -/
def readEscape (c : Cursor) : Except Flaw ReadPoints :=
  let escape := c.peek
  match shortEscape? escape, codeEscapeWidth? escape with
  | some e, _ => .ok ([.char e], c.next)
  | none, some width => do
    let code ← orMalformed (hexNumber? width (c.next.lookahead width))
    return ([← codePoint code], c.next.skip width)
  | none, none => do
    if !isBreak escape then throw .malformed
    let (breaks, c) ← orMalformed (readFoldedBreaks (c.rest.length + 1) c.readBreak.2)
    return (breaks.map .char, c)

/-- The part of a quoted scalar up to the next blank, break or closing quote. -/
def readQuotedWord (double : Bool) : Nat → Cursor → Except Flaw ReadPoints
  | 0, _ => .error .malformed
  | fuel + 1, c => do
    let run := c.takeWhile fun ch =>
      !(ch = '\'' || ch = '"' || ch = '\\' || ch = ' ' || ch = '\t' || isBreak ch)
    let c := c.skip run.length
    let ch := c.peek
    let part : Option ReadPoints ←
      if !double && ch = '\'' && c.peek 1 = '\'' then pure (some ([.char '\''], c.skip 2))
      else if (double && ch = '\'') || (!double && (ch = '"' || ch = '\\')) then
        pure (some ([.char ch], c.next))
      else if double && ch = '\\' then (readEscape c.next).map some
      else pure none
    match part with
    | none => return (run.map .char, c)
    | some (points, c) => do
      let (more, c) ← readQuotedWord double fuel c
      return (run.map .char ++ points ++ more, c)

def readQuotedGap (c : Cursor) : Option Read :=
  let blanks := c.takeWhile fun ch => ch = ' ' || ch = '\t'
  let c := c.skip blanks.length
  if c.peek = endMark then none
  else if isBreak c.peek then do
    let (first, c) := c.readBreak
    let (more, c) ← readFoldedBreaks (c.rest.length + 1) c
    return (foldBreaks first more, c)
  else some (blanks, c)

def readQuotedRest (quote : Char) : Nat → Cursor → Except Flaw ReadPoints
  | 0, _ => .error .malformed
  | fuel + 1, c =>
    if c.peek = quote then .ok ([], c.next)
    else do
      let (gap, c) ← orMalformed (readQuotedGap c)
      let (word, c) ← readQuotedWord (quote = '"') (c.rest.length + 1) c
      let (more, c) ← readQuotedRest quote fuel c
      return (gap.map .char ++ word ++ more, c)

def readQuoted (c : Cursor) : Except Flaw (Text × Cursor) := do
  let quote := c.peek
  let c := c.next
  let (word, c) ← readQuotedWord (quote = '"') (c.rest.length + 1) c
  let (more, c) ← readQuotedRest quote (c.rest.length + 1) c
  return (⟨word ++ more⟩, c)

/-! ## Plain scalars -/

def isFlowMark (c : Char) : Bool := c = ',' || c = '[' || c = ']' || c = '{' || c = '}'

/-- The number of characters of a plain scalar up to the next gap or indicator. -/
def plainRun (inFlow : Bool) : List Char → Nat
  | [] => 0
  | ch :: rest =>
    let following := rest.head?.getD endMark
    if isGapOrEnd ch
      || (ch = ':' && (isGapOrEnd following || (inFlow && isFlowMark following)))
      || (inFlow && (ch = '?' || isFlowMark ch)) then 0
    else plainRun inFlow rest + 1

/-- Line breaks between two lines of a plain scalar; nothing if a document marker follows one. -/
def readPlainBreaks : Nat → Cursor → Option (List Char) × Cursor
  | 0, c => (some [], c)
  | fuel + 1, c =>
    if c.peek = ' ' then readPlainBreaks fuel c.next
    else if isBreak c.peek then
      let (first, c) := c.readBreak
      if c.atMarker then (none, c)
      else
        let (more, c) := readPlainBreaks fuel c
        (more.map (first ++ ·), c)
    else (some [], c)

/-- What stands between two parts of a plain scalar, and whether a line ended there. -/
def readPlainGap (c : Cursor) : List Char × Bool × Cursor :=
  let spaces := c.takeWhile (· = ' ')
  let c := c.skip spaces.length
  if isBreak c.peek then
    let (first, c) := c.readBreak
    if c.atMarker then ([], true, c)
    else
      match readPlainBreaks (c.rest.length + 1) c with
      | (none, c) => ([], true, c)
      | (some more, c) => (foldBreaks first more, true, c)
  else (spaces, false, c)

/-- The rest of a plain scalar whose lines must be indented by `indent` columns. The gap before it
is part of the scalar if more text follows. The flag tells whether the last gap ended a line. -/
def readPlainFrom (inFlow : Bool) (indent : Int) :
    Nat → List Char → Bool → Cursor → List Char × Bool × Cursor
  | 0, _, ended, c => ([], ended, c)
  | fuel + 1, gap, ended, c =>
    let length := if c.peek = '#' then 0 else plainRun inFlow c.rest
    if length = 0 then ([], ended, c)
    else
      let word := c.lookahead length
      let (space, endsLine, after) := readPlainGap (c.skip length)
      if space.isEmpty || after.peek = '#' || (!inFlow && (after.column : Int) < indent) then
        (gap ++ word, endsLine, after)
      else
        let (more, ended, after) := readPlainFrom inFlow indent fuel space endsLine after
        (gap ++ word ++ more, ended, after)

/-- A plain scalar below a parent of the given indent, whether a line ended after it, and the
place after it. -/
def readPlain (inFlow : Bool) (parentIndent : Int) (c : Cursor) : Text × Bool × Cursor :=
  let (text, endsLine, c) :=
    readPlainFrom inFlow (parentIndent + 1) (c.rest.length + 1) [] false c
  (.ofChars text, endsLine, c)

/-! ## Block scalars -/

/-- What is kept of the line breaks at the end of a block scalar. -/
inductive Chomping where
  | strip
  | clip
  | keep
  deriving DecidableEq, Repr

def chomping? : Char → Option Chomping
  | '+' => some .keep
  | '-' => some .strip
  | _ => none

/-- The indicators of a block scalar: chomping and indent, in either order. -/
def readIndicators (c : Cursor) : Option (Chomping × Option Nat × Cursor) := do
  let digit? (ch : Char) : Option Nat :=
    if '0' ≤ ch && ch ≤ '9' then some (ch.toNat - '0'.toNat) else none
  let (chomping, indent, c) :=
    match chomping? c.peek, digit? c.peek with
    | some chomping, _ =>
      match digit? c.next.peek with
      | some n => (chomping, some n, c.skip 2)
      | none => (chomping, none, c.next)
    | none, some n =>
      match chomping? c.next.peek with
      | some chomping => (chomping, some n, c.skip 2)
      | none => (.clip, some n, c.next)
    | none, none => (.clip, none, c)
  guard (indent != some 0 && isSpaceOrEnd c.peek)
  return (chomping, indent, c)

/-- Moves past the rest of a line that may hold a comment only. -/
def skipLineRest (c : Cursor) : Option Cursor :=
  let c := c.skipSpaces.skipComment
  if isBreakOrEnd c.peek then some c.readBreak.2 else none

/-- The line breaks before the first line of a block scalar, and its deepest indent. -/
def readLeadingBreaks : Nat → Nat → Cursor → List Char × Nat × Cursor
  | 0, deepest, c => ([], deepest, c)
  | fuel + 1, deepest, c =>
    if c.peek = ' ' then readLeadingBreaks fuel (max deepest c.next.column) c.next
    else if isBreak c.peek then
      let (first, c) := c.readBreak
      let (more, deepest, c) := readLeadingBreaks fuel deepest c
      (first ++ more, deepest, c)
    else ([], deepest, c)

def skipIndent : Nat → Int → Cursor → Cursor
  | 0, _, c => c
  | fuel + 1, indent, c =>
    if (c.column : Int) < indent && c.peek = ' ' then skipIndent fuel indent c.next else c

def readBlockBreaks (indent : Int) : Nat → Cursor → List Char × Cursor
  | 0, c => ([], c)
  | fuel + 1, c =>
    let c := skipIndent (c.rest.length + 1) indent c
    if isBreak c.peek then
      let (first, c) := c.readBreak
      let (more, c) := readBlockBreaks indent fuel c
      (first ++ more, c)
    else ([], c)

def atBlockLine (indent : Int) (c : Cursor) : Bool :=
  (c.column : Int) = indent && c.peek != endMark

/-- The lines of a block scalar, after the given breaks. Yields the text, the break of the last
line, and the breaks after it. -/
def readBlockLines (folded : Bool) (indent : Int) :
    Nat → List Char → Cursor → List Char × List Char × List Char × Cursor
  | 0, breaks, c => ([], [], breaks, c)
  | fuel + 1, breaks, c =>
    let startsPlain := !(c.peek = ' ' || c.peek = '\t')
    let line := c.takeWhile (!isBreak ·)
    let (lineBreak, c) := (c.skip line.length).readBreak
    let (after, c) := readBlockBreaks indent (c.rest.length + 1) c
    if atBlockLine indent c then
      let joint :=
        if folded && lineBreak = ['\n'] && startsPlain && !(c.peek = ' ' || c.peek = '\t') then
          (if after.isEmpty then [' '] else [])
        else lineBreak
      let (more, lastBreak, tail, c) := readBlockLines folded indent fuel after c
      (breaks ++ line ++ joint ++ more, lastBreak, tail, c)
    else (breaks ++ line, lineBreak, after, c)

def readBlock (parentIndent : Int) (c : Cursor) : Option (Text × Cursor) := do
  let folded := c.peek = '>'
  let (chomping, increment, c) ← readIndicators c.next
  let c ← skipLineRest c
  let least := max (parentIndent + 1) 1
  let fuel := c.rest.length + 1
  let (breaks, indent, c) :=
    match increment with
    | none =>
      let (breaks, deepest, c) := readLeadingBreaks fuel 0 c
      (breaks, max least (deepest : Int), c)
    | some n =>
      let indent := least + n - 1
      let (breaks, c) := readBlockBreaks indent fuel c
      (breaks, indent, c)
  let (text, lastBreak, tail, c) :=
    if atBlockLine indent c then readBlockLines folded indent fuel breaks c
    else ([], [], breaks, c)
  let ending := match chomping with
    | .strip => []
    | .clip => lastBreak
    | .keep => lastBreak ++ tail
  return (.ofChars (text ++ ending), c)

end TraceExplorer.Yaml
