import TraceExplorer.Yaml.ScalarText

/-!
# YAML tokens

A YAML text is cut into tokens. Collections written by indentation get tokens for their start and
end, and a mapping key gets a token in front of it as soon as the colon after it is seen. Tokens
are handed out one by one, but never one that may still turn out to be a key. If the text has a
flaw, only the tokens that were handed out before it was met are its tokens.
-/

namespace TraceExplorer.Yaml

open Number (isAsciiDigit natOfDigits digitLimit)

/-- How a tag is written: with a handle that stands for the first part, or whole. -/
structure TagText where
  handle : Option String
  rest : String
  deriving DecidableEq, Repr

inductive Directive where
  | version (major : Nat)
  | tagHandle (handle meaning : String)
  | other
  deriving DecidableEq, Repr

inductive Token where
  | directive (d : Directive)
  | documentStart
  | documentEnd
  | blockSequenceStart
  | blockMappingStart
  | blockEnd
  | flowSequenceStart
  | flowSequenceEnd
  | flowMappingStart
  | flowMappingEnd
  | blockEntry
  | flowEntry
  | key
  | value
  | alias (name : String)
  | anchor (name : String)
  | tag (t : TagText)
  | scalar (text : Text) (plain : Bool)
  | textEnd
  deriving DecidableEq, Repr

/-- A place where a key may have started: how many tokens came before it, whether a colon must
follow, and where it stands. -/
structure PossibleKey where
  tokensBefore : Nat
  required : Bool
  index : Nat
  line : Nat
  column : Nat

/-- The state of cutting a text into tokens: the place, the tokens so far, the depth of flow
collections, the indents of open block collections, whether a key may start here, and where keys
may have started, by depth. -/
structure Scan where
  cursor : Cursor
  tokens : Array Token := #[]
  flowDepth : Nat := 0
  indent : Int := -1
  outerIndents : List Int := []
  keyAllowed : Bool := true
  possibleKeys : List (Nat × PossibleKey) := []

namespace Scan

def inFlow (s : Scan) : Bool := 0 < s.flowDepth

def emit (s : Scan) (t : Token) : Scan := { s with tokens := s.tokens.push t }

def skip (s : Scan) (n : Nat) : Scan := { s with cursor := s.cursor.skip n }

/-! ## Keys and indentation -/

/-- Forgets the possible key at the current depth; a required one may not be forgotten. -/
def forgetKey (s : Scan) : Option Scan :=
  match s.possibleKeys.lookup s.flowDepth with
  | some key =>
    if key.required then none
    else some { s with possibleKeys := s.possibleKeys.filter (·.1 != s.flowDepth) }
  | none => some s

def noteKey (s : Scan) : Option Scan :=
  if !s.keyAllowed then some s
  else do
    let required := !s.inFlow && s.indent == (s.cursor.column : Int)
    let forgotten ← s.forgetKey
    let key : PossibleKey :=
      ⟨s.tokens.size, required, s.cursor.index, s.cursor.line, s.cursor.column⟩
    return { forgotten with possibleKeys := (s.flowDepth, key) :: forgotten.possibleKeys }

/-- A key must be on one line and within 1024 characters. -/
def isStale (s : Scan) (key : PossibleKey) : Bool :=
  key.line != s.cursor.line || 1024 < s.cursor.index - key.index

def forgetStaleKeys (s : Scan) : Option Scan :=
  if s.possibleKeys.any fun (_, key) => s.isStale key && key.required then none
  else some { s with possibleKeys := s.possibleKeys.filter fun (_, key) => !s.isStale key }

def unwindFrom (column : Int) : List Int → Scan → Scan
  | [], s => s
  | outer :: rest, s =>
    if column < s.indent then
      unwindFrom column rest { s.emit .blockEnd with indent := outer, outerIndents := rest }
    else s

/-- Ends block collections down to a column; flow collections ignore indentation. -/
def unwind (s : Scan) (column : Int) : Scan :=
  if s.inFlow then s else unwindFrom column s.outerIndents s

/-- Starts a block collection at a column, if it is deeper than the open ones. -/
def indentTo (s : Scan) (column : Nat) : Option Scan :=
  if s.indent < column then
    some { s with indent := column, outerIndents := s.indent :: s.outerIndents }
  else none

def openBlock (s : Scan) (t : Token) : Scan :=
  match s.indentTo s.cursor.column with
  | some deeper => deeper.emit t
  | none => s

/-! ## Blanks between tokens -/

/-- Moves past spaces, comments and line breaks. A key may start on a new line of a block. -/
def skipBlanks : Nat → Scan → Scan
  | 0, s => s
  | fuel + 1, s =>
    let c := s.cursor.skipSpaces.skipComment
    if isBreak c.peek then
      skipBlanks fuel
        { s with cursor := c.readBreak.2, keyAllowed := s.keyAllowed || !s.inFlow }
    else { s with cursor := c }

/-- Moves to the next token; a byte order mark at the start of the text is no token. -/
def toNextToken (s : Scan) : Scan :=
  let c := s.cursor
  let start := if c.index = 0 && c.peek = '\uFEFF' then { s with cursor := c.next } else s
  skipBlanks (c.rest.length + 1) start

/-! ## Directives -/

def isNameChar (c : Char) : Bool := c.isAlphanum || c = '-' || c = '_'

def readName (c : Cursor) : Option (String × Cursor) :=
  let name := c.takeWhile isNameChar
  if name.isEmpty then none else some (String.ofList name, c.skip name.length)

def isTagChar (c : Char) : Bool :=
  c.isAlphanum || "-;/?:@&=+$,_.!~*'()[]%".toList.contains c

/-- Replaces escapes of a percent sign and two hexadecimal digits by the bytes they name. -/
def decodeTag : List Char → Option (List UInt8)
  | [] => some []
  | '%' :: a :: b :: rest => do
    let code ← hexNumber? 2 [a, b]
    let more ← decodeTag rest
    return code.toUInt8 :: more
  | '%' :: _ => none
  | c :: rest => do
    let more ← decodeTag rest
    return c.toNat.toUInt8 :: more

def readTagName (c : Cursor) : Option (String × Cursor) := do
  let name := c.takeWhile isTagChar
  guard !name.isEmpty
  let bytes ← decodeTag name
  let text ← String.fromUTF8? ⟨bytes.toArray⟩
  return (text, c.skip name.length)

/-- A handle between exclamation marks, or a lone one before a space. -/
def readHandle (c : Cursor) : Option (String × Cursor) := do
  guard (c.peek = '!')
  let name := c.next.takeWhile isNameChar
  let after := c.skip (name.length + 1)
  if c.peek 1 != ' ' then
    guard (after.peek = '!')
    return ("!" ++ String.ofList name ++ "!", after.next)
  else return ("!", c.next)

/-- A number and the place after it. Only the number of digits is limited. -/
def readVersionNumber (c : Cursor) : Except Flaw (Nat × Cursor) := do
  let digits := c.takeWhile isAsciiDigit
  if digits.isEmpty then throw .malformed
  if digitLimit < digits.length then throw .versionTooLong
  return (natOfDigits digits, c.skip digits.length)

def readVersion (c : Cursor) : Except Flaw (Directive × Cursor) := do
  let (major, c) ← readVersionNumber c
  if c.peek != '.' then throw .malformed
  let (_, c) ← readVersionNumber c.next
  if !isSpaceOrEnd c.peek then throw .malformed
  return (.version major, c)

def readTagHandle (c : Cursor) : Option (Directive × Cursor) := do
  let (handle, c) ← readHandle c
  guard (c.peek = ' ')
  let (meaning, c) ← readTagName c.skipSpaces
  guard (isSpaceOrEnd c.peek)
  return (.tagHandle handle meaning, c)

def readDirectiveBody (name : String) (c : Cursor) : Except Flaw (Directive × Cursor) :=
  match name with
  | "YAML" => readVersion c.skipSpaces
  | "TAG" => orMalformed (readTagHandle c.skipSpaces)
  | _ => .ok (.other, c.skipWhile (!isBreak ·))

def readDirective (c : Cursor) : Except Flaw (Directive × Cursor) := do
  let (name, c) ← orMalformed (readName c.next)
  if !isSpaceOrEnd c.peek then throw .malformed
  let (d, c) ← readDirectiveBody name c
  let c ← orMalformed (skipLineRest c)
  return (d, c)

/-! ## Properties of nodes -/

def readAnchorName (c : Cursor) : Option (String × Cursor) := do
  let (name, c) ← readName c.next
  guard (isGapOrEnd c.peek || "?:,]\x7d%@\x60".toList.contains c.peek)
  return (name, c)

def readTag (c : Cursor) : Option (TagText × Cursor) := do
  let (t, c) ←
    if c.peek 1 = '<' then do
      let (name, c) ← readTagName (c.skip 2)
      guard (c.peek = '>')
      pure (({ handle := none, rest := name } : TagText), c.next)
    else if isGapOrEnd (c.peek 1) then
      pure (({ handle := none, rest := "!" } : TagText), c.next)
    else do
      let body := c.next.takeWhile fun ch => !isSpaceOrEnd ch
      let (handle, c) ← if body.contains '!' then readHandle c else some ("!", c.next)
      let (name, c) ← readTagName c
      pure (({ handle := some handle, rest := name } : TagText), c)
  guard (isSpaceOrEnd c.peek)
  return (t, c)

/-! ## One token -/

/-- A directive or a document marker: it ends all block collections. -/
def endBlocks (s : Scan) : Option Scan := do
  let s ← (s.unwind (-1)).forgetKey
  return { s with keyAllowed := false }

def startNode (s : Scan) : Option Scan := do
  let s ← s.noteKey
  return { s with keyAllowed := false }

def fetchFlowStart (s : Scan) (t : Token) : Option Scan := do
  let s ← s.noteKey
  return { (s.skip 1).emit t with flowDepth := s.flowDepth + 1, keyAllowed := true }

def fetchFlowEnd (s : Scan) (t : Token) : Option Scan := do
  guard s.inFlow
  let s ← s.forgetKey
  return { (s.skip 1).emit t with flowDepth := s.flowDepth - 1, keyAllowed := false }

def fetchFlowEntry (s : Scan) : Option Scan := do
  let s ← s.forgetKey
  return { (s.skip 1).emit .flowEntry with keyAllowed := true }

def fetchBlockEntry (s : Scan) : Option Scan := do
  guard (s.inFlow || s.keyAllowed)
  let s ← (if s.inFlow then s else s.openBlock .blockSequenceStart).forgetKey
  return { (s.skip 1).emit .blockEntry with keyAllowed := true }

def fetchKey (s : Scan) : Option Scan := do
  guard (s.inFlow || s.keyAllowed)
  let s ← (if s.inFlow then s else s.openBlock .blockMappingStart).forgetKey
  return { (s.skip 1).emit .key with keyAllowed := !s.inFlow }

/-- Puts tokens in front of a key that was read before. -/
def insertTokens (s : Scan) (position : Nat) (ts : List Token) : Scan :=
  let all := s.tokens.toList
  { s with tokens := (all.take position ++ ts ++ all.drop position).toArray }

/-- A colon before a value. What stood before it on the line may turn out to be a key. -/
def fetchValue (s : Scan) : Option Scan :=
  match s.possibleKeys.lookup s.flowDepth with
  | some key =>
    let s := { s with
      possibleKeys := s.possibleKeys.filter (·.1 != s.flowDepth)
      keyAllowed := false }
    let keyed :=
      match if s.inFlow then none else s.indentTo key.column with
      | some deeper => deeper.insertTokens key.tokensBefore [.blockMappingStart, .key]
      | none => s.insertTokens key.tokensBefore [.key]
    some ((keyed.skip 1).emit .value)
  | none => do
    guard (s.inFlow || s.keyAllowed)
    let s ← (if s.inFlow then s else s.openBlock .blockMappingStart).forgetKey
    return { (s.skip 1).emit .value with keyAllowed := !s.inFlow }

def emitRead {α : Type} (s : Scan) (token : α → Token) (p : α × Cursor) : Scan :=
  { s.emit (token p.1) with cursor := p.2 }

def fetchProperty {α : Type} (s : Scan) (token : α → Token)
    (read : Cursor → Option (α × Cursor)) : Option Scan := do
  let ready ← s.startNode
  return ready.emitRead token (← read s.cursor)

def fetchQuoted (s : Scan) : Except Flaw Scan := do
  let ready ← orMalformed s.startNode
  return ready.emitRead (.scalar · false) (← readQuoted s.cursor)

def fetchBlock (s : Scan) : Option Scan := do
  let ready ← s.forgetKey
  return { ready with keyAllowed := true }.emitRead (.scalar · false)
    (← readBlock s.indent s.cursor)

def fetchDirective (s : Scan) : Except Flaw Scan := do
  let ready ← orMalformed s.endBlocks
  return ready.emitRead .directive (← readDirective s.cursor)

def fetchMarker (s : Scan) (t : Token) : Option Scan := do
  return ((← s.endBlocks).skip 3).emit t

/-- A plain scalar may start with this character, given the one after it. -/
def startsPlain (inFlow : Bool) (c following : Char) : Bool :=
  !(isGapOrEnd c || "-?:,[]\x7b\x7d#&*!|>'\"%@\x60".toList.contains c)
    || (!isGapOrEnd following && (c = '-' || (!inFlow && (c = '?' || c = ':'))))

def fetchPlain (s : Scan) : Option Scan := do
  let s ← s.startNode
  let (text, endsLine, c) := readPlain s.inFlow s.indent s.cursor
  return { s.emit (.scalar text true) with cursor := c, keyAllowed := endsLine }

/-- Reads a token that starts with one of the characters that start nothing else, or with a mark
that needs a gap after it, or a plain scalar. -/
def fetchOther (s : Scan) (first : Char) : Option Scan :=
  let c := s.cursor
  let following := c.peek 1
  let atLineStart := c.column = 0
  if first = '-' && atLineStart && c.atMarker then s.fetchMarker .documentStart
  else if first = '.' && atLineStart && c.atMarker then s.fetchMarker .documentEnd
  else if first = '-' && isGapOrEnd following then s.fetchBlockEntry
  else if first = '?' && (s.inFlow || isGapOrEnd following) then s.fetchKey
  else if first = ':' && (s.inFlow || isGapOrEnd following) then s.fetchValue
  else if (first = '|' || first = '>') && !s.inFlow then s.fetchBlock
  else if startsPlain s.inFlow first following then s.fetchPlain
  else none

def fetch (s : Scan) : Except Flaw Scan :=
  match s.cursor.peek with
  | '[' => orMalformed (s.fetchFlowStart .flowSequenceStart)
  | '{' => orMalformed (s.fetchFlowStart .flowMappingStart)
  | ']' => orMalformed (s.fetchFlowEnd .flowSequenceEnd)
  | '}' => orMalformed (s.fetchFlowEnd .flowMappingEnd)
  | ',' => orMalformed s.fetchFlowEntry
  | '*' => orMalformed (s.fetchProperty .alias readAnchorName)
  | '&' => orMalformed (s.fetchProperty .anchor readAnchorName)
  | '!' => orMalformed (s.fetchProperty .tag readTag)
  | '\'' | '"' => s.fetchQuoted
  | first =>
    if first = '%' && s.cursor.column = 0 then s.fetchDirective
    else orMalformed (s.fetchOther first)

def fetchEnd (s : Scan) : Option Scan := do
  let done ← (s.unwind (-1)).forgetKey
  return done.emit .textEnd

/-- The number of tokens that can be handed out: those in front of the first one that may still
turn out to be a key. -/
def handedOut (s : Scan) : Nat :=
  s.possibleKeys.foldl (fun n (_, key) => min n key.tokensBefore) s.tokens.size

def advance (s : Scan) : Option Scan := do
  let ready ← s.toNextToken.forgetStaleKeys
  return ready.unwind ready.cursor.column

end Scan

/-- The tokens of a text that are handed out, and the flaw met after the last one, if the text
has one. -/
structure TokenList where
  tokens : List Token
  flaw : Option Flaw := none

namespace Scan

def stop (s : Scan) (flaw : Flaw) : TokenList := ⟨s.tokens.toList.take s.handedOut, some flaw⟩

def run (s : Scan) : Nat → TokenList
  | 0 => s.stop .malformed
  | fuel + 1 =>
    match s.advance with
    | none => s.stop .malformed
    | some ready =>
      if ready.cursor.rest.isEmpty then
        match ready.fetchEnd with
        | some done => ⟨done.tokens.toList, none⟩
        | none => s.stop .malformed
      else
        match ready.fetch with
        | .error flaw => s.stop flaw
        | .ok fetched =>
          match fetched.forgetStaleKeys with
          | some after => after.run fuel
          | none => s.stop .malformed

end Scan

/-- The tokens of a text. It may hold only characters that YAML allows. Every token takes at least
one of them. -/
def TokenList.ofText (text : String) : TokenList :=
  let chars := text.toList
  if chars.all isAllowed then Scan.run { cursor := { rest := chars } } (chars.length + 1)
  else ⟨[], some .malformed⟩

end TraceExplorer.Yaml
