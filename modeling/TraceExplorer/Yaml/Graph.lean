import TraceExplorer.Yaml.Plain
import TraceExplorer.Yaml.Token

/-!
# The nodes of a document

The tokens of a text form one document. Its nodes are scalars, sequences and mappings, each with a
tag. A node with an anchor is known by it from its start on, so an alias inside a collection may
name the collection itself, and the nodes form a graph: a collection holds the numbers of other
nodes.
-/

namespace TraceExplorer.Yaml

/-- What a node holds; the parts of a collection are given by the numbers of their nodes. -/
inductive Content where
  | scalar (text : Text)
  | sequence (items : List Nat)
  | mapping (entries : List (Nat × Nat))
  deriving DecidableEq, Repr

structure Node where
  tag : Tag
  content : Content
  deriving DecidableEq, Repr

def contentOf? (nodes : Array Node) (number : Nat) : Option Content :=
  nodes[number]?.map fun node => node.content

def isTagged (nodes : Array Node) (number : Nat) (tag : Tag) : Bool :=
  nodes[number]?.any fun node => node.tag = tag

/-- The nodes of a document by their numbers, and the number of the top node. -/
structure Graph where
  nodes : Array Node
  top : Nat

namespace Graph

inductive Stop where
  | malformed
  | tooDeep
  /-- The tokens end before it is clear whether they form one. -/
  | outOfTokens
  deriving DecidableEq, Repr

/-- The rest of the tokens, and what is known after some were read: what handles stand for, the
nodes that have anchors, and all nodes. -/
structure Progress where
  tokens : List Token
  handles : List (String × String) := []
  anchors : List (String × Nat) := []
  nodes : Array Node := #[]

abbrev Reading := StateT Progress (Except Stop)

/-- The most collections that may stand inside each other. The format sets no limit: this is the
room that the stack of one interpreter leaves to the reader when it is called at one depth. -/
def depthLimit : Nat := 490

/-! ## Tokens -/

def peek : Reading Token := do
  match (← get).tokens with
  | t :: _ => return t
  | [] => throw .outOfTokens

def skip : Reading Unit := modify fun p => { p with tokens := p.tokens.tail }

def isAt (ts : List Token) : Reading Bool := return ts.contains (← peek)

def expect (t : Token) : Reading Unit := do
  if (← peek) = t then skip else throw .malformed

/-! ## Properties -/

structure Properties where
  anchor : Option String := none
  tag : Option TagText := none

def readAnchor? : Reading (Option String) := do
  match ← peek with
  | .anchor name =>
    skip
    return some name
  | _ => return none

def readTag? : Reading (Option TagText) := do
  match ← peek with
  | .tag t =>
    skip
    return some t
  | _ => return none

/-- Reads the properties in front of a node, in either order. -/
def readProperties : Reading Properties := do
  match ← readAnchor? with
  | some name => return { anchor := name, tag := ← readTag? }
  | none =>
    match ← readTag? with
    | some t => return { anchor := ← readAnchor?, tag := t }
    | none => return {}

def tagName (t : TagText) : Reading String := do
  match t.handle with
  | none => return t.rest
  | some handle =>
    match (← get).handles.lookup handle with
    | some meaning => return meaning ++ t.rest
    | none => throw .malformed

/-- The tag of a scalar. A lone exclamation mark asks for the reading by form, in quotes too. -/
def scalarTag (name : Option String) (text : Text) (plain : Bool) : Tag :=
  match name with
  | none => if plain then .ofPlain text else .text
  | some "!" => .ofPlain text
  | some name => .ofName name

def collectionTag (name : Option String) (usual : Tag) : Tag :=
  match name with
  | none | some "!" => usual
  | some name => .ofName name

/-! ## Nodes -/

/-- An anchor is given only once. -/
def checkAnchor (anchor : Option String) : Reading Unit := do
  match anchor with
  | none => return
  | some name => if ((← get).anchors.lookup name).isSome then throw .malformed

/-- Adds a node, known by its anchor from now on, and yields its number. -/
def addNode (anchor : Option String) (node : Node) : Reading Nat := do
  let p ← get
  let number := p.nodes.size
  set { p with
    nodes := p.nodes.push node
    anchors := (anchor.map fun name => (name, number)).toList ++ p.anchors }
  return number

def addEmpty : Reading Nat := addNode none ⟨.null, .scalar .empty⟩

def setContent (number : Nat) (content : Content) : Reading Unit :=
  modify fun p => { p with nodes := p.nodes.modify number fun node => { node with content } }

/-- Adds a collection: its number is known before its parts are read. -/
def addCollection (anchor : Option String) (tag : Tag) (empty : Content)
    (readParts : Reading Content) : Reading Nat := do
  let number ← addNode anchor ⟨tag, empty⟩
  setContent number (← readParts)
  return number

/-- Where a node stands: in a block, in a block after a mapping's key or value, where a sequence
need not be indented, or in a flow collection. -/
inductive Place where
  | block
  | blockEntry
  | flow
  deriving DecidableEq

mutual

def readNode (place : Place) (depth : Nat) : Nat → Reading Nat
  | 0 => throw .malformed
  | fuel + 1 => do
    match ← peek with
    | .alias name =>
      skip
      match (← get).anchors.lookup name with
      | some number => return number
      | none => throw .malformed
    | _ =>
      let properties ← readProperties
      let name ← properties.tag.mapM tagName
      readContent place depth properties.anchor name fuel
termination_by structural fuel => fuel

/-- Reads the content of a node; only after properties it may be left out. -/
def readContent (place : Place) (depth : Nat) (anchor name : Option String) :
    Nat → Reading Nat
  | 0 => throw .malformed
  | fuel + 1 => do
    let first ← peek
    match first, place with
    | .scalar text plain, _ =>
      skip
      checkAnchor anchor
      addNode anchor ⟨scalarTag name text plain, .scalar text⟩
    | .flowSequenceStart, _ | .flowMappingStart, _ | .blockEntry, .blockEntry
    | .blockSequenceStart, .block | .blockSequenceStart, .blockEntry
    | .blockMappingStart, .block | .blockMappingStart, .blockEntry =>
      checkAnchor anchor
      readCollection depth anchor name first fuel
    | _, _ =>
      if anchor.isNone && name.isNone then throw .malformed
      checkAnchor anchor
      addNode anchor ⟨scalarTag name .empty true, .scalar .empty⟩
termination_by structural fuel => fuel

def readCollection (depth : Nat) (anchor name : Option String) (first : Token) :
    Nat → Reading Nat
  | 0 => throw .malformed
  | fuel + 1 => do
    if depth = 0 then throw .tooDeep
    let asSequence := collectionTag name .sequence
    let asMapping := collectionTag name .mapping
    match first with
    | .flowSequenceStart =>
      skip
      addCollection anchor asSequence (.sequence [])
        ((readFlowItems (depth - 1) true fuel).map .sequence)
    | .flowMappingStart =>
      skip
      addCollection anchor asMapping (.mapping [])
        ((readFlowEntries (depth - 1) true fuel).map .mapping)
    | .blockSequenceStart =>
      skip
      addCollection anchor asSequence (.sequence [])
        ((readItems (depth - 1) fuel).map .sequence)
    | .blockMappingStart =>
      skip
      addCollection anchor asMapping (.mapping [])
        ((readEntries (depth - 1) fuel).map .mapping)
    | _ =>
      addCollection anchor asSequence (.sequence [])
        ((readOpenItems (depth - 1) fuel).map .sequence)
termination_by structural fuel => fuel

/-- Reads a node, or an empty one in front of a token that ends it. -/
def readUnless (ends : List Token) (place : Place) (depth : Nat) : Nat → Reading Nat
  | 0 => throw .malformed
  | fuel + 1 => do if ← isAt ends then addEmpty else readNode place depth fuel
termination_by structural fuel => fuel

def readValue (ends : List Token) (place : Place) (depth : Nat) : Nat → Reading Nat
  | 0 => throw .malformed
  | fuel + 1 => do
    if ← isAt [.value] then
      skip
      readUnless ends place depth fuel
    else addEmpty
termination_by structural fuel => fuel

def readItems (depth : Nat) : Nat → Reading (List Nat)
  | 0 => throw .malformed
  | fuel + 1 => do
    if ← isAt [.blockEntry] then
      skip
      let item ← readUnless [.blockEntry, .blockEnd] .block depth fuel
      return item :: (← readItems depth fuel)
    else
      expect .blockEnd
      return []
termination_by structural fuel => fuel

def readOpenItems (depth : Nat) : Nat → Reading (List Nat)
  | 0 => throw .malformed
  | fuel + 1 => do
    if ← isAt [.blockEntry] then
      skip
      let item ← readUnless [.blockEntry, .key, .value, .blockEnd] .block depth fuel
      return item :: (← readOpenItems depth fuel)
    else return []
termination_by structural fuel => fuel

def readEntries (depth : Nat) : Nat → Reading (List (Nat × Nat))
  | 0 => throw .malformed
  | fuel + 1 => do
    if ← isAt [.key] then
      skip
      let ends := [.key, .value, .blockEnd]
      let key ← readUnless ends .blockEntry depth fuel
      let value ← readValue ends .blockEntry depth fuel
      return (key, value) :: (← readEntries depth fuel)
    else
      expect .blockEnd
      return []
termination_by structural fuel => fuel

def readFlowItems (depth : Nat) (first : Bool) : Nat → Reading (List Nat)
  | 0 => throw .malformed
  | fuel + 1 => do
    if ← isAt [.flowSequenceEnd] then
      skip
      return []
    if !first then
      expect .flowEntry
      if ← isAt [.flowSequenceEnd] then
        skip
        return []
    let item ← readFlowItem depth fuel
    return item :: (← readFlowItems depth false fuel)
termination_by structural fuel => fuel

/-- Reads an item of a flow sequence; a key makes it a mapping of one entry. -/
def readFlowItem (depth : Nat) : Nat → Reading Nat
  | 0 => throw .malformed
  | fuel + 1 => do
    if ← isAt [.key] then
      skip
      if depth = 0 then throw .tooDeep
      addCollection none .mapping (.mapping [])
        ((readPair .flowSequenceEnd (depth - 1) fuel).map fun entry => .mapping [entry])
    else readNode .flow depth fuel
termination_by structural fuel => fuel

def readPair (close : Token) (depth : Nat) : Nat → Reading (Nat × Nat)
  | 0 => throw .malformed
  | fuel + 1 => do
    let key ← readUnless [.value, .flowEntry, close] .flow depth fuel
    let value ← readValue [.flowEntry, close] .flow depth fuel
    return (key, value)
termination_by structural fuel => fuel

def readFlowEntries (depth : Nat) (first : Bool) : Nat → Reading (List (Nat × Nat))
  | 0 => throw .malformed
  | fuel + 1 => do
    if ← isAt [.flowMappingEnd] then
      skip
      return []
    if !first then
      expect .flowEntry
      if ← isAt [.flowMappingEnd] then
        skip
        return []
    let entry ← readFlowEntry depth fuel
    return entry :: (← readFlowEntries depth false fuel)
termination_by structural fuel => fuel

/-- Reads an entry of a flow mapping; a node without a key token has no value. -/
def readFlowEntry (depth : Nat) : Nat → Reading (Nat × Nat)
  | 0 => throw .malformed
  | fuel + 1 => do
    if ← isAt [.key] then
      skip
      readPair .flowMappingEnd depth fuel
    else
      let key ← readNode .flow depth fuel
      return (key, ← addEmpty)
termination_by structural fuel => fuel

end

/-! ## Documents -/

def standardHandles : List (String × String) := [("!", "!"), ("!!", Tag.standardPrefix)]

/-- The directives in front of a document. At most one names a version, which must be 1, and no
handle is declared twice. -/
structure Preamble where
  versionSeen : Bool := false
  declared : List (String × String) := []

def Preamble.add (p : Preamble) : Directive → Option Preamble
  | .version major =>
    if p.versionSeen || major != 1 then none else some { p with versionSeen := true }
  | .tagHandle handle meaning =>
    if (p.declared.lookup handle).isSome then none
    else some { p with declared := (handle, meaning) :: p.declared }
  | .other => some p

def readPreamble (p : Preamble) : Nat → Reading Preamble
  | 0 => return p
  | fuel + 1 => do
    match ← peek with
    | .directive d =>
      match p.add d with
      | some more =>
        skip
        readPreamble more fuel
      | none => throw .malformed
    | _ => return p

def skipDocumentEnds : Nat → Reading Unit
  | 0 => return
  | fuel + 1 => do
    if ← isAt [.documentEnd] then
      skip
      skipDocumentEnds fuel

/-- Nothing may follow the only document; the directives of another one are still read. -/
def expectEnd (fuel : Nat) : Reading Unit := do
  skipDocumentEnds fuel
  if !(← isAt [.textEnd]) then
    let _ ← readPreamble {} fuel
    let _ ← peek
    throw .malformed

def readExplicit (fuel : Nat) : Reading Nat := do
  let preamble ← readPreamble {} fuel
  expect .documentStart
  modify fun p => { p with handles := preamble.declared ++ standardHandles }
  match ← peek with
  | .directive _ | .documentStart | .documentEnd | .textEnd => addEmpty
  | _ => readNode .block depthLimit fuel

def readDocument (fuel : Nat) : Reading (Option Nat) := do
  let top ← match ← peek with
    | .textEnd => return none
    | .directive _ | .documentStart => readExplicit fuel
    | _ =>
      modify fun p => { p with handles := standardHandles }
      readNode .block depthLimit fuel
  expectEnd fuel
  return some top

def ofTokens (tokens : List Token) : Except Stop (Option Graph) := do
  let (top, p) ← (readDocument (8 * tokens.length + 16)).run { tokens }
  return top.map fun number => { nodes := p.nodes, top := number }

end Graph

end TraceExplorer.Yaml
