import TraceExplorer.Yaml.Merge
import TraceExplorer.Yaml.ScalarValue
import TraceExplorer.Yaml.SetOrder

/-!
# The shapes of a document's values

The shape of a value says what it is, and names its parts by the numbers of their nodes. A list or
a mapping has its number before it has its parts, so it may be part of itself. Collections get
their parts in the order in which they were met; that order decides which of several faults is
found.
-/

namespace TraceExplorer.Yaml

/-- A value whose parts are given by the numbers of their nodes. -/
inductive Shape where
  /-- A value without parts, and the text it was read from. -/
  | plain (value : Value) (text : Text)
  | list (items : List Nat)
  | mapping (entries : List (Nat × Nat))
  | set (members : List Nat)
  | pairs (items : List (Nat × Nat))
  deriving Repr

namespace Shape

/-- The value has no parts, and so may be a key. -/
def isPlain : Shape → Bool
  | plain .. => true
  | _ => false

/-- Two shapes are one key. What is not a number is itself only in its usual spelling. -/
def sameKey : Shape → Shape → Bool
  | plain (.number (.real .nan)) s, plain (.number (.real .nan)) t => isUsualNan s && isUsualNan t
  | plain v _, plain w _ => v.sameKey w
  | _, _ => false

def empty : Tag → Shape
  | .mapping => mapping []
  | .set => set []
  | .orderedMapping | .pairs => pairs []
  | _ => list []

/-! ## Scalars -/

/-- The most mappings that may stand for each other. Like the depth of collections it is limited by
the stack of one interpreter only. -/
def chainLimit : Nat := 985

/-- The text of a node that is read as a scalar. A mapping has the text of its value under the key
that stands for it as a whole. -/
def textOf (nodes : Array Node) : Nat → Nat → Except Fault Text
  | 0, _ => .error (.failed .tooDeep)
  | depth + 1, number =>
    match contentOf? nodes number with
    | some (.scalar text) => .ok text
    | some (.mapping entries) =>
      match entries.find? fun (k, _) => isTagged nodes k .default with
      | some (_, value) => textOf nodes depth value
      | none => .error .malformed
    | _ => .error .malformed

/-- The value of a node that is read as a scalar. A moment is read from a scalar only. -/
def valueOf (node : Node) (text : Text) : Except Fault Value :=
  match node with
  | ⟨.timestamp, .mapping _⟩ => .error (.failed .unsuitable)
  | _ => scalarValue node.tag text

/-! ## Collections -/

/-- What is known while shapes are formed: the nodes, the shapes of those that were met, and the
collections that wait for their parts. -/
structure Progress where
  nodes : Array Node
  shapes : Array (Option Shape)
  waiting : List Nat := []

abbrev Forming := StateT Progress (Except Fault)

def found {α : Type} : Option α → Forming α
  | some a => return a
  | none => throw .malformed

def setShape (number : Nat) (shape : Shape) : Forming Unit :=
  modify fun p => { p with shapes := p.shapes.setIfInBounds number (some shape) }

/-- The shape of a node that is met for the first time; a collection waits for its parts. -/
def first (number : Nat) : Forming Shape := do
  let p ← get
  let node ← found p.nodes[number]?
  let shape ←
    if node.tag.isCollection then
      modify fun p => { p with waiting := p.waiting ++ [number] }
      pure (empty node.tag)
    else
      let text ← textOf p.nodes chainLimit number
      pure (.plain (← valueOf node text) text)
  setShape number shape
  return shape

def meet (number : Nat) : Forming Shape := do
  match (← get).shapes[number]?.join with
  | some shape => return shape
  | none => first number

def isSame (shapes : Array (Option Shape)) (k l : Nat) : Bool :=
  k = l || match shapes[k]?.join, shapes[l]?.join with
    | some s, some t => s.sameKey t
    | _, _ => false

/-- Sets the value of a key; a key that is known keeps its place. -/
def setEntry (same : Nat → Bool) (entry : Nat × Nat) (entries : List (Nat × Nat)) :
    List (Nat × Nat) :=
  if entries.any (same ·.1) then
    entries.map fun (k, v) => if same k then (k, entry.2) else (k, v)
  else entries ++ [entry]

def addEntry (entries : List (Nat × Nat)) (entry : Nat × Nat) : Forming (List (Nat × Nat)) := do
  if !(← meet entry.1).isPlain then throw .malformed
  let _ ← meet entry.2
  return setEntry (isSame (← get).shapes entry.1) entry entries

def entriesOf (number : Nat) : Forming (List (Nat × Nat)) := do
  let (entries, nodes) ← found (Merge.merged? (← get).nodes number)
  modify fun p => { p with nodes }
  entries.foldlM addEntry []

def pairOf (number : Nat) : Forming (Nat × Nat) := do
  match contentOf? (← get).nodes number with
  | some (.mapping [entry]) =>
    let _ ← meet entry.1
    let _ ← meet entry.2
    return entry
  | _ => throw .malformed

def full (number : Nat) : Forming Shape := do
  let node ← found (← get).nodes[number]?
  match node.tag, node.content with
  | .sequence, .sequence items =>
    for item in items do
      let _ ← meet item
    return list items
  | .mapping, .mapping _ => return mapping (← entriesOf number)
  | .set, .mapping _ => return set ((← entriesOf number).map (·.1))
  | .orderedMapping, .sequence items | .pairs, .sequence items =>
    return pairs (← items.mapM pairOf)
  | _, _ => throw .malformed

def fillWaiting : Nat → Forming Unit
  | 0 => return
  | fuel + 1 => do
    let p ← get
    match p.waiting with
    | [] => return
    | number :: rest =>
      modify fun p => { p with waiting := rest }
      setShape number (← full number)
      fillWaiting fuel

/-- The shapes of the nodes of a document. Every node waits at most once. -/
def ofGraph (g : Graph) : Except Fault (Array (Option Shape)) := do
  let start : Progress := { nodes := g.nodes, shapes := .replicate g.nodes.size none }
  let (_, p) ← (do
    let _ ← meet g.top
    fillWaiting g.nodes.size : Forming Unit).run start
  return p.shapes

/-! ## Values -/

/-- The value of a node inside the given collections, which are only named. -/
def value (shapes : Array (Option Shape)) : Nat → List Nat → Nat → Value
  | 0, _, _ => .null
  | depth + 1, around, number =>
    let inside := value shapes depth (number :: around)
    let isInside := around.contains number
    match shapes[number]?.join with
    | none => .null
    | some (.plain v _) => v
    | some (.list items) => if isInside then .enclosingList else .list (items.map inside)
    | some (.mapping entries) =>
      if isInside then .enclosingMapping
      else .mapping (entries.map fun (k, v) => (inside k, inside v))
    | some (.set members) => .set (SetOrder.arrange (members.map inside))
    | some (.pairs items) =>
      if isInside then .enclosingList else .pairs (items.map fun (k, v) => (inside k, inside v))

end Shape

end TraceExplorer.Yaml
