import TraceExplorer.Yaml.Graph

/-!
# Merge keys

A mapping takes over the entries of the mappings that stand under its merge keys. They come in
front of its own entries, which so have the last word. Mappings may name each other and
themselves, so the nodes are changed in place: each merge key is taken out before its value is
looked at, and there are fewer of them after every step.
-/

namespace TraceExplorer.Yaml.Merge

/-- Merging in progress on the nodes of a document; it stops at a value that is no mapping. -/
abbrev Merging := StateT (Array Node) Option

abbrev Entry := Nat × Nat

def isMerge (nodes : Array Node) (entry : Entry) : Bool :=
  isTagged nodes entry.1 .merge

def entries (number : Nat) : Merging (List Entry) := do
  match contentOf? (← get) number with
  | some (.mapping own) => return own
  | _ => failure

def setEntries (number : Nat) (all : List Entry) : Merging Unit :=
  modify fun nodes => nodes.modify number fun node => { node with content := .mapping all }

/-- A key that stands for a value as a whole is read as a text. -/
def readAsText (number : Nat) : Merging Unit :=
  modify fun nodes => nodes.modify number fun node =>
    if node.tag = .default then { node with tag := .text } else node

def finish (number : Nat) (taken own : List Entry) : Merging (List Entry) := do
  setEntries number (taken ++ own)
  own.forM fun entry => readAsText entry.1
  return taken ++ own

/-- Merges the mapping with the given number, with some entries already taken over, and yields
its entries. Of a list of mappings the first has the last word. -/
def merge (number : Nat) (taken : List Entry) : Nat → Merging (List Entry)
  | 0 => failure
  | fuel + 1 => do
    let own ← entries number
    let nodes ← get
    match own.find? (isMerge nodes) with
    | none => finish number taken own
    | some entry =>
      setEntries number (own.eraseP (isMerge nodes))
      let more ← match contentOf? nodes entry.2 with
        | some (.mapping _) => merge entry.2 [] fuel
        | some (.sequence items) => do
          let lists ← items.mapM fun item => merge item [] fuel
          pure lists.reverse.flatten
        | _ => failure
      merge number (taken ++ more) fuel

def mergeCount (nodes : Array Node) : Nat :=
  nodes.foldl (fun n node =>
    match node.content with
    | .mapping own => n + own.countP (isMerge nodes)
    | _ => n) 0

def merged? (nodes : Array Node) (number : Nat) : Option (List Entry × Array Node) :=
  (merge number [] (mergeCount nodes + 1)).run nodes

end TraceExplorer.Yaml.Merge
