/-!
# Tags

A tag says what a node is. YAML names its own tags with a common first part; every other name is
a tag that no value stands for.
-/

namespace TraceExplorer.Yaml

inductive Tag where
  | null
  | bool
  | int
  | float
  | binary
  | timestamp
  | text
  | sequence
  | mapping
  | set
  /-- A list of pairs that is to be read as an ordered mapping. -/
  | orderedMapping
  | pairs
  /-- The key under which a mapping takes over the entries of others. -/
  | merge
  /-- The key of the value that stands for a mapping as a whole. -/
  | default
  | other
  deriving DecidableEq, Repr

namespace Tag

def standardPrefix : String := "tag:yaml.org,2002:"

def standardNames : List (String × Tag) :=
  [("null", null), ("bool", bool), ("int", int), ("float", float), ("binary", binary),
    ("timestamp", timestamp), ("str", text), ("seq", sequence), ("map", mapping), ("set", set),
    ("omap", orderedMapping), ("pairs", pairs), ("merge", merge), ("value", default)]

def ofName (name : String) : Tag :=
  ((standardNames.find? fun (short, _) => standardPrefix ++ short = name).map (·.2)).getD other

def isCollection : Tag → Bool
  | sequence | mapping | set | orderedMapping | pairs => true
  | _ => false

end Tag

end TraceExplorer.Yaml
