import TraceExplorer.Failure
import TraceExplorer.Trace.Basic
import TraceExplorer.Tree.Basic
import TraceExplorer.Tree.Group
import TraceExplorer.Tree.Parents

/-!
# The span tree of a trace

Spans of one id form a node, and a node stands under the node of its declared parent. With one
true root and no parent missing the tree has that root; otherwise it is headless and has several
top nodes, or one that is no true root. Siblings are ordered by time.
-/

namespace TraceExplorer

/-- The tree of a trace, as the trees of its top nodes. -/
structure TraceTree where
  /-- The groups of spans, in the order in which their ids first appear. -/
  groups : List SpanGroup
  /-- The top nodes with all below them, in order of time. -/
  branches : List (Tree SpanGroup)
  /-- There is no single true root. -/
  headless : Bool
  /-- The declared parents that are not in the trace, by the id that declares them. -/
  missingParents : List (Text × Text) := []
  /-- The ids whose parent link closed a circle and was cut. -/
  adopted : List Text := []

inductive BuildNote where
  | cycleCut (id : Text)
  | headless (top missing : Nat)
  deriving DecidableEq, Repr

def BuildNote.text : BuildNote → String
  | cycleCut id => "Parent cycle at span " ++ id.shown ++ "; adopting it as a root"
  | headless top missing =>
    s!"Headless trace: {top} top-level spans, {missing} with missing parents"

/-- A node of the tree with its place: the nodes directly below and those above, nearest first.
The declared parent of a top node that is missing from the trace comes last. -/
structure Placement where
  group : SpanGroup
  depth : Nat
  childIds : List Text
  ancestorIds : List Text

def Placement.id (p : Placement) : Text := p.group.id

namespace TraceTree

/-! ## Building -/

/-- The groups in order of their earliest timestamps; groups at the same time keep their order. -/
def sortByTime (groups : List SpanGroup) : List SpanGroup :=
  groups.mergeSort fun a b => timeLe a.timestamp b.timestamp

def hasGroup (groups : List SpanGroup) (id : Text) : Bool := groups.any (·.id == id)

/-- The declared parent of a group, if it is not empty and no group has it as id. -/
def missingParent? (groups : List SpanGroup) (g : SpanGroup) : Option Text :=
  g.primary.declaredParent?.filter fun parent => !hasGroup groups parent

/-- The parent links of the groups; a link to a missing parent is none. -/
def parentLinks (groups : List SpanGroup) : ParentMap :=
  groups.map fun g =>
    (g.id, if (missingParent? groups g).isSome then none else g.primary.parentId)

def linkGroups (groups : List SpanGroup) (parents : ParentMap) :
    List (SpanGroup × Option Text) :=
  groups.map fun g => (g, (parents.lookup g.id).join)

def groupsUnder (links : List (SpanGroup × Option Text)) (parent : Option Text) :
    List SpanGroup :=
  sortByTime ((links.filter fun link => link.2 == parent).map (·.1))

/-- The tree below a group, down to the given number of levels. -/
def grow (links : List (SpanGroup × Option Text)) : Nat → SpanGroup → Tree SpanGroup
  | 0, g => .node g []
  | levels + 1, g => .node g ((groupsUnder links (some g.id)).map (grow links levels))

/-- The first link to an id that no group has. Only the empty id can be such a link. -/
def danglingLink? (groups : List SpanGroup) (parents : ParentMap) : Option Text :=
  parents.findSome? fun (_, parent) => parent.filter fun id => !hasGroup groups id

def build (spans : List Span) : Except Failure TraceTree :=
  let groups := SpanGroup.index spans
  let missingParents := groups.filterMap fun g => (missingParent? groups g).map (g.id, ·)
  let repaired := ParentMap.repair (parentLinks groups)
  match danglingLink? groups repaired.parents with
  | some id => .error (.absentKey id)
  | none =>
    let links := linkGroups groups repaired.parents
    let top := groupsUnder links none
    .ok {
      groups, missingParents
      branches := top.map (grow links groups.length)
      headless := match top with
        | [g] => !(missingParents.isEmpty && g.primary.isRoot)
        | _ => true
      adopted := repaired.adopted }

def notes (t : TraceTree) : List BuildNote :=
  t.adopted.map .cycleCut ++
    (if t.headless then [.headless t.branches.length t.missingParents.length] else [])

/-! ## Walking -/

mutual

def place (depth : Nat) (ancestors : List Text) : Tree SpanGroup → List Placement
  | .node g ts =>
    { group := g, depth, childIds := ts.map (·.label.id), ancestorIds := ancestors } ::
      placeAll (depth + 1) (g.id :: ancestors) ts

def placeAll (depth : Nat) (ancestors : List Text) : List (Tree SpanGroup) → List Placement
  | [] => []
  | t :: ts => place depth ancestors t ++ placeAll depth ancestors ts

end

def placements (t : TraceTree) : List Placement :=
  t.branches.flatMap fun branch =>
    place 0 (t.missingParents.lookup branch.label.id).toList branch

def nodes (t : TraceTree) : List SpanGroup := Tree.depthFirst t.branches

def spans (t : TraceTree) : List Span := t.nodes.flatMap (·.spans)

/-- The ids of the nodes from the root, level by level. A headless tree starts from a root that
stands for no span. -/
def breadthFirstIds (t : TraceTree) : List (Option Text) :=
  let ids := (Tree.breadthFirst t.branches).map fun g => some g.id
  if t.headless then none :: ids else ids

def topLevelIds (t : TraceTree) : List Text := t.branches.map (·.label.id)

def traceId? (t : TraceTree) : Option Text := t.spans.head?.map (·.traceId)

def placement? (t : TraceTree) (id : Text) : Option Placement :=
  t.placements.find? (·.id == id)

def childIds (t : TraceTree) (id : Text) : List Text :=
  ((t.placement? id).map (·.childIds)).getD []

/-- The ids above an id, nearest first, with the missing parent at the end. -/
def ancestorIds (t : TraceTree) (id : Text) : List Text :=
  ((t.placement? id).map (·.ancestorIds)).getD []

/-! ## Services -/

/-- Adds an id to the list of a service, once; a new service comes last. -/
def addToService (id : Text) :
    List (Text × List Text) → Text → List (Text × List Text)
  | [], service => [(service, [id])]
  | (name, ids) :: rest, service =>
    if name = service then (name, if ids.contains id then ids else ids ++ [id]) :: rest
    else (name, ids) :: addToService id rest service

def spansByService (t : TraceTree) : List (Text × List Text) :=
  t.nodes.foldl
    (fun services g => (g.spans.flatMap (·.serviceNames)).foldl (addToService g.id) services) []

def idsOfService (t : TraceTree) (service : Text) : List Text :=
  (t.spansByService.lookup service).getD []

def rootText (t : TraceTree) : String :=
  match t.headless, t.branches with
  | false, [root] => s!"SpanNode(id={Text.quote root.label.id}, children={root.children.length})"
  | _, branches => s!"SpanNode(id=None, children={branches.length})"

end TraceTree

end TraceExplorer
