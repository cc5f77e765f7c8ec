import TraceExplorer.Tree.TraceTree
import TraceExplorer.Visibility.RefCount

/-!
# Which rows of a tree are shown

Every node has a record. Expanding a node shows its children and counts the grant at each child
and at each node above. Collapsing takes the grants back: a child without a grant is hidden and
its own subtree is collapsed in turn, while nodes that another expansion holds open stay.
-/

namespace TraceExplorer

inductive ViewState where
  | hidden
  | collapsed
  | expanded
  deriving DecidableEq, Repr

def ViewState.name : ViewState → String
  | hidden => "hidden"
  | collapsed => "collapsed"
  | expanded => "expanded"

/-- What is known about the view of one node: its place, whether it is expanded and visible, the
grants from its expanded parent, and those from expanded nodes below. -/
structure VisibilityRecord where
  spanId : Text
  isRoot : Bool
  childIds : List Text := []
  ancestorIds : List Text := []
  expanded : Bool := false
  visible : Bool := false
  openParents : RefCount := {}
  openChildren : RefCount := {}
  deriving DecidableEq, Repr, Inhabited

namespace VisibilityRecord

def state (r : VisibilityRecord) : ViewState :=
  if !r.visible then .hidden else if r.expanded then .expanded else .collapsed

/-- No grant holds the node open, and it is no top node. -/
def isReleased (r : VisibilityRecord) : Bool :=
  !r.isRoot && r.openParents.value == 0 && r.openChildren.value == 0

end VisibilityRecord

structure VisibilityState where
  records : List VisibilityRecord
  deriving DecidableEq, Repr, Inhabited

/-- A state on the way, with the ids whose visibility was changed so far. -/
structure Transition where
  state : VisibilityState
  changed : List Text := []

namespace VisibilityState

/-- The view in which only the top nodes are visible. -/
def initial (t : TraceTree) : VisibilityState :=
  let top := t.topLevelIds
  ⟨t.placements.map fun p =>
    { spanId := p.id
      isRoot := top.contains p.id
      childIds := p.childIds
      ancestorIds := p.ancestorIds
      visible := top.contains p.id }⟩

def find? (s : VisibilityState) (id : Text) : Option VisibilityRecord :=
  s.records.find? (·.spanId == id)

def contains (s : VisibilityState) (id : Text) : Bool := (s.find? id).isSome

def size (s : VisibilityState) : Nat := s.records.length

def record (s : VisibilityState) (id : Text) : Except TraceError VisibilityRecord :=
  match s.find? id with
  | some r => .ok r
  | none => .error (.spanUnknown (some id.shown))

def isVisible (s : VisibilityState) (id : Text) : Except TraceError Bool :=
  (s.record id).map (·.visible)

def visibleIds (s : VisibilityState) : List Text :=
  (s.records.filter (·.visible)).map (·.spanId)

def modify (s : VisibilityState) (id : Text) (f : VisibilityRecord → VisibilityRecord) :
    VisibilityState :=
  ⟨s.records.map fun r => if r.spanId = id then f r else r⟩

def grants (s : VisibilityState) : Nat :=
  s.records.foldr (fun r total => r.openParents.value + total) 0

theorem grants_modify_le (s : VisibilityState) (id : Text)
    (f : VisibilityRecord → VisibilityRecord)
    (h : ∀ r, (f r).openParents.value ≤ r.openParents.value) :
    (s.modify id f).grants ≤ s.grants := by
  obtain ⟨records⟩ := s
  induction records with
  | nil => simp [modify, grants]
  | cons r rest ih =>
    simp only [modify, grants, List.map_cons, List.foldr_cons] at ih ⊢
    have := h r
    split <;> omega

theorem grants_modify_lt {s : VisibilityState} {id : Text} {r : VisibilityRecord}
    (f : VisibilityRecord → VisibilityRecord)
    (le : ∀ r, (f r).openParents.value ≤ r.openParents.value)
    (found : s.find? id = some r) (lt : (f r).openParents.value < r.openParents.value) :
    (s.modify id f).grants < s.grants := by
  obtain ⟨records⟩ := s
  induction records with
  | nil => simp [find?] at found
  | cons q rest ih =>
    have tail := grants_modify_le ⟨rest⟩ id f le
    simp only [modify, grants, find?, List.map_cons, List.foldr_cons,
      List.find?_cons] at ih tail found ⊢
    by_cases h : q.spanId = id
    · simp [h] at found
      subst found
      simp only [h, ↓reduceIte]
      omega
    · have hq : (q.spanId == id) = false := by simp [h]
      rw [hq] at found
      have := ih found
      simp only [h, ↓reduceIte]
      omega

end VisibilityState

namespace Transition

open VisibilityState

/-- Sets whether the node of an id is visible, and notes a change. -/
def setVisible (visible : Bool) (t : Transition) (id : Text) : Transition :=
  match t.state.find? id with
  | none => t
  | some r =>
    if r.visible = visible then t
    else
      { state := t.state.modify id fun r => { r with visible }
        changed := if t.changed.contains id then t.changed else t.changed ++ [id] }

def modify (t : Transition) (id : Text) (f : VisibilityRecord → VisibilityRecord) : Transition :=
  { t with state := t.state.modify id f }

/-! ## Expanding -/

def expand (t : Transition) (id : Text) : Transition :=
  (t.modify id fun r => { r with expanded := true }).setVisible true id

/-- Counts the grants of an expanded node at its children and at the nodes above it. -/
def grant (t : Transition) (id : Text) : Transition :=
  match t.state.find? id with
  | none => t
  | some r =>
    let below := r.childIds.foldl
      (fun t child => t.modify child fun c => { c with openParents := c.openParents.increment }) t
    r.ancestorIds.foldl
      (fun t above => t.modify above fun a => { a with openChildren := a.openChildren.increment })
      below

def family (s : VisibilityState) (id : Text) : List Text :=
  match s.find? id with
  | none => []
  | some r => r.childIds ++ r.ancestorIds

/-- Expands nodes. All of them are marked first, so that their grants add up. -/
def expandAll (t : Transition) (ids : List Text) : Transition :=
  let marked := ids.foldl expand t
  let granted := ids.foldl grant marked
  (ids.flatMap (family t.state)).foldl (setVisible true) granted

/-! ## Collapsing -/

/-- Takes back the grant at a node above a collapsed one, and hides it if nothing else holds it
open. -/
def releaseAbove (t : Transition) (above : Text) : Transition :=
  let t := t.modify above fun a => { a with openChildren := a.openChildren.decrement }
  match t.state.find? above with
  | none => t
  | some a => if a.isReleased then t.setVisible false above else t

/-- Takes back the grant at a child of a collapsed node. A child that loses its last grant is
closed. -/
def releaseChild (t : Transition) (closed : List Text) (child : Text) :
    Transition × List Text :=
  match t.state.find? child with
  | none => (t, closed)
  | some c =>
    let after := t.modify child fun c => { c with openParents := c.openParents.decrement }
    if c.openParents.value = 1 then
      (after, if closed.contains child then closed else closed ++ [child])
    else (after, closed)

/-- Collapses a node itself: hides it, unless it is a top node, and takes back its grants
above. -/
def withdrawAbove (t : Transition) (r : VisibilityRecord) : Transition :=
  r.ancestorIds.foldl releaseAbove (if r.isRoot then t else t.setVisible false r.spanId)

/-- Collapses one node and yields the children that it closes. -/
def collapseOne (childrenOnly : Bool) (t : Transition × List Text) (id : Text) :
    Transition × List Text :=
  match t.1.state.find? id with
  | none => t
  | some r =>
    let marked := t.1.modify id fun r => { r with expanded := false }
    let withdrawn := if childrenOnly then marked else marked.withdrawAbove r
    r.childIds.foldl (fun p child => p.1.releaseChild p.2 child) (withdrawn, t.2)

theorem grants_setVisible_le (visible : Bool) (t : Transition) (id : Text) :
    (t.setVisible visible id).state.grants ≤ t.state.grants := by
  unfold setVisible
  split
  · exact Nat.le_refl _
  · split
    · exact Nat.le_refl _
    · exact grants_modify_le _ _ _ fun _ => Nat.le_refl _

theorem grants_releaseAbove_le (t : Transition) (above : Text) :
    (t.releaseAbove above).state.grants ≤ t.state.grants := by
  have step := grants_modify_le t.state above
    (fun a => { a with openChildren := a.openChildren.decrement }) fun _ => Nat.le_refl _
  unfold releaseAbove
  simp only []
  split
  · exact step
  · split
    · exact Nat.le_trans (grants_setVisible_le _ _ _) step
    · exact step

theorem grants_foldl_releaseAbove_le (above : List Text) (t : Transition) :
    (above.foldl releaseAbove t).state.grants ≤ t.state.grants := by
  induction above generalizing t with
  | nil => exact Nat.le_refl _
  | cons a rest ih => exact Nat.le_trans (ih _) (grants_releaseAbove_le t a)

theorem grants_withdrawAbove_le (t : Transition) (r : VisibilityRecord) :
    (t.withdrawAbove r).state.grants ≤ t.state.grants := by
  refine Nat.le_trans (grants_foldl_releaseAbove_le _ _) ?_
  split
  · exact Nat.le_refl _
  · exact grants_setVisible_le _ _ _

theorem grants_releaseChild_le (t : Transition) (closed : List Text) (child : Text) :
    (t.releaseChild closed child).1.state.grants + (t.releaseChild closed child).2.length ≤
      t.state.grants + closed.length := by
  unfold releaseChild
  split
  · exact Nat.le_refl _
  · rename_i c found
    have le (r : VisibilityRecord) :
        ({ r with openParents := r.openParents.decrement } : VisibilityRecord).openParents.value ≤
          r.openParents.value := by simp [RefCount.decrement]
    by_cases one : c.openParents.value = 1
    · have lt := grants_modify_lt (fun c => { c with openParents := c.openParents.decrement }) le
        found (by simp [RefCount.decrement, one])
      simp only [one, ↓reduceIte, modify]
      split
      · omega
      · simp only [List.length_append, List.length_cons, List.length_nil]; omega
    · have := grants_modify_le t.state child
        (fun c => { c with openParents := c.openParents.decrement }) le
      simp only [one, ↓reduceIte, modify]
      omega

theorem grants_collapseOne_le (childrenOnly : Bool) (p : Transition × List Text) (id : Text) :
    (collapseOne childrenOnly p id).1.state.grants + (collapseOne childrenOnly p id).2.length ≤
      p.1.state.grants + p.2.length := by
  have release (children : List Text) : ∀ p : Transition × List Text,
      let q := children.foldl (fun p child => p.1.releaseChild p.2 child) p
      q.1.state.grants + q.2.length ≤ p.1.state.grants + p.2.length := by
    induction children with
    | nil => intro p; exact Nat.le_refl _
    | cons c rest ih => intro p; exact Nat.le_trans (ih _) (grants_releaseChild_le _ _ _)
  unfold collapseOne
  split
  · exact Nat.le_refl _
  · rename_i r _
    refine Nat.le_trans (release _ _) (Nat.add_le_add_right ?_ _)
    have marked := grants_modify_le p.1.state id (fun r => { r with expanded := false })
      fun _ => Nat.le_refl _
    split
    · exact marked
    · exact Nat.le_trans (grants_withdrawAbove_le _ _) marked

def collapseLevel (childrenOnly : Bool) (t : Transition) (ids : List Text) :
    Transition × List Text :=
  let (collapsed, closed) := ids.foldl (collapseOne childrenOnly) (t, [])
  (closed.foldl (setVisible false) collapsed, closed)

theorem grants_collapseLevel_le (childrenOnly : Bool) (t : Transition) (ids : List Text) :
    (collapseLevel childrenOnly t ids).1.state.grants +
      (collapseLevel childrenOnly t ids).2.length ≤ t.state.grants := by
  have collapse (ids : List Text) : ∀ p : Transition × List Text,
      let q := ids.foldl (collapseOne childrenOnly) p
      q.1.state.grants + q.2.length ≤ p.1.state.grants + p.2.length := by
    induction ids with
    | nil => intro p; exact Nat.le_refl _
    | cons c rest ih => intro p; exact Nat.le_trans (ih _) (grants_collapseOne_le _ _ _)
  have hide (closed : List Text) : ∀ t : Transition,
      (closed.foldl (setVisible false) t).state.grants ≤ t.state.grants := by
    induction closed with
    | nil => intro t; exact Nat.le_refl _
    | cons c rest ih => intro t; exact Nat.le_trans (ih _) (grants_setVisible_le _ _ _)
  have first := collapse ids (t, [])
  have second := hide (ids.foldl (collapseOne childrenOnly) (t, [])).2
    (ids.foldl (collapseOne childrenOnly) (t, [])).1
  simp only [List.length_nil, Nat.add_zero] at first
  simp only [collapseLevel]
  omega

/-- Collapses nodes, then the children that they close, and so on. Every further level takes back
at least one grant. -/
def collapse (childrenOnly : Bool) (t : Transition) (ids : List Text) : Transition :=
  match _step : collapseLevel childrenOnly t ids with
  | (hidden, []) => hidden
  | (hidden, child :: rest) => collapse true hidden (child :: rest)
termination_by t.state.grants
decreasing_by
  have := grants_collapseLevel_le childrenOnly t ids
  rw [_step] at this
  simp only [List.length_cons] at this
  omega

end Transition

namespace VisibilityState

/-! ## Operations -/

def checkKnown (s : VisibilityState) (ids : List Text) : Except TraceError Unit :=
  match ids.find? fun id => !s.contains id with
  | some id => .error (.spanUnknown (some id.shown))
  | none => .ok ()

def showNodes (s : VisibilityState) (ids : List Text) : Except TraceError Transition := do
  s.checkKnown ids
  return Transition.expandAll ⟨s, []⟩ ids

/-- Collapses the given nodes. With `childrenOnly` the nodes themselves stay as they are shown,
and nothing is taken back above them. -/
def hideNodes (s : VisibilityState) (ids : List Text) (childrenOnly : Bool := false) :
    Except TraceError Transition := do
  s.checkKnown ids
  return Transition.collapse childrenOnly ⟨s, []⟩ ids

/-- Collapses what is below an expanded node, or expands a collapsed one. -/
def toggle (s : VisibilityState) (id : Text) : Except TraceError Transition := do
  let r ← s.record id
  if r.expanded then s.hideNodes [id] true else s.showNodes [id]

def expandAll (s : VisibilityState) : Except TraceError Transition :=
  s.showNodes (s.records.map (·.spanId))

def collapseAll (s : VisibilityState) : Transition where
  state := ⟨s.records.map fun r =>
    { r with
      expanded := false
      visible := r.isRoot
      openParents := r.openParents.reset
      openChildren := r.openChildren.reset }⟩
  changed := (s.records.filter fun r => r.visible != r.isRoot).map (·.spanId)

inductive Action where
  | showNodes (ids : List Text)
  | hideNodes (ids : List Text) (childrenOnly : Bool)
  | toggle (id : Text)
  | expandAll
  | collapseAll
  deriving DecidableEq, Repr

def step (s : VisibilityState) : Action → Except TraceError Transition
  | .showNodes ids => s.showNodes ids
  | .hideNodes ids childrenOnly => s.hideNodes ids childrenOnly
  | .toggle id => s.toggle id
  | .expandAll => s.expandAll
  | .collapseAll => .ok s.collapseAll

end VisibilityState

end TraceExplorer
