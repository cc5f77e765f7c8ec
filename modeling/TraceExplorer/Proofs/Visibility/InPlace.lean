import TraceExplorer.Failure
import TraceExplorer.Proofs.Visibility.Change
import TraceExplorer.Proofs.Visibility.Expand
import TraceExplorer.Proofs.Visibility.Layout
import TraceExplorer.Proofs.Visibility.Run

/-!
# Operations that change a view in place

A viewer that keeps its records in place looks them up one at a time and changes them as it goes,
so an operation that failed half way would leave the changes made so far. In a view of a tree none
fails half way: the ids that an operation names are looked up before anything is changed, and every
child of a node has a record.
-/

namespace TraceExplorer

/-- A part of an operation in place. What is changed before a failure stays changed. -/
abbrev Update (α : Type) := EStateM Failure Transition α

namespace Update

open Transition VisibilityState

def named (id : Text) : Update VisibilityRecord := do
  match (← get).state.record id with
  | .ok r => return r
  | .error e => throw (.reported e)

def held (id : Text) : Update VisibilityRecord := do
  match (← get).state.find? id with
  | some r => return r
  | none => throw (.absentKey id)

/-! ## Expanding -/

def grantBelow (child : Text) : Update Unit := do
  let _ ← held child
  modify (·.modify child fun c => { c with openParents := c.openParents.increment })

def grant (id : Text) : Update Unit := do
  let r ← held id
  forM r.childIds grantBelow
  modify (r.ancestorIds.foldl fun t above =>
    t.modify above fun a => { a with openChildren := a.openChildren.increment })

def showNodes (ids : List Text) : Update Unit := do
  let selected ← ids.mapM named
  modify (ids.foldl expand)
  forM ids grant
  modify ((selected.flatMap fun r => r.childIds ++ r.ancestorIds).foldl (setVisible true))

/-! ## Collapsing -/

def releaseChild (closed : List Text) (child : Text) : Update (List Text) := do
  let _ ← held child
  modifyGet fun t => (t.releaseChild closed child).swap

def collapseOne (childrenOnly : Bool) (closed : List Text) (id : Text) : Update (List Text) := do
  let r ← held id
  modify (·.modify id fun r => { r with expanded := false })
  modify fun t => if childrenOnly then t else t.withdrawAbove r
  r.childIds.foldlM releaseChild closed

/-- Collapses the nodes of one level, and yields the children that they close, hidden. -/
def collapseLevel (childrenOnly : Bool) (ids : List Text) : Update (List Text) := do
  let closed ← ids.foldlM (collapseOne childrenOnly) []
  modify (closed.foldl (setVisible false))
  return closed

section

variable {α β : Type} {l : List α} {t t' : Transition} {id child : Text}
  {r : VisibilityRecord} {ids closed closed' : List Text} {childrenOnly : Bool}

theorem run_held : (held id).run t =
    match t.state.find? id with
    | some r => .ok r t
    | none => .error (.absentKey id) t := by
  simp only [held, EStateM.run_bind, EStateM.run_get]
  cases t.state.find? id <;> rfl

theorem run_named : (named id).run t =
    match t.state.record id with
    | .ok r => .ok r t
    | .error e => .error (.reported e) t := by
  simp only [named, EStateM.run_bind, EStateM.run_get]
  cases t.state.record id <;> rfl

theorem foldl_eq_of_run {u : β → α → Update β} {f : Transition × β → α → Transition × β}
    {b b' : β} (hu : ∀ b a t b' t', (u b a).run t = .ok b' t' → f (t, b) a = (t', b'))
    (h : (l.foldlM u b).run t = .ok b' t') : l.foldl f (t, b) = (t', b') := by
  induction l generalizing b t with
  | nil =>
      rw [List.foldlM_nil, EStateM.run_pure] at h
      cases h
      rfl
  | cons a rest ih =>
      rw [List.foldlM_cons, EStateM.run_bind] at h
      cases hone : (u b a).run t with
      | error e t₁ => simp [hone] at h
      | ok b₁ t₁ =>
          rw [hone] at h
          rw [List.foldl_cons, hu _ _ _ _ _ hone]
          exact ih h

theorem releaseChild_of_run (h : (releaseChild closed child).run t = .ok closed' t') :
    t.releaseChild closed child = (t', closed') := by
  rw [releaseChild, EStateM.run_bind, run_held] at h
  cases hfind : t.state.find? child with
  | none => simp [hfind] at h
  | some r =>
      simp only [hfind, EStateM.run_modifyGet, EStateM.Result.ok.injEq] at h
      exact Prod.ext h.2 h.1

theorem collapseOne_of_run (h : (collapseOne childrenOnly closed id).run t = .ok closed' t') :
    Transition.collapseOne childrenOnly (t, closed) id = (t', closed') := by
  rw [collapseOne, EStateM.run_bind, run_held] at h
  cases hfind : t.state.find? id with
  | none => simp [hfind] at h
  | some r =>
      simp only [hfind, EStateM.run_bind, EStateM.run_modify] at h
      rw [Transition.collapseOne, hfind]
      exact foldl_eq_of_run (fun _ _ _ _ _ h => releaseChild_of_run h) h

theorem collapseLevel_of_run (h : (collapseLevel childrenOnly ids).run t = .ok closed t') :
    t.collapseLevel childrenOnly ids = (t', closed) := by
  rw [collapseLevel, EStateM.run_bind] at h
  cases hall : (ids.foldlM (collapseOne childrenOnly) []).run t with
  | error e t₁ => simp [hall] at h
  | ok closed₁ t₁ =>
      simp only [hall, EStateM.run_bind, EStateM.run_modify, EStateM.run_pure,
        EStateM.Result.ok.injEq] at h
      obtain ⟨rfl, rfl⟩ := h
      rw [Transition.collapseLevel, foldl_eq_of_run (fun _ _ _ _ _ h => collapseOne_of_run h) hall]

end

def collapseFrom (childrenOnly : Bool) (ids : List Text) (t : Transition) :
    EStateM.Result Failure Transition Unit :=
  match _level : (collapseLevel childrenOnly ids).run t with
  | .error e t' => .error e t'
  | .ok [] t' => .ok () t'
  | .ok (child :: rest) t' => collapseFrom true (child :: rest) t'
termination_by t.state.grants
decreasing_by
  have hle := grants_collapseLevel_le childrenOnly t ids
  rw [collapseLevel_of_run _level] at hle
  simp only [List.length_cons] at hle
  omega

def collapse (childrenOnly : Bool) (ids : List Text) : Update Unit :=
  collapseFrom childrenOnly ids

def hideNodes (ids : List Text) (childrenOnly : Bool) : Update Unit := do
  let _ ← ids.mapM named
  collapse childrenOnly ids

def toggle (id : Text) : Update Unit := do
  let r ← named id
  if r.expanded then hideNodes [id] true else showNodes [id]

def ofAction : Action → Update Unit
  | .showNodes ids => showNodes ids
  | .hideNodes ids childrenOnly => hideNodes ids childrenOnly
  | .toggle id => toggle id
  | .expandAll => do showNodes ((← get).state.records.map (·.spanId))
  | .collapseAll => modify (·.state.collapseAll)

/-! ## In a view of a tree -/

/-- On the way through an operation: a view of the given layout, and closed children that have
records. -/
structure OnTheWay (base : VisibilityState) (p : Transition × List Text) : Prop where
  layout : p.1.state.fresh = base
  known : ∀ id ∈ p.2, base.contains id

section

variable {α β : Type} {l : List α} {base : VisibilityState} {s : VisibilityState}
  {t t' : Transition} {p : Transition × List Text} {id child : Text} {r : VisibilityRecord}
  {ids closed closed' : List Text} {childrenOnly : Bool}

theorem run_foldlM {P : Transition × β → Prop} {u : β → α → Update β}
    {f : Transition × β → α → Transition × β} {p : Transition × β}
    (hu : ∀ p, ∀ a ∈ l, P p → (u p.2 a).run p.1 = .ok (f p a).2 (f p a).1 ∧ P (f p a))
    (hp : P p) :
    (l.foldlM u p.2).run p.1 = .ok (l.foldl f p).2 (l.foldl f p).1 ∧ P (l.foldl f p) := by
  induction l generalizing p with
  | nil => exact ⟨rfl, hp⟩
  | cons a rest ih =>
      obtain ⟨hrun, hnext⟩ := hu p a List.mem_cons_self hp
      rw [List.foldlM_cons, EStateM.run_bind, hrun, List.foldl_cons]
      exact ih (fun p a ha => hu p a (List.mem_cons_of_mem _ ha)) hnext

theorem run_forM {P : Transition → Prop} {u : α → Update Unit} {f : Transition → α → Transition}
    (hu : ∀ t, ∀ a ∈ l, P t → (u a).run t = .ok () (f t a) ∧ P (f t a)) (ht : P t) :
    (forM l u).run t = .ok () (l.foldl f t) := by
  induction l generalizing t with
  | nil => rfl
  | cons a rest ih =>
      obtain ⟨hrun, hnext⟩ := hu t a List.mem_cons_self ht
      rw [List.forM_cons, EStateM.run_bind, hrun, List.foldl_cons]
      exact ih (fun t a ha => hu t a (List.mem_cons_of_mem _ ha)) hnext

/-- Ids that are named are looked up before anything is changed. -/
theorem run_mapM_named (ids : List Text) (t : Transition) :
    (ids.mapM named).run t =
      match t.state.checkKnown ids with
      | .ok _ => .ok (ids.filterMap t.state.find?) t
      | .error e => .error (.reported e) t := by
  induction ids with
  | nil => rfl
  | cons id rest ih =>
      rw [List.mapM_cons, EStateM.run_bind, run_named, record]
      cases hfind : t.state.find? id with
      | none => simp [checkKnown, contains, hfind]
      | some r =>
          have hknown : t.state.checkKnown (id :: rest) = t.state.checkKnown rest := by
            simp [checkKnown, contains, hfind]
          rw [hknown, List.filterMap_cons, hfind]
          simp only [EStateM.run_bind, ih]
          cases t.state.checkKnown rest <;> rfl

theorem contains_of_checkKnown {u : Unit} (h : s.checkKnown ids = .ok u) :
    ∀ id ∈ ids, s.fresh.contains id := by
  intro id hid
  rw [contains_congr (fresh_fresh s)]
  exact checkKnown_eq_ok_iff.mp h id hid

theorem run_held_of_contains (hknown : base.contains id) (ht : t.state.fresh = base) :
    ∃ r, t.state.find? id = some r ∧ (held id).run t = .ok r t := by
  subst ht
  have hsome : (t.state.find? id).isSome := by
    rw [← contains, ← contains_congr (fresh_fresh t.state)]
    exact hknown
  obtain ⟨r, hr⟩ := Option.isSome_iff_exists.mp hsome
  exact ⟨r, hr, by rw [run_held, hr]⟩

/-- In a view of a forest every child that an operation looks up has a record. -/
theorem contains_child (hforest : base.IsForest) (ht : t.state.fresh = base)
    (hfind : t.state.find? id = some r) (hchild : child ∈ r.childIds) : base.contains child := by
  rw [childIds_eq ht hfind] at hchild
  exact hforest.known hchild

theorem run_grantBelow (hknown : base.contains child) (ht : t.state.fresh = base) :
    (grantBelow child).run t =
      .ok () (t.modify child fun c => { c with openParents := c.openParents.increment }) := by
  obtain ⟨r, -, hrun⟩ := run_held_of_contains hknown ht
  rw [grantBelow, EStateM.run_bind, hrun]
  rfl

theorem run_grant (hforest : base.IsForest) (hknown : base.contains id)
    (ht : t.state.fresh = base) : (grant id).run t = .ok () (t.grant id) := by
  obtain ⟨r, hr, hrun⟩ := run_held_of_contains hknown ht
  have hchildren : ∀ child ∈ r.childIds, base.contains child :=
    fun child hchild => contains_child hforest ht hr hchild
  have hbelow := run_forM (P := fun t => t.state.fresh = base)
    (fun t child hchild ht => ⟨run_grantBelow (hchildren child hchild) ht,
      (fresh_modify (by exact fun _ => rfl)).trans ht⟩) ht
  rw [grant, EStateM.run_bind, hrun]
  simp only [EStateM.run_bind, hbelow]
  rw [Transition.grant, hr]
  rfl

theorem flatMap_named (s : VisibilityState) (ids : List Text) :
    (ids.filterMap s.find?).flatMap (fun r => r.childIds ++ r.ancestorIds) =
      ids.flatMap (family s) := by
  induction ids with
  | nil => rfl
  | cons id rest ih =>
      rw [List.filterMap_cons, List.flatMap_cons, ← ih, family]
      cases s.find? id <;> rfl

theorem run_showNodes (hforest : s.fresh.IsForest) :
    (showNodes ids).run ⟨s, []⟩ =
      match s.showNodes ids with
      | .ok t => .ok () t
      | .error e => .error (.reported e) ⟨s, []⟩ := by
  rw [showNodes, EStateM.run_bind, run_mapM_named, VisibilityState.showNodes]
  cases hcheck : s.checkKnown ids with
  | error e => rfl
  | ok _ =>
      have hknown : ∀ id ∈ ids, s.fresh.contains id := contains_of_checkKnown hcheck
      have hmarked : (ids.foldl expand ⟨s, []⟩).state.fresh = s.fresh :=
        fresh_foldl fun _ _ => fresh_expand
      have hgranted := run_forM (P := fun t => t.state.fresh = s.fresh)
        (fun t id hid ht => ⟨run_grant hforest (hknown id hid) ht, fresh_grant.trans ht⟩) hmarked
      simp only [EStateM.run_bind, EStateM.run_modify, hgranted, flatMap_named]
      rfl

/-! ## Collapsing in a view of a tree -/

theorem run_releaseChild (hknown : base.contains child) (h : OnTheWay base p) :
    (releaseChild p.2 child).run p.1 =
        .ok (p.1.releaseChild p.2 child).2 (p.1.releaseChild p.2 child).1 ∧
      OnTheWay base (p.1.releaseChild p.2 child) := by
  obtain ⟨r, -, hrun⟩ := run_held_of_contains hknown h.layout
  refine ⟨?_, fresh_releaseChild.trans h.layout, ?_⟩
  · rw [releaseChild, EStateM.run_bind, hrun]
    rfl
  · intro id hid
    rcases mem_closed_releaseChild.mp hid with hid | ⟨rfl, -⟩
    · exact h.known id hid
    · exact hknown

theorem run_collapseOne (hforest : base.IsForest) (hknown : base.contains id)
    (h : OnTheWay base p) :
    (collapseOne childrenOnly p.2 id).run p.1 =
        .ok (Transition.collapseOne childrenOnly p id).2
          (Transition.collapseOne childrenOnly p id).1 ∧
      OnTheWay base (Transition.collapseOne childrenOnly p id) := by
  obtain ⟨r, hr, hrun⟩ := run_held_of_contains hknown h.layout
  have hchildren : ∀ child ∈ r.childIds, base.contains child :=
    fun child hchild => contains_child hforest h.layout hr hchild
  have hmarked : (p.1.modify id fun r => { r with expanded := false }).state.fresh = base :=
    (fresh_modify (by exact fun _ => rfl)).trans h.layout
  have hleft : OnTheWay base
      (if childrenOnly then p.1.modify id fun r => { r with expanded := false }
        else (p.1.modify id fun r => { r with expanded := false }).withdrawAbove r, p.2) := by
    refine ⟨?_, h.known⟩
    dsimp only
    split
    · exact hmarked
    · exact (fresh_withdrawAbove r).trans hmarked
  have hbelow := run_foldlM (f := fun p child => p.1.releaseChild p.2 child)
    (fun _ child hchild h => run_releaseChild (hchildren child hchild) h) hleft
  rw [collapseOne, EStateM.run_bind, hrun]
  simp only [EStateM.run_bind, EStateM.run_modify]
  rw [Transition.collapseOne, hr]
  exact hbelow

theorem run_collapseLevel (childrenOnly : Bool) (hforest : base.IsForest)
    (hknown : ∀ id ∈ ids, base.contains id)
    (ht : t.state.fresh = base) :
    (collapseLevel childrenOnly ids).run t =
        .ok (t.collapseLevel childrenOnly ids).2 (t.collapseLevel childrenOnly ids).1 ∧
      OnTheWay base (t.collapseLevel childrenOnly ids) := by
  have hstart : OnTheWay base (t, []) := ⟨ht, by simp⟩
  obtain ⟨hrun, hlayout, hclosed⟩ := run_foldlM (f := Transition.collapseOne childrenOnly)
    (fun _ id hid h => run_collapseOne hforest (hknown id hid) h) hstart
  refine ⟨?_, fresh_foldl_setVisible.trans hlayout, hclosed⟩
  rw [collapseLevel, EStateM.run_bind, hrun]
  rfl

theorem collapseFrom_eq_ok (hforest : base.IsForest) (hknown : ∀ id ∈ ids, base.contains id)
    (ht : t.state.fresh = base) :
    collapseFrom childrenOnly ids t = .ok () (t.collapse childrenOnly ids) := by
  -- Every further level takes back at least one grant.
  induction hgrants : t.state.grants using Nat.strongRecOn generalizing t ids childrenOnly with
  | ind grants ih =>
      obtain ⟨hrun, hnext⟩ := run_collapseLevel childrenOnly hforest hknown ht
      have hle := grants_collapseLevel_le childrenOnly t ids
      rw [collapseFrom, Transition.collapse_eq, hrun]
      generalize t.collapseLevel childrenOnly ids = next at hnext hle ⊢
      obtain ⟨hidden, closed⟩ := next
      cases closed with
      | nil => rw [collapse_nil]
      | cons child rest =>
          rw [List.length_cons] at hle
          exact ih _ (by omega) hnext.known hnext.layout rfl

theorem run_hideNodes (hforest : s.fresh.IsForest) :
    (hideNodes ids childrenOnly).run ⟨s, []⟩ =
      match s.hideNodes ids childrenOnly with
      | .ok t => .ok () t
      | .error e => .error (.reported e) ⟨s, []⟩ := by
  rw [hideNodes, EStateM.run_bind, run_mapM_named, VisibilityState.hideNodes]
  cases hcheck : s.checkKnown ids with
  | error e => rfl
  | ok _ =>
      have hknown : ∀ id ∈ ids, s.fresh.contains id := contains_of_checkKnown hcheck
      exact collapseFrom_eq_ok hforest hknown rfl

/-- In a view of a forest an operation in place succeeds with the same changes, or fails before it
changes anything. -/
theorem run_ofAction (hforest : s.fresh.IsForest) (a : Action) :
    (ofAction a).run ⟨s, []⟩ =
      match s.step a with
      | .ok t => .ok () t
      | .error e => .error (.reported e) ⟨s, []⟩ := by
  cases a with
  | showNodes ids => exact run_showNodes hforest
  | hideNodes ids childrenOnly => exact run_hideNodes hforest
  | expandAll => exact run_showNodes hforest
  | collapseAll => rfl
  | toggle id =>
      rw [ofAction, toggle, EStateM.run_bind, run_named, VisibilityState.step,
        VisibilityState.toggle]
      cases hrecord : s.record id with
      | error e => rfl
      | ok r =>
          simp only [bind, Except.bind]
          split
          · exact run_hideNodes hforest
          · exact run_showNodes hforest

end

end Update

end TraceExplorer
