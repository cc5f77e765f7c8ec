import TraceExplorer.Proofs.Success
import TraceExplorer.Proofs.Visibility.Change
import TraceExplorer.Proofs.Visibility.Tidy

/-!
# Views that are only unfolded

Where nodes are shown and none is collapsed, no visible node loses its parent and no expanded node
a child: showing a node shows its children and all nodes above it.
-/

namespace TraceExplorer.VisibilityState

def UnfoldAction (_ : VisibilityState) : Action → Prop
  | .showNodes _ => True
  | .expandAll => True
  | .hideNodes _ _ => False
  | .toggle _ => False
  | .collapseAll => False

/-- A view in which the parent of every visible node and the children of every expanded node are
visible. -/
structure Unfolded (base s : VisibilityState) : Prop where
  layout : s.fresh = base
  above : ∀ {parent child}, child ∈ base.childrenOf parent → s.visible? child = some true →
    s.visible? parent = some true
  below : ∀ {parent child}, child ∈ base.childrenOf parent → s.expanded? parent = some true →
    s.visible? child = some true

open Transition

section

variable {base s : VisibilityState} {t : Transition} {a : Action} {ids : List Text}
  {id x parent child : Text}

/-- What stands above a node stands above all nodes below it. -/
theorem IsForest.parent_above (h : base.IsForest) (hchild : child ∈ base.childrenOf parent)
    (habove : child ∈ base.ancestorsOf id) : parent ∈ base.ancestorsOf id := by
  induction hway : base.ancestorsOf id generalizing id with
  | nil => simp [hway] at habove
  | cons first rest ih =>
      cases hfind : base.find? id with
      | none => simp [ancestorsOf, hfind] at hway
      | some r =>
          by_cases hroot : r.isRoot
          · exact absurd (h.known hchild) (h.above_root hfind hroot habove)
          · -- The first id above the node is that of its parent.
            simp only [h.root hfind, not_forall, not_not] at hroot
            obtain ⟨other, hother⟩ := hroot
            have hsplit := h.above_child hother
            obtain ⟨rfl, rfl⟩ := List.cons.inj (hway.symm.trans hsplit)
            rw [hsplit] at habove
            rcases List.mem_cons.mp habove with rfl | habove
            · rw [h.above_child hchild]
              exact List.mem_cons_of_mem _ List.mem_cons_self
            · exact List.mem_cons_of_mem _ (ih habove rfl)

/-- Expanding nodes shows them, their children, and all above them. -/
theorem visible?_expandAll :
    (t.expandAll ids).state.visible? x = some true ↔
      t.state.visible? x = some true ∨ t.state.contains x ∧
        ∃ id ∈ ids, x = id ∨ x ∈ t.state.childrenOf id ∨ x ∈ t.state.ancestorsOf id := by
  rw [visible?, find?_expandAll, visible?, contains]
  cases hfind : t.state.find? x with
  | none => simp
  | some r =>
      obtain rfl := spanId_of_find? hfind
      simp [shownBy, and_or_left, exists_or]

/-! ## One operation -/

theorem Unfolded.expandAll (hforest : base.IsForest) (h : Unfolded base t.state) :
    Unfolded base (t.expandAll ids).state := by
  have hchildren : t.state.childrenOf = base.childrenOf := childrenOf_eq h.layout
  have hancestors : t.state.ancestorsOf = base.ancestorsOf := by
    rw [← ancestorsOf_fresh, h.layout]
  have hknown {id : Text} (hid : base.contains id) : t.state.contains id := by
    rwa [← contains_congr (fresh_fresh t.state), h.layout]
  refine ⟨(fresh_expandAll t ids).trans h.layout, fun {parent child} hchild hvisible => ?_,
    fun {parent child} hchild hexpanded => ?_⟩
  · rw [visible?_expandAll, hchildren, hancestors] at hvisible ⊢
    rcases hvisible with hvisible | ⟨-, id, hid, hshown⟩
    · exact .inl (h.above hchild hvisible)
    · -- What shows the child shows its parent with it.
      refine .inr ⟨hknown (contains_of_mem_childrenOf hchild), id, hid, ?_⟩
      rcases hshown with rfl | hbelow | habove
      · exact .inr (.inr (hforest.above_child hchild ▸ List.mem_cons_self))
      · exact .inl (hforest.parent_unique hchild hbelow)
      · exact .inr (.inr (hforest.parent_above hchild habove))
  · rw [visible?_expandAll, hchildren]
    rcases expanded?_expandAll.mp hexpanded with hbefore | ⟨hparent, -⟩
    · exact .inl (h.below hchild hbefore)
    · exact .inr ⟨hknown (hforest.known hchild), parent, hparent, .inr (.inl hchild)⟩

theorem Unfolded.step (hforest : base.IsForest) (h : Unfolded base s) (ha : UnfoldAction s a)
    (hstep : s.step a = .ok t) : Unfolded base t.state := by
  cases a with
  | showNodes ids =>
      obtain ⟨-, rfl⟩ := showNodes_eq_ok_iff.mp hstep
      exact Unfolded.expandAll hforest h
  | expandAll =>
      obtain rfl := expandAll_eq_ok_iff.mp hstep
      exact Unfolded.expandAll hforest h
  | hideNodes ids childrenOnly => exact ha.elim
  | toggle id => exact ha.elim
  | collapseAll => exact ha.elim

theorem Unfolded.initial {tree : TraceTree} (hforest : (initial tree).IsForest) :
    Unfolded (initial tree) (initial tree) := by
  have hexpanded (id : Text) : (VisibilityState.initial tree).expanded? id ≠ some true := by
    rw [expanded?, find?_initial]
    cases tree.placement? id <;> simp
  refine ⟨fresh_initial tree, fun {parent child} hchild hvisible => ?_,
    fun _ hopen => absurd hopen (hexpanded _)⟩
  obtain ⟨r, hr, hshown⟩ := Option.map_eq_some_iff.mp hvisible
  have hroot := hforest.not_root (fresh_initial tree) hr hchild
  rw [find?_initial] at hr
  obtain ⟨p, -, rfl⟩ := Option.map_eq_some_iff.mp hr
  exact Bool.noConfusion (hshown.symm.trans hroot)

/-- No run that shows nodes leaves one without its parent or an expanded one without its
children. -/
theorem Unfolded.of_reached {tree : TraceTree} (hforest : (VisibilityState.initial tree).IsForest)
    (h : Reached UnfoldAction (VisibilityState.initial tree) s) :
    Unfolded (VisibilityState.initial tree) s :=
  h.induction (Unfolded.initial hforest) fun _ _ _ hs ha hstep => hs.step hforest ha hstep

/-- A run that shows nodes of the tree succeeds. -/
theorem Reached.exists_run {tree : TraceTree} {actions : List Action}
    (h : Reached UnfoldAction (VisibilityState.initial tree) s)
    (hactions : ∀ a ∈ actions,
      a = .expandAll ∨ ∃ ids, a = .showNodes ids ∧ ids ⊆ tree.nodes.map (·.id)) :
    ∃ s', s.run actions = .ok s' ∧ Reached UnfoldAction (VisibilityState.initial tree) s' := by
  induction actions generalizing s with
  | nil => exact ⟨s, rfl, h⟩
  | cons a rest ih =>
      obtain ⟨hfirst, hrest⟩ := List.forall_mem_cons.mp hactions
      have hstep : ∃ t, s.step a = .ok t ∧ UnfoldAction s a := by
        rcases hfirst with rfl | ⟨ids, rfl, hids⟩
        · exact ⟨_, expandAll_eq_ok_iff.mpr rfl, trivial⟩
        · refine ⟨_, showNodes_eq_ok_iff.mpr ⟨fun id hid => ?_, rfl⟩, trivial⟩
          rw [contains_congr h.fresh_eq, contains_initial]
          exact hids hid
      obtain ⟨t, ht, ha⟩ := hstep
      obtain ⟨s', hs', hend⟩ := ih (.step h ha ht) hrest
      exact ⟨s', bind_eq_ok_iff.mpr ⟨t, ht, hs'⟩, hend⟩

end

end TraceExplorer.VisibilityState
