import TraceExplorer.Proofs.Visibility.Change
import TraceExplorer.Proofs.Visibility.Run
import TraceExplorer.Proofs.Visibility.Tidy

/-!
# The view as an outline

A viewer that toggles visible nodes, expands all of a view in which nothing is expanded, and
collapses everything at any time always shows an outline: a node is visible if it is a top node or
its parent is expanded.
-/

namespace TraceExplorer.VisibilityState

/-- The operations of an outline: a visible node is toggled, all nodes are expanded if none is,
or all are collapsed. -/
def OutlineAction (s : VisibilityState) : Action → Prop
  | .toggle id => s.visible? id = some true
  | .expandAll => ∀ r ∈ s.records, r.expanded = false
  | .collapseAll => True
  | .showNodes _ => False
  | .hideNodes _ _ => False

structure IsOutline (t : TraceTree) (s : VisibilityState) : Prop where
  known : ∀ {id}, s.contains id ↔ id ∈ t.nodes.map (·.id)
  visible : ∀ {id r}, s.find? id = some r →
    (r.visible ↔ id ∈ t.topLevelIds ∨ HasOpenParent t.childIds s id)
  expanded : ∀ {id r}, s.find? id = some r → r.expanded → r.visible
  opened : ∀ {id r}, s.find? id = some r → HasOpenParent t.childIds s id →
    r.openParents.value = 1
  shut : ∀ {id r}, s.find? id = some r → ¬ HasOpenParent t.childIds s id →
    r.openParents.value = 0

/-- A toggle works on the subtree of a node. One that is expanded reports the nodes below that were
visible, and afterwards all below is hidden and collapsed; one that is collapsed reports its
children. -/
def TogglesSubtree (t : TraceTree) (s : VisibilityState) (id : Text) : Prop :=
  ∃ after, s.toggle id = .ok after ∧
    (s.expanded? id = some true →
      (∀ x, x ∈ after.changed ↔ Below t.childIds id x ∧ s.visible? x = some true) ∧
      ∀ x, Below t.childIds id x →
        after.state.visible? x = some false ∧ after.state.expanded? x = some false) ∧
    (s.expanded? id = some false → ∀ x, x ∈ after.changed ↔ x ∈ t.childIds id)

open Transition

section

variable {base s : VisibilityState} {t : Transition} {id x : Text}

/-! ## One operation -/

theorem tidy_fresh (s : VisibilityState) : Tidy s.fresh [] [] s.fresh := by
  have hnone (x : Text) : s.fresh.expanded? x ≠ some true := by
    rw [expanded?, find?_fresh]
    cases s.find? x <;> simp [VisibilityRecord.fresh]
  have hshut (x : Text) : ¬ HasOpenParent s.fresh.childrenOf s.fresh x := by
    rintro ⟨parent, -, hexpanded⟩
    exact hnone parent hexpanded
  refine ⟨fresh_fresh s, by simp, by simp, ?_, ?_, ?_, ?_⟩
  all_goals
    intro x r hfind
    rw [find?_fresh] at hfind
    obtain ⟨q, -, rfl⟩ := Option.map_eq_some_iff.mp hfind
    simp [VisibilityRecord.fresh, hshut]

/-- Toggling an expanded node hides and collapses all below it. -/
theorem Tidy.toggle_expanded (hforest : base.IsForest) (h : Tidy base [] [] s)
    (hid : s.expanded? id = some true) :
    ∃ t, s.toggle id = .ok t ∧ Tidy base [] [] t.state ∧
      (∀ x, x ∈ t.changed ↔ Below base.childrenOf id x ∧ s.visible? x = some true) ∧
      ∀ x, Below base.childrenOf id x →
        t.state.visible? x = some false ∧ t.state.expanded? x = some false := by
  obtain ⟨r, hr, hexpanded⟩ := expanded?_eq_some_iff.mp hid
  have htidy : Tidy base [] [] (Transition.collapse true ⟨s, []⟩ [id]).state := by
    refine Tidy.collapse hforest { h with expanded := fun hfind hexp => ?_ }
    exact .inl ((h.expanded hfind hexp).resolve_right (by simp))
  have hspread := Spread.collapse (hforest.congr (by rw [← h.layout, fresh_fresh])) id (s := s)
  have hnoted : Noted false s (Transition.collapse true ⟨s, []⟩ [id]) :=
    (Noted.refl false s).collapse
  have hbelow {x : Text} := htidy.below (x := x) hforest (hspread.ended.resolve_left (by simp))
  refine ⟨_, toggle_eq_ok_iff.mpr ⟨r, hr, by rw [if_pos hexpanded]⟩, htidy, fun x => ?_,
    fun x => hbelow⟩
  rw [hnoted.mem, Bool.not_false]
  constructor
  · rintro ⟨hbefore, hafter⟩
    refine ⟨by_contra fun hnot => ?_, hbefore⟩
    rw [← childrenOf_eq h.layout] at hnot
    rw [hspread.visible hnot, hbefore] at hafter
    simp at hafter
  · rintro ⟨hx, hbefore⟩
    exact ⟨hbefore, (hbelow hx).1⟩

/-- Toggling a collapsed node shows its children. -/
theorem Tidy.toggle_collapsed (hforest : base.IsForest) (h : Tidy base [] [] s)
    (hid : s.visible? id = some true) (hcollapsed : s.expanded? id = some false) :
    ∃ t, s.toggle id = .ok t ∧ Tidy base [] [] t.state ∧
      ∀ x, x ∈ t.changed ↔ x ∈ base.childrenOf id := by
  obtain ⟨r, hr, hvisible⟩ := Option.map_eq_some_iff.mp hid
  have hexpanded : r.expanded = false := by simpa [expanded?, hr] using hcollapsed
  have hopen {x : Text} :
      HasOpenParent base.childrenOf (Transition.expandAll ⟨s, []⟩ [id]).state x ↔
        HasOpenParent base.childrenOf s x ∨ x ∈ [id].flatMap base.childrenOf :=
    HasOpenParent.expandAll h.layout
  have htidy : Tidy base [] [] (Transition.expandAll ⟨s, []⟩ [id]).state := by
    refine Tidy.expandAll hforest h (by simp) (by simp [hcollapsed]) fun x q hq hx => ?_
    have hshown : q.visible := by
      simp only [List.mem_singleton, List.flatMap_cons, List.flatMap_nil, List.append_nil] at hx
      rcases hx with rfl | hx
      · obtain rfl := Option.some.inj (hr.symm.trans hq)
        exact hvisible
      · exact h.visible_above hforest hid hx hq
    have hbefore := (h.visible hq).mp hshown
    simp only [List.not_mem_nil, or_false] at hbefore
    exact hbefore.imp_right fun hparent => hopen.mpr (.inl hparent)
  have hnoted : Noted true s (Transition.expandAll ⟨s, []⟩ [id]) := (Noted.refl true s).expandAll
  refine ⟨_, toggle_eq_ok_iff.mpr ⟨r, hr, by rw [if_neg (by simp [hexpanded])]⟩, htidy,
    fun x => ?_⟩
  rw [hnoted.mem, Bool.not_true]
  constructor
  · rintro ⟨hbefore, hafter⟩
    obtain ⟨q, hq, hhidden⟩ := Option.map_eq_some_iff.mp hbefore
    obtain ⟨q', hq', hshown⟩ := Option.map_eq_some_iff.mp hafter
    have hsame := hq'
    rw [find?_expandAll, hq] at hsame
    obtain rfl := Option.some.inj hsame
    rcases (htidy.visible hq').mp hshown with hroot | hparent | hclosed
    · exact absurd ((h.visible hq).mpr (.inl hroot)) (by simp [hhidden])
    · rcases hopen.mp hparent with hparent | hchild
      · exact absurd ((h.visible hq).mpr (.inr (.inl hparent))) (by simp [hhidden])
      · simpa using hchild
    · simp at hclosed
  · intro hchild
    obtain ⟨hhidden, -⟩ := h.child hforest hchild (by simp [hcollapsed])
    refine ⟨hhidden, ?_⟩
    obtain ⟨q, hq, -⟩ := Option.map_eq_some_iff.mp hhidden
    have hmem : x ∈ s.childrenOf id := by rwa [childrenOf_eq h.layout]
    obtain rfl := spanId_of_find? hq
    simp [visible?, find?_expandAll, hq, shownBy, hmem]

/-- All of a view in which nothing is expanded can be expanded. -/
theorem Tidy.expandAll_ids (hforest : base.IsForest) (h : Tidy base [] [] s)
    (hcollapsed : ∀ r ∈ s.records, r.expanded = false) :
    Tidy base [] [] (Transition.expandAll ⟨s, []⟩ (s.records.map (·.spanId))).state := by
  have hids : base.records.map (·.spanId) = s.records.map (·.spanId) :=
    ids_congr (by rw [← h.layout, fresh_fresh])
  refine Tidy.expandAll hforest h (hids ▸ hforest.nodup) (fun id _ hexpanded => ?_)
    fun x r hfind _ => ?_
  · obtain ⟨r, hr, hexpanded⟩ := expanded?_eq_some_iff.mp hexpanded
    simp [hcollapsed r (mem_of_find? hr)] at hexpanded
  · rw [hforest.isRoot_iff h.layout hfind, HasOpenParent.expandAll h.layout]
    by_cases hchild : ∃ parent, x ∈ base.childrenOf parent
    · obtain ⟨parent, hparent⟩ := hchild
      refine .inr (.inr (List.mem_flatMap.mpr ⟨parent, ?_, hparent⟩))
      rw [← hids]
      exact contains_iff_mem_ids.mp (contains_of_mem_childrenOf hparent)
    · exact .inl fun parent hparent => hchild ⟨parent, hparent⟩

theorem Tidy.step (hforest : base.IsForest) {a : Action} (h : Tidy base [] [] s)
    (ha : OutlineAction s a) (hstep : s.step a = .ok t) : Tidy base [] [] t.state := by
  cases a with
  | showNodes ids => exact ha.elim
  | hideNodes ids childrenOnly => exact ha.elim
  | collapseAll =>
      obtain rfl := Except.ok.inj hstep
      rw [collapseAll_state]
      simpa [h.layout] using tidy_fresh s
  | expandAll =>
      rw [expandAll_eq_ok_iff.mp hstep]
      exact h.expandAll_ids hforest ha
  | toggle id =>
      obtain ⟨r, hr, hvisible⟩ := Option.map_eq_some_iff.mp ha
      cases hexpanded : r.expanded with
      | true =>
          have hopen : s.expanded? id = some true := by simp [expanded?, hr, hexpanded]
          obtain ⟨after, hafter, htidy, -⟩ := h.toggle_expanded hforest hopen
          obtain rfl := Except.ok.inj (hafter.symm.trans hstep)
          exact htidy
      | false =>
          have hshut : s.expanded? id = some false := by simp [expanded?, hr, hexpanded]
          obtain ⟨after, hafter, htidy, -⟩ := h.toggle_collapsed hforest ha hshut
          obtain rfl := Except.ok.inj (hafter.symm.trans hstep)
          exact htidy

/-! ## Views of a tree -/

variable {spans : List Span} {tree : TraceTree}

theorem Tidy.isOutline (ht : TraceTree.Built spans tree) (h : Tidy (initial tree) [] [] s) :
    IsOutline tree s := by
  have hchildren : (initial tree).childrenOf = tree.childIds := childrenOf_initial tree
  refine ⟨?_, fun {id r} hfind => ?_, fun hfind hexpanded => ?_, fun hfind hparent => ?_,
    fun hfind hparent => ?_⟩
  · intro id
    rw [← contains_congr (fresh_fresh s), h.layout]
    exact contains_initial
  · have hbase : (initial tree).find? id = some r.fresh := by
      rw [← h.layout, find?_fresh, hfind]
      rfl
    have hroot := ht.isRoot_iff hbase
    change r.isRoot ↔ _ at hroot
    simpa [hchildren, ← hroot] using h.visible hfind
  · exact (h.expanded hfind hexpanded).resolve_right (by simp)
  · exact h.opened hfind (hchildren ▸ hparent)
  · exact h.shut hfind (hchildren ▸ hparent)

end

/-- Views that the operations of an outline lead to are outlines, and every visible node can be
toggled. -/
theorem isOutline_of_reached {spans : List Span} {t : TraceTree} {s : VisibilityState}
    (ht : TraceTree.build spans = .ok t) (h : Reached OutlineAction (initial t) s) :
    IsOutline t s ∧ ∀ id, s.visible? id = some true → TogglesSubtree t s id := by
  have hbuilt := TraceTree.Built.of_build ht
  have hforest := hbuilt.isForest_initial
  have hstart : Tidy (initial t) [] [] (initial t) := by simpa using tidy_fresh (initial t)
  have htidy : Tidy (initial t) [] [] s :=
    h.induction hstart fun _ _ _ hs ha hstep => hs.step hforest ha hstep
  refine ⟨htidy.isOutline hbuilt, fun id hid => ?_⟩
  rw [TogglesSubtree, ← childrenOf_initial t]
  obtain ⟨r, hr, -⟩ := Option.map_eq_some_iff.mp hid
  cases hexpanded : r.expanded with
  | true =>
      have hopen : s.expanded? id = some true := by simp [expanded?, hr, hexpanded]
      obtain ⟨after, hafter, -, hchanged, hbelow⟩ := htidy.toggle_expanded hforest hopen
      exact ⟨after, hafter, fun _ => ⟨hchanged, hbelow⟩, fun hshut => by simp [hopen] at hshut⟩
  | false =>
      have hshut : s.expanded? id = some false := by simp [expanded?, hr, hexpanded]
      obtain ⟨after, hafter, -, hchanged⟩ := htidy.toggle_collapsed hforest hid hshut
      exact ⟨after, hafter, fun hopen => by simp [hshut] at hopen, fun _ => hchanged⟩

/-- Every node of a chain with a branch is expanded. -/
theorem isOutline_of_reached_of_branch :
    ∃ (t : TraceTree) (s : VisibilityState),
      TraceTree.build [
        { traceId := "1", id := "a" },
        { traceId := "1", id := "b", parentId := some "a" },
        { traceId := "1", id := "c", parentId := some "b" },
        { traceId := "1", id := "d", parentId := some "b" }] = .ok t ∧
      Reached OutlineAction (initial t) s ∧ s ≠ initial t ∧
      IsOutline t s ∧ ∀ id, s.visible? id = some true → TogglesSubtree t s id := by
  have hnamed : ∀ s ∈ ([
      { traceId := "1", id := "a" },
      { traceId := "1", id := "b", parentId := some "a" },
      { traceId := "1", id := "c", parentId := some "b" },
      { traceId := "1", id := "d", parentId := some "b" }] : List Span),
      s.parentId ≠ some Text.empty := by decide
  obtain ⟨t, ht⟩ := TraceTree.exists_build hnamed
  have hknown : ("a" : Text) ∈ (initial t).records.map (·.spanId) := by
    rw [ids_initial, (TraceTree.Built.of_build ht).mem_ids]
    decide
  have hallowed : OutlineAction (initial t) .expandAll := by simp [OutlineAction, initial]
  have hreached := Reached.step .start hallowed (expandAll_eq_ok_iff.mpr rfl)
  refine ⟨t, _, ht, hreached, fun heq => ?_, isOutline_of_reached ht hreached⟩
  have hexpanded := expanded?_expandAll (t := ⟨initial t, []⟩).mpr
    (.inr ⟨hknown, contains_iff_mem_ids.mpr hknown⟩)
  rw [heq, expanded?, find?_initial] at hexpanded
  cases hfind : t.placement? "a" <;> simp [hfind] at hexpanded

end TraceExplorer.VisibilityState
