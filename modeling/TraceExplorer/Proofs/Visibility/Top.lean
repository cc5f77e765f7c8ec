import TraceExplorer.Proofs.Visibility.Frame
import TraceExplorer.Proofs.Visibility.Report

/-!
# The top nodes of a view

No grant ever holds a top node, since grants go from a node to its children. Top nodes stay visible
all the same, and so a view can always be put back to the first one.
-/

namespace TraceExplorer.VisibilityState

open Transition Relation

section

variable {base s : VisibilityState} {t : Transition} {id : Text} {ids : List Text} {a : Action}
  {childrenOnly : Bool}

theorem not_belowSome (htop : ∀ parent, id ∉ s.childrenOf parent) :
    ¬ BelowSome s.childrenOf ids id := by
  rintro ⟨above, -, hbelow⟩
  obtain ⟨parent, -, hchild⟩ := TransGen.tail'_iff.mp hbelow
  exact htop parent hchild

theorem openParents?_expandAll_top (htop : ∀ parent, id ∉ s.childrenOf parent) :
    (Transition.expandAll ⟨s, []⟩ ids).state.openParents? id = s.openParents? id := by
  have hnone : id ∉ ids.flatMap s.childrenOf := by
    intro hmem
    obtain ⟨parent, -, hchild⟩ := List.mem_flatMap.mp hmem
    exact htop parent hchild
  rw [openParents?_expandAll, List.count_eq_zero_of_not_mem hnone]
  apply Option.map_id'

theorem openParents?_collapse_top (hforest : s.IsForest)
    (htop : ∀ parent, id ∉ s.childrenOf parent) :
    (Transition.collapse childrenOnly ⟨s, []⟩ ids).state.openParents? id = s.openParents? id := by
  apply (changesOnly_collapse hforest ids childrenOnly).openParents
  exact not_belowSome htop

theorem openParents?_fresh (hknown : s.contains id) : s.fresh.openParents? id = some 0 := by
  obtain ⟨r, hfind⟩ := Option.isSome_iff_exists.mp hknown
  rw [openParents?, find?_fresh, hfind]
  rfl

/-- No operation grants anything to a node that is nobody's child. -/
theorem openParents?_step_top (hforest : s.IsForest) (htop : ∀ parent, id ∉ s.childrenOf parent)
    (hnone : s.openParents? id = some 0) (hstep : s.step a = .ok t) :
    t.state.openParents? id = some 0 := by
  cases a with
  | showNodes ids =>
      obtain ⟨-, rfl⟩ := showNodes_eq_ok_iff.mp hstep
      rwa [openParents?_expandAll_top htop]
  | hideNodes ids childrenOnly =>
      obtain ⟨-, rfl⟩ := hideNodes_eq_ok_iff.mp hstep
      rwa [openParents?_collapse_top hforest htop]
  | toggle x =>
      obtain ⟨r, -, rfl⟩ := toggle_eq_ok_iff.mp hstep
      split
      · rwa [openParents?_collapse_top hforest htop]
      · rwa [openParents?_expandAll_top htop]
  | expandAll =>
      obtain rfl := expandAll_eq_ok_iff.mp hstep
      rwa [openParents?_expandAll_top htop]
  | collapseAll =>
      obtain rfl := Except.ok.inj hstep
      rw [collapseAll_state]
      apply openParents?_fresh
      obtain ⟨r, hfind, -⟩ := Option.map_eq_some_iff.mp hnone
      simp [contains, hfind]

theorem openParents?_of_reached {allowed : VisibilityState → Action → Prop}
    (hforest : base.IsForest) (htop : ∀ parent, id ∉ base.childrenOf parent)
    (hstart : base.openParents? id = some 0) (h : Reached allowed base s) :
    s.openParents? id = some 0 := by
  refine (h.induction (P := fun s => s.fresh = base.fresh ∧ s.openParents? id = some 0)
    ⟨rfl, hstart⟩ ?_).2
  rintro s a t ⟨hlayout, hnone⟩ - hstep
  refine ⟨(fresh_of_step hstep).trans hlayout, ?_⟩
  apply openParents?_step_top (hforest.congr hlayout.symm) _ hnone hstep
  rwa [childrenOf_congr hlayout]

theorem visible?_of_reached {allowed : VisibilityState → Action → Prop} {r : VisibilityRecord}
    (hforest : base.IsForest) (hbase : base.fresh = base) (hfind : base.find? id = some r)
    (hroot : r.isRoot) (h : Reached allowed base s) : s.visible? id = some true := by
  have hshown : TopVisible base (⟨s, []⟩, []) := by
    refine h.induction (P := fun s => TopVisible base (⟨s, []⟩, [])) ?_
      fun _ _ _ hs _ hstep => hs.step hforest hstep
    simpa [hbase] using TopVisible.fresh base
  have hlayout : s.fresh = base := hshown.layout
  rw [← hlayout, find?_fresh] at hfind
  obtain ⟨q, hq, rfl⟩ := Option.map_eq_some_iff.mp hfind
  rw [visible?, hq, Option.map_some]
  apply congrArg some
  exact hshown.visible hq hroot

end

/-- In every view that operations lead to, every top node is visible without a grant from a parent,
and collapsing everything leads back to the first view. -/
theorem top_of_reached {spans : List Span} {tree : TraceTree} {s : VisibilityState}
    (htree : TraceTree.build spans = .ok tree)
    (h : Reached (fun _ _ => True) (initial tree) s) :
    (∀ id ∈ tree.topLevelIds, s.visible? id = some true ∧ s.openParents? id = some 0) ∧
      ∃ t, s.step .collapseAll = .ok t ∧ t.state = initial tree := by
  have hbuilt := TraceTree.Built.of_build htree
  have hforest := hbuilt.isForest_initial
  have hlayout : s.fresh = initial tree := h.fresh_eq.trans (fresh_initial tree)
  refine ⟨fun id hid => ?_, s.collapseAll, rfl, hlayout⟩
  have hknown : (initial tree).contains id :=
    hbuilt.contains_initial.mpr (hbuilt.mem_topLevelIds.mp hid).1
  obtain ⟨r, hfind⟩ := Option.isSome_iff_exists.mp hknown
  have hroot : r.isRoot := (hbuilt.isRoot_iff hfind).mpr hid
  constructor
  · exact visible?_of_reached hforest (fresh_initial tree) hfind hroot h
  · apply openParents?_of_reached hforest ((hforest.root hfind).mp hroot) _ h
    rw [← fresh_initial]
    exact openParents?_fresh hknown

/-- Three spans name each other as parents in a circle that is cut at the first. The first and the
last are shown and hidden, the last once more often shown than hidden. -/
theorem top_of_reached_of_circle :
    ∃ (tree : TraceTree) (shown hidden cleared : Transition),
      TraceTree.build [
        { traceId := "1", id := "a", parentId := some "c" },
        { traceId := "1", id := "b", parentId := some "a" },
        { traceId := "1", id := "c", parentId := some "b" }] = .ok tree ∧
      tree.adopted = (["a"] : List Text) ∧ (initial tree).showNodes ["c", "a", "c"] = .ok shown ∧
      shown.state.hideNodes ["c", "a"] = .ok hidden ∧ hidden.state.openChildren? "a" = some 1 ∧
      Reached (fun _ _ => True) (initial tree) hidden.state ∧
      hidden.state.visible? "a" = some true ∧ hidden.state.openParents? "a" = some 0 ∧
      hidden.state.step .collapseAll = .ok cleared ∧ cleared.state = initial tree := by
  have hview : (TraceTree.build [
      { traceId := "1", id := "a", parentId := some "c" },
      { traceId := "1", id := "b", parentId := some "a" },
      { traceId := "1", id := "c", parentId := some "b" }]).toOption.bind (fun tree =>
        ((initial tree).showNodes ["c", "a", "c"]).toOption.bind fun shown =>
          (shown.state.hideNodes ["c", "a"]).toOption.map fun hidden =>
            (tree.adopted, tree.topLevelIds, hidden.state.openChildren? "a")) =
      some ((["a"] : List Text), (["a"] : List Text), some 1) := by decide +kernel
  obtain ⟨tree, htree, hview⟩ := Option.bind_eq_some_iff.mp hview
  obtain ⟨shown, hshown, hview⟩ := Option.bind_eq_some_iff.mp hview
  obtain ⟨hidden, hhidden, hview⟩ := Option.map_eq_some_iff.mp hview
  rw [toOption_eq_some_iff] at htree hshown hhidden
  simp only [Prod.mk.injEq] at hview
  obtain ⟨hadopted, htop, hchildren⟩ := hview
  have hfirst : Reached (fun _ _ => True) (initial tree) shown.state :=
    .step (a := .showNodes ["c", "a", "c"]) .start trivial hshown
  have hreached : Reached (fun _ _ => True) (initial tree) hidden.state :=
    .step (a := .hideNodes ["c", "a"] false) hfirst trivial hhidden
  obtain ⟨hopen, cleared, hcleared, hinitial⟩ := top_of_reached htree hreached
  obtain ⟨hvisible, hparents⟩ := hopen "a" (htop ▸ List.mem_singleton_self _)
  exact ⟨tree, shown, hidden, cleared, htree, hadopted, hshown, hhidden, hchildren, hreached,
    hvisible, hparents, hcleared, hinitial⟩

end TraceExplorer.VisibilityState
