import Mathlib.Data.Set.Card
import TraceExplorer.Proofs.Visibility.Frame
import TraceExplorer.Proofs.Visibility.Shown

/-!
# Grants from below in a view that is toggled

An expansion grants something to every node above it. A node that is folded back by toggling takes
nothing back above it, so the nodes above keep one grant for each node below them that is expanded
and one for each time that a node below them was folded.
-/

namespace TraceExplorer.VisibilityState

def openBelow (t : TraceTree) (s : VisibilityState) (id : Text) : Set Text :=
  {x | Below t.childIds id x ∧ s.expanded? x = some true}

/-- How often nodes below a node are folded while the listed nodes are toggled one after the
other. -/
noncomputable def foldsBelow (t : TraceTree) (id : Text) : VisibilityState → List Text → Nat
  | _, [] => 0
  | s, x :: rest =>
    match s.toggle x with
    | .error _ => 0
    | .ok after =>
      (openBelow t s id \ openBelow t after.state id).ncard + foldsBelow t id after.state rest

open Transition Relation

section

variable {base s s' : VisibilityState} {tree : TraceTree} {spans : List Span} {t : Transition}
  {id x y : Text} {ids : List Text} {n : Nat}

/-! ## Nodes above -/

theorem IsForest.above_of_below (h : base.IsForest) (hbelow : Below base.childrenOf x y) :
    x ∈ base.ancestorsOf y := by
  induction hbelow with
  | single hchild =>
      rw [h.above_child hchild]
      apply List.mem_cons_self
  | tail _ hchild ih =>
      rw [h.above_child hchild]
      apply List.mem_cons_of_mem
      exact ih

theorem IsForest.contains_of_below (h : base.IsForest) (hbelow : Below base.childrenOf x y) :
    base.contains y := by
  obtain ⟨parent, -, hchild⟩ := TransGen.tail'_iff.mp hbelow
  exact h.known hchild

theorem mem_ancestorIds_iff (h : TraceTree.Built spans tree) (hid : (initial tree).contains id) :
    id ∈ tree.ancestorIds x ↔ Below tree.childIds id x := by
  have hforest := h.isForest_initial
  rw [← ancestorsOf_initial, ← childrenOf_initial]
  constructor
  · exact fun habove => hforest.below_of_mem_ancestorsOf hid habove
  · exact fun hbelow => hforest.above_of_below hbelow

/-! ## One toggle -/

theorem openChildren?_expandAll :
    (t.expandAll ids).state.openChildren? x =
      (t.state.openChildren? x).map (· + (ids.flatMap t.state.ancestorsOf).count x) := by
  rw [openChildren?, find?_expandAll, openChildren?, Option.map_map, Option.map_map]
  apply map_find?_congr
  rintro r rfl
  rfl

theorem mem_openBelow :
    x ∈ openBelow tree s id ↔ Below tree.childIds id x ∧ s.expanded? x = some true := Iff.rfl

theorem finite_openBelow (hforest : (initial tree).IsForest) : (openBelow tree s id).Finite := by
  apply ((initial tree).records.map (·.spanId)).finite_toSet.subset
  rintro x ⟨hbelow, -⟩
  rw [← childrenOf_initial] at hbelow
  exact contains_iff_mem_ids.mp (hforest.contains_of_below hbelow)

theorem openBelow_collapse_subset :
    openBelow tree (Transition.collapse true ⟨s, []⟩ ids).state id ⊆ openBelow tree s id :=
  fun _ hx => ⟨hx.1, (expanded?_collapse hx.2).1⟩

theorem openBelow_expandAll_of_below (hx : s.contains x) (hbelow : Below tree.childIds id x) :
    openBelow tree (Transition.expandAll ⟨s, []⟩ [x]).state id =
      insert x (openBelow tree s id) := by
  ext y
  rw [Set.mem_insert_iff, mem_openBelow, mem_openBelow, expanded?_expandAll, List.mem_singleton]
  constructor
  · rintro ⟨hy, hopen | ⟨rfl, -⟩⟩
    · exact .inr ⟨hy, hopen⟩
    · exact .inl rfl
  · rintro (rfl | ⟨hy, hopen⟩)
    · exact ⟨hbelow, .inr ⟨rfl, hx⟩⟩
    · exact ⟨hy, .inl hopen⟩

theorem openBelow_expandAll_of_not_below (hbelow : ¬ Below tree.childIds id x) :
    openBelow tree (Transition.expandAll ⟨s, []⟩ [x]).state id = openBelow tree s id := by
  ext y
  rw [mem_openBelow, mem_openBelow, expanded?_expandAll, List.mem_singleton]
  refine and_congr_right fun hy => or_iff_left ?_
  rintro ⟨rfl, -⟩
  exact hbelow hy

/-- A toggle that expands a node adds one to the nodes above it and folds none. -/
theorem openChildren?_toggle_collapsed (h : TraceTree.Built spans tree)
    (hlayout : s.fresh = initial tree) (hid : (initial tree).contains id) (hx : s.contains x)
    (hcollapsed : s.expanded? x ≠ some true)
    (hcount : s.openChildren? id = some ((openBelow tree s id).ncard + n)) :
    (Transition.expandAll ⟨s, []⟩ [x]).state.openChildren? id =
        some ((openBelow tree (Transition.expandAll ⟨s, []⟩ [x]).state id).ncard + n) ∧
      openBelow tree s id ⊆ openBelow tree (Transition.expandAll ⟨s, []⟩ [x]).state id := by
  have habove : s.ancestorsOf = tree.ancestorIds := by
    rw [← ancestorsOf_initial, ← hlayout, ancestorsOf_fresh]
  rw [openChildren?_expandAll, hcount, Option.map_some, List.flatMap_singleton, habove]
  by_cases hbelow : Below tree.childIds id x
  · have honce : (tree.ancestorIds x).count id = 1 := by
      apply List.count_eq_one_of_mem (h.nodup_ancestorIds x)
      exact (mem_ancestorIds_iff h hid).mpr hbelow
    have hnew : x ∉ openBelow tree s id := fun hmem => hcollapsed hmem.2
    rw [openBelow_expandAll_of_below hx hbelow, honce,
      Set.ncard_insert_of_notMem hnew (finite_openBelow h.isForest_initial)]
    exact ⟨congrArg some (by omega), Set.subset_insert x _⟩
  · have hnever : (tree.ancestorIds x).count id = 0 := by
      apply List.count_eq_zero_of_not_mem
      exact mt (mem_ancestorIds_iff h hid).mp hbelow
    rw [openBelow_expandAll_of_not_below hbelow, hnever]
    exact ⟨rfl, subset_rfl⟩

theorem openChildren?_collapse (hforest : s.IsForest) :
    (Transition.collapse true ⟨s, []⟩ ids).state.openChildren? id = s.openChildren? id := by
  apply (changesOnly_collapse hforest ids true).openChildren
  rintro ⟨honly, -⟩
  cases honly

/-- What a node has more than the expanded nodes below it is what was folded there. -/
theorem openChildren?_toggle (h : TraceTree.Built spans tree) (hlayout : s.fresh = initial tree)
    (hid : (initial tree).contains id) (hstep : s.toggle x = .ok t)
    (hcount : s.openChildren? id = some ((openBelow tree s id).ncard + n)) :
    t.state.openChildren? id = some ((openBelow tree t.state id).ncard +
      (n + (openBelow tree s id \ openBelow tree t.state id).ncard)) := by
  obtain ⟨r, hfind, rfl⟩ := toggle_eq_ok_iff.mp hstep
  split
  · have hforest : s.IsForest :=
      h.isForest_initial.congr (by rw [hlayout, fresh_initial])
    have hfewer : openBelow tree (Transition.collapse true ⟨s, []⟩ [x]).state id ⊆
        openBelow tree s id := openBelow_collapse_subset
    have hsplit := Set.ncard_sdiff_add_ncard_of_subset hfewer (finite_openBelow h.isForest_initial)
    rw [openChildren?_collapse hforest, hcount, Option.some_inj]
    omega
  · rename_i hcollapsed
    have hx : s.contains x := by simp [contains, hfind]
    have hshut : s.expanded? x ≠ some true := by simpa [expanded?, hfind] using hcollapsed
    obtain ⟨hafter, hkept⟩ := openChildren?_toggle_collapsed h hlayout hid hx hshut hcount
    rw [hafter, Set.sdiff_eq_empty.mpr hkept, Set.ncard_empty, Nat.add_zero]

/-! ## Any toggles -/

theorem openChildren?_fresh (hknown : s.contains id) : s.fresh.openChildren? id = some 0 := by
  obtain ⟨r, hfind⟩ := Option.isSome_iff_exists.mp hknown
  rw [openChildren?, find?_fresh, hfind]
  rfl

theorem openBelow_fresh : openBelow tree s.fresh id = ∅ := by
  apply Set.eq_empty_of_forall_notMem
  rintro x ⟨-, hopen⟩
  rw [expanded?, find?_fresh, Option.map_map] at hopen
  obtain ⟨r, -, hshut⟩ := Option.map_eq_some_iff.mp hopen
  exact Bool.noConfusion hshut

theorem openChildren?_run_toggles (h : TraceTree.Built spans tree)
    (hid : (initial tree).contains id) (hlayout : s.fresh = initial tree)
    (hcount : s.openChildren? id = some ((openBelow tree s id).ncard + n))
    (hrun : s.run (ids.map .toggle) = .ok s') :
    s'.openChildren? id =
      some ((openBelow tree s' id).ncard + (n + foldsBelow tree id s ids)) := by
  induction ids generalizing s n with
  | nil =>
      obtain rfl := Except.ok.inj hrun
      exact hcount
  | cons x rest ih =>
      obtain ⟨t, hstep, hrest⟩ := bind_eq_ok_iff.mp hrun
      have htoggle : s.toggle x = .ok t := hstep
      have hnext := openChildren?_toggle h hlayout hid htoggle hcount
      rw [ih ((fresh_of_step hstep).trans hlayout) hnext hrest, foldsBelow, htoggle, Nat.add_assoc]

end

/-- However the nodes of a tree are toggled, every node has as many grants from below as there are
expanded nodes below it, and one more for each time that a node below it was folded. -/
theorem openChildren_of_toggles {spans : List Span} {tree : TraceTree} {ids : List Text}
    (htree : TraceTree.build spans = .ok tree) (hids : ∀ x ∈ ids, x ∈ tree.nodes.map (·.id)) :
    ∃ s, (initial tree).run (ids.map .toggle) = .ok s ∧
      ∀ id ∈ tree.nodes.map (·.id), s.openChildren? id =
        some ((openBelow tree s id).ncard + foldsBelow tree id (initial tree) ids) := by
  have h := TraceTree.Built.of_build htree
  have hforest : (initial tree).fresh.IsForest := by
    rw [fresh_initial]
    exact h.isForest_initial
  have hknown : ∀ a ∈ ids.map Action.toggle, ∀ x ∈ a.namedIds, (initial tree).contains x := by
    intro a ha x hx
    obtain ⟨y, hy, rfl⟩ := List.mem_map.mp ha
    obtain rfl := List.mem_singleton.mp hx
    exact contains_initial.mpr (hids x hy)
  have hrun := run_eq_ok hknown hforest
  refine ⟨_, hrun, fun id hid => ?_⟩
  have hid : (initial tree).contains id := contains_initial.mpr hid
  have hstart : (initial tree).openChildren? id =
      some ((openBelow tree (initial tree) id).ncard + 0) := by
    rw [← fresh_initial, openBelow_fresh, Set.ncard_empty]
    exact openChildren?_fresh hid
  rw [openChildren?_run_toggles h hid (fresh_initial tree) hstart hrun, Nat.zero_add]

/-- In a chain of four the second node is folded by its own toggle, and once more with the third by
a toggle of the first. -/
theorem openChildren_of_toggles_of_chain :
    ∃ (tree : TraceTree) (s : VisibilityState),
      TraceTree.build [
        { traceId := "1", id := "a" },
        { traceId := "1", id := "b", parentId := some "a" },
        { traceId := "1", id := "c", parentId := some "b" },
        { traceId := "1", id := "d", parentId := some "c" }] = .ok tree ∧
      (initial tree).run ((["a", "b", "b", "b", "c", "a", "c"] : List Text).map .toggle) = .ok s ∧
      s.openChildren? "a" = some 4 ∧
      (openBelow tree s "a").ncard +
        foldsBelow tree "a" (initial tree) ["a", "b", "b", "b", "c", "a", "c"] = 4 := by
  have hview : (TraceTree.build [
      { traceId := "1", id := "a" },
      { traceId := "1", id := "b", parentId := some "a" },
      { traceId := "1", id := "c", parentId := some "b" },
      { traceId := "1", id := "d", parentId := some "c" }]).toOption.bind (fun tree =>
        ((initial tree).run ((["a", "b", "b", "b", "c", "a", "c"] : List Text).map
          .toggle)).toOption.map fun s => (tree.nodes.map (·.id), s.openChildren? "a")) =
      some ((["a", "b", "c", "d"] : List Text), some 4) := by decide +kernel
  obtain ⟨tree, htree, hview⟩ := Option.bind_eq_some_iff.mp hview
  obtain ⟨s, hs, hview⟩ := Option.map_eq_some_iff.mp hview
  rw [toOption_eq_some_iff] at htree hs
  obtain ⟨hnodes, hchildren⟩ := Prod.mk.inj hview
  have hids : ∀ x ∈ (["a", "b", "b", "b", "c", "a", "c"] : List Text),
      x ∈ tree.nodes.map (·.id) := by
    rw [hnodes]
    decide
  obtain ⟨s', hs', htotal⟩ := openChildren_of_toggles htree hids
  obtain rfl := Except.ok.inj (hs'.symm.trans hs)
  have ha := htotal "a" (by rw [hnodes]; decide)
  exact ⟨tree, s', htree, hs, hchildren, Option.some.inj (ha.symm.trans hchildren)⟩

/-- A node is expanded and folded again. The node above it keeps the grant although nothing below it
is expanded. -/
theorem openChildren_ne_of_folded :
    ∃ (tree : TraceTree) (s : VisibilityState),
      TraceTree.build [
        { traceId := "1", id := "a" },
        { traceId := "1", id := "b", parentId := some "a" }] = .ok tree ∧
      (initial tree).run [.toggle "a", .toggle "b", .toggle "b"] = .ok s ∧
      s.openChildren? "a" = some 1 ∧ s.openChildren? "a" ≠ some (openBelow tree s "a").ncard := by
  have hview : (TraceTree.build [
      { traceId := "1", id := "a" },
      { traceId := "1", id := "b", parentId := some "a" }]).toOption.bind (fun tree =>
        ((initial tree).run [.toggle "a", .toggle "b", .toggle "b"]).toOption.map fun s =>
          ((s.records.filter (·.expanded)).map (·.spanId), s.openChildren? "a")) =
      some ((["a"] : List Text), some 1) := by decide +kernel
  obtain ⟨tree, htree, hview⟩ := Option.bind_eq_some_iff.mp hview
  obtain ⟨s, hs, hview⟩ := Option.map_eq_some_iff.mp hview
  rw [toOption_eq_some_iff] at htree hs
  obtain ⟨hexpanded, hchildren⟩ := Prod.mk.inj hview
  have hforest := (TraceTree.Built.of_build htree).isForest_initial
  have hempty : openBelow tree s "a" = ∅ := by
    apply Set.eq_empty_of_forall_notMem
    rintro x ⟨hbelow, hopen⟩
    obtain ⟨r, hfind, hr⟩ := expanded?_eq_some_iff.mp hopen
    have hmem : x ∈ (s.records.filter (·.expanded)).map (·.spanId) :=
      List.mem_map.mpr ⟨r, List.mem_filter.mpr ⟨mem_of_find? hfind, hr⟩, spanId_of_find? hfind⟩
    obtain rfl := List.mem_singleton.mp (hexpanded ▸ hmem)
    rw [← childrenOf_initial] at hbelow
    exact hforest.not_below_self hbelow
  refine ⟨tree, s, htree, hs, hchildren, ?_⟩
  rw [hchildren, hempty, Set.ncard_empty]
  decide

end TraceExplorer.VisibilityState
