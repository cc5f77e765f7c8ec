import TraceExplorer.Proofs.Success
import TraceExplorer.Proofs.Visibility.Change
import TraceExplorer.Proofs.Visibility.Tidy

/-!
# How far down a collapse reaches

A collapse goes down from a node as long as the nodes on the way have no other grant. Nodes that are
expanded once more get one grant more, so that collapsing a node after everything was expanded
hides those nodes below it that no earlier grant holds.
-/

namespace TraceExplorer.VisibilityState

def openParents? (s : VisibilityState) (id : Text) : Option Nat :=
  (s.find? id).map (·.openParents.value)

/-- The child has no grant but that of its parent. -/
def Loose (s : VisibilityState) (parent child : Text) : Prop :=
  child ∈ s.childrenOf parent ∧ s.openParents? child = some 1

/-- A node is on the way from a node above down to a lower one, which counts itself. -/
def OnWay (childrenOf : Text → List Text) (top bottom id : Text) : Prop :=
  Below childrenOf top id ∧ (id = bottom ∨ Below childrenOf id bottom)

def FoldAction (_ : VisibilityState) : Action → Prop
  | .toggle _ => True
  | .expandAll => True
  | .collapseAll => True
  | .showNodes _ => False
  | .hideNodes _ _ => False

open Transition Relation

section

variable {base s s' : VisibilityState} {t : Transition} {p : Transition × List Text} {a : Action}
  {id x y z top parent child : Text} {ids : List Text} {depth : Nat}

/-! ## Depth -/

theorem IsForest.length_above_child (h : base.IsForest) (hchild : child ∈ base.childrenOf parent) :
    (base.ancestorsOf child).length = (base.ancestorsOf parent).length + 1 := by
  rw [h.above_child hchild, List.length_cons]

theorem IsForest.length_above_lt (h : base.IsForest) (hbelow : Below base.childrenOf x y) :
    (base.ancestorsOf x).length < (base.ancestorsOf y).length := by
  induction hbelow with
  | single hchild =>
      rw [h.length_above_child hchild]
      exact Nat.lt_succ_self _
  | tail _ hchild ih =>
      rw [h.length_above_child hchild]
      exact Nat.lt_succ_of_lt ih

theorem IsForest.not_below_self (h : base.IsForest) : ¬ Below base.childrenOf x x :=
  fun hbelow => Nat.lt_irrefl _ (h.length_above_lt hbelow)

/-- A node above a child is its parent or above its parent. -/
theorem IsForest.below_child (h : base.IsForest) (hchild : child ∈ base.childrenOf parent)
    (hbelow : Below base.childrenOf x child) : x = parent ∨ Below base.childrenOf x parent := by
  cases hbelow with
  | single hchild' => exact .inl (h.parent_unique hchild' hchild)
  | tail hbelow hchild' =>
      obtain rfl := h.parent_unique hchild' hchild
      exact .inr hbelow

/-- A way down on which a test holds of each node is a chain of children that pass it. -/
theorem IsForest.transGen_iff (h : base.IsForest) {test : Text → Prop} :
    TransGen (fun parent child => child ∈ base.childrenOf parent ∧ test child) x y ↔
      Below base.childrenOf x y ∧ ∀ z, OnWay base.childrenOf x y z → test z := by
  constructor
  · intro hchain
    induction hchain with
    | @single y hfirst =>
        refine ⟨.single hfirst.1, ?_⟩
        rintro z ⟨hz, rfl | hzy⟩
        · exact hfirst.2
        · rcases h.below_child hfirst.1 hzy with rfl | hzx
          · exact absurd hz h.not_below_self
          · exact absurd (hz.trans hzx) h.not_below_self
    | @tail parent y hchain hlast ih =>
        refine ⟨ih.1.tail hlast.1, ?_⟩
        rintro z ⟨hz, rfl | hzy⟩
        · exact hlast.2
        · exact ih.2 z ⟨hz, h.below_child hlast.1 hzy⟩
  · rintro ⟨hbelow, hall⟩
    induction hbelow with
    | @single y hchild => exact .single ⟨hchild, hall y ⟨.single hchild, .inl rfl⟩⟩
    | @tail parent y hbelow hchild ih =>
        refine .tail (ih fun z hz => ?_) ⟨hchild, hall y ⟨hbelow.tail hchild, .inl rfl⟩⟩
        refine hall z ⟨hz.1, .inr ?_⟩
        rcases hz.2 with rfl | hzparent
        · exact .single hchild
        · exact hzparent.tail hchild

/-! ## One level of a collapse -/

theorem visible?_foldl_collapseOne :
    (ids.foldl (collapseOne true) p).1.state.visible? x = p.1.state.visible? x := by
  induction ids generalizing p with
  | nil => rfl
  | cons id rest ih =>
      rw [List.foldl_cons, ih, visible?, find?_collapseOne, Option.map_map, visible?]
      rfl

theorem openParents?_collapseOne :
    (collapseOne true p id).1.state.openParents? x =
      (p.1.state.openParents? x).map (· - (p.1.state.childrenOf id).count x) := by
  rw [openParents?, find?_collapseOne, openParents?, Option.map_map, Option.map_map]
  rfl

theorem openParents?_foldl_collapseOne :
    (ids.foldl (collapseOne true) p).1.state.openParents? x =
      (p.1.state.openParents? x).map (· - (ids.flatMap p.1.state.childrenOf).count x) := by
  induction ids generalizing p with
  | nil => simp
  | cons id rest ih =>
      rw [List.foldl_cons, ih, openParents?_collapseOne, childrenOf_congr fresh_collapseOne,
        Option.map_map, List.flatMap_cons, List.count_append]
      congr 1
      funext n
      exact Nat.sub_sub n _ _

/-- The children that a level closes are those that had no other grant. -/
theorem mem_closed_foldl_collapseOne (hnodup : (ids.flatMap p.1.state.childrenOf).Nodup) :
    x ∈ (ids.foldl (collapseOne true) p).2 ↔
      x ∈ p.2 ∨ ∃ id ∈ ids, Loose p.1.state id x := by
  induction ids generalizing p with
  | nil => simp
  | cons id rest ih =>
      have hchildren : (collapseOne true p id).1.state.childrenOf = p.1.state.childrenOf :=
        childrenOf_congr fresh_collapseOne
      rw [List.flatMap_cons, List.nodup_append'] at hnodup
      obtain ⟨hid, hrest, hdisjoint⟩ := hnodup
      -- The grants of the children of later nodes are as they were before this one.
      have hlater : (∃ id' ∈ rest, Loose (collapseOne true p id).1.state id' x) ↔
          ∃ id' ∈ rest, Loose p.1.state id' x := by
        refine exists_congr fun id' => and_congr_right fun hid' => ?_
        rw [Loose, Loose, hchildren, openParents?_collapseOne]
        refine and_congr_right fun hx => ?_
        have hnot : x ∉ p.1.state.childrenOf id := fun hmem =>
          hdisjoint hmem (List.mem_flatMap.mpr ⟨id', hid', hx⟩)
        rw [List.count_eq_zero_of_not_mem hnot]
        simp
      rw [List.foldl_cons, ih (by rwa [hchildren]), hlater, mem_closed_collapseOne hid, or_assoc]
      simp [Loose, openParents?]

theorem visible?_foldl_hide :
    (ids.foldl (setVisible false) t).state.visible? x = some false ↔
      t.state.visible? x = some false ∨ x ∈ ids ∧ t.state.contains x := by
  rw [visible?, find?_foldl_setVisible, visible?, contains]
  split
  · rename_i hmem
    cases t.state.find? x <;> simp [hmem]
  · rename_i hmem
    simp [hmem]

theorem openParents?_foldl_setVisible {visible : Bool} :
    (ids.foldl (setVisible visible) t).state.openParents? x = t.state.openParents? x := by
  rw [openParents?, find?_foldl_setVisible, openParents?]
  split
  · rw [Option.map_map]
    rfl
  · rfl

theorem Loose.contains (h : Loose s parent child) : s.contains child := by
  obtain ⟨r, hr, -⟩ := Option.map_eq_some_iff.mp h.2
  simp [VisibilityState.contains, hr]

theorem mem_closed_collapseLevel (hnodup : (ids.flatMap t.state.childrenOf).Nodup) :
    x ∈ (t.collapseLevel true ids).2 ↔ ∃ id ∈ ids, Loose t.state id x :=
  (mem_closed_foldl_collapseOne (p := (t, [])) hnodup).trans (by simp)

theorem visible?_collapseLevel (hnodup : (ids.flatMap t.state.childrenOf).Nodup) :
    (t.collapseLevel true ids).1.state.visible? x = some false ↔
      t.state.visible? x = some false ∨ ∃ id ∈ ids, Loose t.state id x := by
  have hhidden : (t.collapseLevel true ids).1.state.visible? x = some false ↔
      (ids.foldl (collapseOne true) (t, [])).1.state.visible? x = some false ∨
        x ∈ (t.collapseLevel true ids).2 ∧
          (ids.foldl (collapseOne true) (t, [])).1.state.contains x := visible?_foldl_hide
  rw [hhidden, visible?_foldl_collapseOne, mem_closed_collapseLevel hnodup,
    contains_congr fresh_foldl_collapseOne]
  refine or_congr_right (and_iff_left_of_imp ?_)
  rintro ⟨id, -, hloose⟩
  exact hloose.contains

theorem openParents?_collapseLevel :
    (t.collapseLevel true ids).1.state.openParents? x =
      (t.state.openParents? x).map (· - (ids.flatMap t.state.childrenOf).count x) :=
  openParents?_foldl_setVisible.trans openParents?_foldl_collapseOne

/-! ## A whole collapse -/

/-- Chains of loose nodes are the same in two views that have the same grants below their start. -/
theorem transGen_loose_congr (hforest : base.IsForest)
    (hchildren : s.childrenOf = base.childrenOf) (hchildren' : s'.childrenOf = base.childrenOf)
    (hsame : ∀ z, (base.ancestorsOf x).length < (base.ancestorsOf z).length →
      s.openParents? z = s'.openParents? z) :
    TransGen (Loose s) x y ↔ TransGen (Loose s') x y := by
  have hlift {s s' : VisibilityState} (hchildren : s.childrenOf = base.childrenOf)
      (hchildren' : s'.childrenOf = base.childrenOf)
      (hsame : ∀ z, (base.ancestorsOf x).length < (base.ancestorsOf z).length →
        s.openParents? z = s'.openParents? z)
      (h : TransGen (Loose s) x y) : TransGen (Loose s') x y := by
    have hedge {parent z : Text} (hbelow : Below base.childrenOf x z)
        (hloose : Loose s parent z) : Loose s' parent z := by
      rw [Loose, ← hsame z (hforest.length_above_lt hbelow), hchildren', ← hchildren]
      exact hloose
    suffices hboth : TransGen (Loose s') x y ∧ Below base.childrenOf x y from hboth.1
    induction h with
    | single hfirst =>
        have hbelow : Below base.childrenOf x _ := .single (hchildren ▸ hfirst.1)
        exact ⟨.single (hedge hbelow hfirst), hbelow⟩
    | tail _ hlast ih =>
        have hbelow : Below base.childrenOf x _ := ih.2.tail (hchildren ▸ hlast.1)
        exact ⟨ih.1.tail (hedge hbelow hlast), hbelow⟩
  exact ⟨hlift hchildren hchildren' hsame, hlift hchildren' hchildren fun z hz => (hsame z hz).symm⟩

/-- A collapse of nodes of one depth hides what can be reached from them through nodes without
another grant, and nothing else. -/
theorem visible?_collapse (hforest : base.IsForest) (hlayout : t.state.fresh = base)
    (hnodup : ids.Nodup) (hdepth : ∀ id ∈ ids, (base.ancestorsOf id).length = depth) :
    (t.collapse true ids).state.visible? y = some false ↔
      t.state.visible? y = some false ∨ ∃ id ∈ ids, TransGen (Loose t.state) id y := by
  -- Every further level takes back at least one grant.
  induction hgrants : t.state.grants using Nat.strongRecOn generalizing t ids depth with
  | ind grants ih =>
      have hchildren : t.state.childrenOf = base.childrenOf := childrenOf_eq hlayout
      have hall : (ids.flatMap t.state.childrenOf).Nodup := by
        rw [hchildren]
        exact hforest.nodup_flatMap hnodup
      have hle := grants_collapseLevel_le true t ids
      have hfresh : (t.collapseLevel true ids).1.state.fresh = base :=
        fresh_collapseLevel.trans hlayout
      have hclosed {x : Text} : x ∈ (t.collapseLevel true ids).2 ↔
          ∃ id ∈ ids, Loose t.state id x := mem_closed_collapseLevel hall
      have hnodup' : (t.collapseLevel true ids).2.Nodup :=
        nodup_closed_collapseLevel
      have hlower {id x : Text} (hid : id ∈ ids) (hx : x ∈ t.state.childrenOf id) :
          (base.ancestorsOf x).length = depth + 1 := by
        rw [hchildren] at hx
        rw [hforest.length_above_child hx, hdepth id hid]
      have hdepth' : ∀ x ∈ (t.collapseLevel true ids).2,
          (base.ancestorsOf x).length = depth + 1 := by
        intro x hx
        obtain ⟨id, hid, hloose⟩ := hclosed.mp hx
        exact hlower hid hloose.1
      -- The level takes back grants of the children of its nodes only.
      have hbelow (x : Text) (hx : x ∈ (t.collapseLevel true ids).2) :
          TransGen (Loose (t.collapseLevel true ids).1.state) x y ↔
            TransGen (Loose t.state) x y := by
        refine transGen_loose_congr hforest (childrenOf_eq hfresh) hchildren fun z hz => ?_
        rw [hdepth' x hx] at hz
        have hnot : z ∉ ids.flatMap t.state.childrenOf := by
          intro hmem
          obtain ⟨id, hid, hchild⟩ := List.mem_flatMap.mp hmem
          rw [hlower hid hchild] at hz
          exact Nat.lt_irrefl _ hz
        rw [openParents?_collapseLevel, List.count_eq_zero_of_not_mem hnot]
        simp
      have hnext : ((t.collapseLevel true ids).1.collapse true
            (t.collapseLevel true ids).2).state.visible? y = some false ↔
          (t.collapseLevel true ids).1.state.visible? y = some false ∨
            ∃ x ∈ (t.collapseLevel true ids).2,
              TransGen (Loose (t.collapseLevel true ids).1.state) x y := by
        cases hlist : (t.collapseLevel true ids).2 with
        | nil => simp [collapse_nil]
        | cons x rest =>
            rw [hlist, List.length_cons] at hle
            rw [← hlist]
            exact ih _ (by omega) hfresh hnodup' hdepth' rfl
      rw [collapse_eq, hnext, visible?_collapseLevel hall, or_assoc]
      refine or_congr_right ?_
      constructor
      · rintro (⟨id, hid, hloose⟩ | ⟨x, hx, hchain⟩)
        · exact ⟨id, hid, .single hloose⟩
        · obtain ⟨id, hid, hloose⟩ := hclosed.mp hx
          exact ⟨id, hid, .head hloose ((hbelow x hx).mp hchain)⟩
      · rintro ⟨id, hid, hchain⟩
        obtain ⟨x, hloose, hrest⟩ := TransGen.head'_iff.mp hchain
        rcases reflTransGen_iff_eq_or_transGen.mp hrest with rfl | hrest
        · exact .inl ⟨id, hid, hloose⟩
        · have hx := hclosed.mpr ⟨id, hid, hloose⟩
          exact .inr ⟨x, hx, (hbelow x hx).mpr hrest⟩

/-! ## After everything was expanded -/

/-- Expanding everything shows every node. -/
theorem visible?_expandAll_ids (x : Text) :
    (Transition.expandAll ⟨s, []⟩ (s.records.map (·.spanId))).state.visible? x ≠ some false := by
  rw [visible?, find?_expandAll]
  cases hfind : s.find? x with
  | none => simp
  | some r =>
      have hmem : r.spanId ∈ s.records.map (·.spanId) :=
        List.mem_map_of_mem (mem_of_find? hfind)
      simp [shownBy, hmem]

/-- Expanding nodes adds a grant to a child for each time its parent is listed. -/
theorem openParents?_expandAll :
    (t.expandAll ids).state.openParents? x =
      (t.state.openParents? x).map (· + (ids.flatMap t.state.childrenOf).count x) := by
  rw [openParents?, find?_expandAll, openParents?, Option.map_map, Option.map_map]
  apply map_find?_congr
  rintro r rfl
  rfl

/-- Expanding everything adds one grant to every child. -/
theorem openParents?_expandAll_ids (hforest : s.IsForest) (hchild : child ∈ s.childrenOf parent) :
    (Transition.expandAll ⟨s, []⟩ (s.records.map (·.spanId))).state.openParents? child =
      (s.openParents? child).map (· + 1) := by
  have hmem : child ∈ (s.records.map (·.spanId)).flatMap s.childrenOf :=
    List.mem_flatMap.mpr ⟨parent, contains_iff_mem_ids.mp (contains_of_mem_childrenOf hchild),
      hchild⟩
  have hcount : ((s.records.map (·.spanId)).flatMap s.childrenOf).count child = 1 :=
    List.count_eq_one_of_mem (hforest.nodup_flatMap hforest.nodup) hmem
  rw [openParents?_expandAll, hcount]

theorem loose_expandAll_ids (hforest : s.IsForest) :
    Loose (Transition.expandAll ⟨s, []⟩ (s.records.map (·.spanId))).state parent child ↔
      child ∈ s.childrenOf parent ∧ s.openParents? child = some 0 := by
  rw [Loose, childrenOf_congr (fresh_expandAll _ _)]
  refine and_congr_right fun hchild => ?_
  rw [openParents?_expandAll_ids hforest hchild]
  cases s.openParents? child <;> simp

/-- After everything was expanded, toggling a node hides the nodes below it to which a way leads
down through nodes that no grant held before. -/
theorem exists_toggle_after_expandAll (hforest : s.IsForest) (hx : s.contains x) :
    ∃ opened closed, s.expandAll = .ok opened ∧ opened.state.toggle x = .ok closed ∧
      ∀ y, closed.state.visible? y = some false ↔
        Below s.childrenOf x y ∧ ∀ z, OnWay s.childrenOf x y z → s.openParents? z = some 0 := by
  obtain ⟨opened, hopened⟩ : ∃ opened,
      opened = Transition.expandAll ⟨s, []⟩ (s.records.map (·.spanId)) := ⟨_, rfl⟩
  have hlayout : opened.state.fresh = s.fresh := by
    rw [hopened]
    exact fresh_expandAll _ _
  have hexpanded : opened.state.expanded? x = some true := by
    rw [hopened, expanded?_expandAll]
    exact .inr ⟨contains_iff_mem_ids.mp hx, hx⟩
  obtain ⟨r, hr, hopen⟩ := expanded?_eq_some_iff.mp hexpanded
  have hfresh : s.fresh.IsForest := hforest.congr (fresh_fresh s).symm
  have hloose : Loose opened.state = fun parent child =>
      child ∈ s.childrenOf parent ∧ s.openParents? child = some 0 := by
    funext parent child
    rw [hopened]
    exact propext (loose_expandAll_ids hforest)
  refine ⟨opened, _, expandAll_eq_ok_iff.mpr hopened,
    toggle_eq_ok_iff.mpr ⟨r, hr, (if_pos hopen).symm⟩, fun y => ?_⟩
  have hdepth : ∀ id ∈ [x], (s.fresh.ancestorsOf id).length = (s.fresh.ancestorsOf x).length := by
    intro id hid
    rw [List.mem_singleton.mp hid]
  have hhidden := visible?_collapse (t := ⟨opened.state, []⟩) (y := y) hfresh hlayout
    (List.nodup_singleton x) hdepth
  have hshown : opened.state.visible? y ≠ some false := hopened ▸ visible?_expandAll_ids y
  rw [hhidden, or_iff_right hshown, ← hforest.transGen_iff, ← hloose]
  simp

end

/-- In every view that folding and unfolding leads to, toggling a node right after everything was
expanded hides the nodes below it that no grant held before on the way down, and no others. It hides
all below the node exactly if no grant held any of them. -/
theorem toggle_after_expandAll {spans : List Span} {t : TraceTree} {s : VisibilityState} {x : Text}
    (ht : TraceTree.build spans = .ok t) (h : Reached FoldAction (initial t) s)
    (hx : x ∈ t.nodes.map (·.id)) :
    ∃ opened closed, s.expandAll = .ok opened ∧ opened.state.toggle x = .ok closed ∧
      (∀ y, closed.state.visible? y = some false ↔
        Below t.childIds x y ∧ ∀ z, OnWay t.childIds x y z → s.openParents? z = some 0) ∧
      ((∀ y, Below t.childIds x y → closed.state.visible? y = some false) ↔
        ∀ z, Below t.childIds x z → s.openParents? z = some 0) := by
  have hlayout : s.fresh = (initial t).fresh := h.fresh_eq
  have hforest : s.IsForest := (TraceTree.Built.of_build ht).isForest_initial.congr hlayout.symm
  have hchildren : s.childrenOf = t.childIds := by
    rw [childrenOf_congr hlayout, childrenOf_initial]
  have hknown : s.contains x := by
    rw [contains_congr hlayout]
    exact contains_initial.mpr hx
  obtain ⟨opened, closed, hopened, hclosed, hhidden⟩ := exists_toggle_after_expandAll hforest hknown
  rw [hchildren] at hhidden
  refine ⟨opened, closed, hopened, hclosed, hhidden, fun hall z hz => ?_, fun hall y hy => ?_⟩
  · exact ((hhidden z).mp (hall z hz)).2 z ⟨hz, .inl rfl⟩
  · exact (hhidden y).mpr ⟨hy, fun z hz => hall z hz.1⟩

/-- In a chain of three the last node has lost its grant after the middle one was folded again, but
the middle one still has its own. -/
theorem toggle_after_expandAll_of_chain :
    ∃ (t : TraceTree) (s : VisibilityState) (opened closed : Transition),
      TraceTree.build [
        { traceId := "1", id := "a" },
        { traceId := "1", id := "b", parentId := some "a" },
        { traceId := "1", id := "c", parentId := some "b" }] = .ok t ∧
      Reached FoldAction (initial t) s ∧ s.openParents? "b" = some 1 ∧
      Below t.childIds "b" "c" ∧ s.expandAll = .ok opened ∧
      opened.state.toggle "b" = .ok closed ∧ closed.state.visible? "c" = some false := by
  have hview : (TraceTree.build [
      { traceId := "1", id := "a" },
      { traceId := "1", id := "b", parentId := some "a" },
      { traceId := "1", id := "c", parentId := some "b" }]).toOption.bind (fun t =>
        (initial t).expandAll.toOption.bind fun first =>
          (first.state.toggle "b").toOption.map fun folded =>
            (t.nodes.map (·.id), t.childIds "b", t.childIds "c",
              folded.state.openParents? "b", folded.state.openParents? "c")) =
      some ((["a", "b", "c"] : List Text), (["c"] : List Text), [], some 1, some 0) := by
    decide +kernel
  obtain ⟨t, ht, hview⟩ := Option.bind_eq_some_iff.mp hview
  obtain ⟨first, hfirst, hview⟩ := Option.bind_eq_some_iff.mp hview
  obtain ⟨folded, hfolded, hview⟩ := Option.map_eq_some_iff.mp hview
  simp only [Prod.mk.injEq] at hview
  obtain ⟨hnodes, hb, hc, hgrantB, hgrantC⟩ := hview
  have hreached : Reached FoldAction (initial t) folded.state :=
    .step (a := .toggle "b")
      (.step (a := .expandAll) .start trivial (toOption_eq_some_iff.mp hfirst)) trivial
      (toOption_eq_some_iff.mp hfolded)
  have hbelow : Below t.childIds "b" "c" := .single (by simp [hb])
  obtain ⟨opened, closed, hopened, hclosed, hhidden, -⟩ :=
    toggle_after_expandAll (toOption_eq_some_iff.mp ht) hreached (x := "b") (by simp [hnodes])
  refine ⟨t, folded.state, opened, closed, toOption_eq_some_iff.mp ht, hreached, hgrantB, hbelow,
    hopened, hclosed, (hhidden "c").mpr ⟨hbelow, ?_⟩⟩
  rintro z ⟨hz, -⟩
  obtain rfl : z = "c" := by
    induction hz with
    | single hchild => simpa [hb] using hchild
    | tail _ hchild ih =>
        rw [ih, hc] at hchild
        cases hchild
  exact hgrantC

/-- Expanding everything twice gives the lower node of a chain two grants, of which toggling the
upper one takes back one only. -/
theorem toggle_after_expandAll_twice :
    ∃ (t : TraceTree) (s : VisibilityState) (opened closed : Transition),
      TraceTree.build [
        { traceId := "1", id := "a" },
        { traceId := "1", id := "b", parentId := some "a" }] = .ok t ∧
      Reached FoldAction (initial t) s ∧
      s.expandAll = .ok opened ∧ opened.state.toggle "a" = .ok closed ∧
      Below t.childIds "a" "b" ∧ closed.state.visible? "b" = some true := by
  have hview : (TraceTree.build [
      { traceId := "1", id := "a" },
      { traceId := "1", id := "b", parentId := some "a" }]).toOption.bind (fun t =>
        (initial t).expandAll.toOption.bind fun first =>
          first.state.expandAll.toOption.bind fun opened =>
            (opened.state.toggle "a").toOption.map fun closed =>
              (t.childIds "a", closed.state.visible? "b")) =
      some ((["b"] : List Text), some true) := by decide +kernel
  obtain ⟨t, ht, hview⟩ := Option.bind_eq_some_iff.mp hview
  obtain ⟨first, hfirst, hview⟩ := Option.bind_eq_some_iff.mp hview
  obtain ⟨opened, hopened, hview⟩ := Option.bind_eq_some_iff.mp hview
  obtain ⟨closed, hclosed, hview⟩ := Option.map_eq_some_iff.mp hview
  simp only [Prod.mk.injEq] at hview
  obtain ⟨hchildren, hshown⟩ := hview
  have hreached : Reached FoldAction (initial t) first.state :=
    .step (a := .expandAll) .start trivial (toOption_eq_some_iff.mp hfirst)
  have hbelow : Below t.childIds "a" "b" := .single (by simp [hchildren])
  exact ⟨t, first.state, opened, closed, toOption_eq_some_iff.mp ht, hreached,
    toOption_eq_some_iff.mp hopened, toOption_eq_some_iff.mp hclosed, hbelow, hshown⟩

end TraceExplorer.VisibilityState
