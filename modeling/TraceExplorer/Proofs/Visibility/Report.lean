import TraceExplorer.Proofs.Visibility.InPlace
import TraceExplorer.Proofs.Visibility.Tidy

/-!
# What a viewer is told

An operation tells the viewer which rows to draw again. In every view that operations lead to, these
are exactly the rows that look different, and an operation that names an unknown id changes nothing.
-/

namespace TraceExplorer.VisibilityState

def Action.namedIds : Action → List Text
  | .showNodes ids => ids
  | .hideNodes ids _ => ids
  | .toggle id => [id]
  | .expandAll => []
  | .collapseAll => []

def Action.OnlyShows : Action → Prop
  | .showNodes _ => True
  | .expandAll => True
  | _ => False

def Action.OnlyHides : Action → Prop
  | .hideNodes _ _ => True
  | .collapseAll => True
  | _ => False

/-- An operation has reported the nodes that look different after it. If it is to show nodes it has
hidden none, and if it is to hide nodes it has shown none. -/
structure Reports (s : VisibilityState) (a : Action) (t : Transition) : Prop where
  changed : ∀ id, id ∈ t.changed ↔ s.visible? id ≠ t.state.visible? id
  shows : a.OnlyShows → ∀ id, s.visible? id = some true → t.state.visible? id = some true
  hides : a.OnlyHides → ∀ id, s.visible? id = some false → t.state.visible? id = some false

open Transition

/-- On the way through a collapse all top nodes are visible, and only children are closed. -/
structure TopVisible (base : VisibilityState) (p : Transition × List Text) : Prop where
  layout : p.1.state.fresh = base
  visible : ∀ {id r}, p.1.state.find? id = some r → r.isRoot → r.visible
  child : ∀ id ∈ p.2, ∃ parent, id ∈ base.childrenOf parent

section

variable {base s : VisibilityState} {t : Transition} {p : Transition × List Text}
  {r : VisibilityRecord} {id : Text} {ids children closed : List Text} {childrenOnly : Bool}
  {a : Action}

/-! ## Top nodes stay visible -/

theorem isRoot_lowered (r : VisibilityRecord) : (lowered r).isRoot = r.isRoot := by
  unfold lowered
  dsimp only
  split <;> rfl

theorem visible_lowered (hroot : r.isRoot) : (lowered r).visible = r.visible := by
  have hheld : ({ r with openChildren := r.openChildren.decrement } :
      VisibilityRecord).isReleased = false := by simp [VisibilityRecord.isReleased, hroot]
  simp [lowered, hheld]

theorem TopVisible.releaseAbove (h : TopVisible base (t, closed)) :
    TopVisible base (t.releaseAbove id, closed) := by
  refine ⟨fresh_releaseAbove.trans h.layout, fun {x r} hfind hroot => ?_, h.child⟩
  rw [find?_releaseAbove] at hfind
  split at hfind
  · obtain ⟨q, hq, rfl⟩ := Option.map_eq_some_iff.mp hfind
    rw [isRoot_lowered] at hroot
    rw [visible_lowered hroot]
    exact h.visible hq hroot
  · exact h.visible hfind hroot

theorem TopVisible.foldl_releaseAbove (h : TopVisible base (t, closed)) :
    TopVisible base (ids.foldl Transition.releaseAbove t, closed) := by
  apply List.foldlRecOn (motive := fun u : Transition => TopVisible base (u, closed)) _ _ h
  intro u hu id _
  exact hu.releaseAbove

theorem TopVisible.releaseChild (h : TopVisible base p)
    (hchild : ∃ parent, id ∈ base.childrenOf parent) :
    TopVisible base (p.1.releaseChild p.2 id) := by
  refine ⟨fresh_releaseChild.trans h.layout, fun {x r} hfind hroot => ?_, fun x hx => ?_⟩
  · rw [find?_releaseChild] at hfind
    split at hfind
    · obtain ⟨q, hq, rfl⟩ := Option.map_eq_some_iff.mp hfind
      have hvisible := h.visible hq
      exact hvisible hroot
    · exact h.visible hfind hroot
  · rcases mem_closed_releaseChild.mp hx with hx | ⟨rfl, -⟩
    · exact h.child x hx
    · exact hchild

theorem TopVisible.foldl_releaseChild (h : TopVisible base p)
    (hchildren : ∀ child ∈ children, ∃ parent, child ∈ base.childrenOf parent) :
    TopVisible base (children.foldl (fun p child => p.1.releaseChild p.2 child) p) := by
  apply List.foldlRecOn (motive := TopVisible base) _ _ h
  intro q hq child hchild
  exact hq.releaseChild (hchildren child hchild)

theorem TopVisible.mark (h : TopVisible base (t, closed)) :
    TopVisible base (t.modify id fun r => { r with expanded := false }, closed) := by
  refine ⟨(fresh_modify (by exact fun _ => rfl)).trans h.layout, fun {x r} hfind hroot => ?_,
    h.child⟩
  rw [modify_state, find?_modify (by exact fun _ => rfl)] at hfind
  split at hfind
  · obtain ⟨q, hq, rfl⟩ := Option.map_eq_some_iff.mp hfind
    have hvisible := h.visible hq
    exact hvisible hroot
  · exact h.visible hfind hroot

theorem TopVisible.leave (h : TopVisible base (t, closed)) (hfind : t.state.find? id = some r) :
    TopVisible base (if r.isRoot then t.modify id fun r => { r with expanded := false }
      else (t.modify id fun r => { r with expanded := false }).setVisible false r.spanId,
        closed) := by
  refine ⟨(fresh_leave r).trans h.layout, fun {x q} hq hroot => ?_, h.child⟩
  rw [find?_leave hfind] at hq
  split at hq
  · obtain rfl := Option.some.inj hq
    have hvisible := h.visible hfind hroot
    exact Bool.and_eq_true_iff.mpr ⟨hroot, hvisible⟩
  · exact h.visible hq hroot

theorem TopVisible.collapseOne (h : TopVisible base p) :
    TopVisible base (Transition.collapseOne childrenOnly p id) := by
  unfold Transition.collapseOne
  split
  · exact h
  · rename_i r hfind
    have hchildIds := childIds_eq h.layout hfind
    refine TopVisible.foldl_releaseChild ?_ fun child hchild => ⟨id, hchildIds ▸ hchild⟩
    split
    · exact h.mark
    · exact (h.leave hfind).foldl_releaseAbove

theorem TopVisible.hide (hforest : base.IsForest) (h : TopVisible base (t, closed)) :
    TopVisible base (closed.foldl (setVisible false) t, []) := by
  refine ⟨fresh_foldl_setVisible.trans h.layout, fun {x r} hfind hroot => ?_, by simp⟩
  rw [find?_foldl_setVisible] at hfind
  split at hfind
  · rename_i hclosed
    obtain ⟨q, hq, rfl⟩ := Option.map_eq_some_iff.mp hfind
    obtain ⟨parent, hparent⟩ := h.child x hclosed
    have hnot := hforest.not_root h.layout hq hparent
    exact absurd hroot (by simp [hnot])
  · exact h.visible hfind hroot

theorem TopVisible.collapse (hforest : base.IsForest) (h : TopVisible base (t, [])) :
    TopVisible base (t.collapse childrenOnly ids, []) := by
  have hlevel (ids : List Text) : ∀ p, TopVisible base p →
      TopVisible base (ids.foldl (Transition.collapseOne childrenOnly) p) := by
    induction ids with
    | nil => exact fun _ hp => hp
    | cons id rest ih => exact fun p hp => ih _ hp.collapseOne
  rw [collapse_eq]
  exact collapse_rule (P := fun _ closed t => TopVisible base (t, closed))
    (fun _ _ _ _ h => h.collapseOne) (fun _ _ h => h.hide hforest) ((hlevel ids _ h).hide hforest)

theorem TopVisible.expandAll (h : TopVisible base (t, [])) :
    TopVisible base (t.expandAll ids, []) := by
  refine ⟨(fresh_expandAll t ids).trans h.layout, fun {x r} hfind hroot => ?_, by simp⟩
  rw [find?_expandAll] at hfind
  obtain ⟨q, hq, rfl⟩ := Option.map_eq_some_iff.mp hfind
  have hvisible := h.visible hq hroot
  exact Bool.or_eq_true_iff.mpr (.inl hvisible)

theorem TopVisible.fresh (s : VisibilityState) : TopVisible s.fresh (⟨s.fresh, []⟩, []) := by
  refine ⟨fresh_fresh s, fun {x r} hfind hroot => ?_, by simp⟩
  rw [find?_fresh] at hfind
  obtain ⟨q, -, rfl⟩ := Option.map_eq_some_iff.mp hfind
  exact hroot

theorem TopVisible.step (hforest : base.IsForest) (h : TopVisible base (⟨s, []⟩, []))
    (hstep : s.step a = .ok t) : TopVisible base (⟨t.state, []⟩, []) := by
  have hend {t : Transition} (h : TopVisible base (t, [])) : TopVisible base (⟨t.state, []⟩, []) :=
    ⟨h.layout, h.visible, h.child⟩
  cases a with
  | showNodes ids =>
      obtain ⟨-, rfl⟩ := showNodes_eq_ok_iff.mp hstep
      exact hend h.expandAll
  | hideNodes ids childrenOnly =>
      obtain ⟨-, rfl⟩ := hideNodes_eq_ok_iff.mp hstep
      exact hend (h.collapse hforest)
  | toggle id =>
      obtain ⟨r, -, rfl⟩ := toggle_eq_ok_iff.mp hstep
      split
      · exact hend (h.collapse hforest)
      · exact hend h.expandAll
  | expandAll =>
      obtain rfl := expandAll_eq_ok_iff.mp hstep
      exact hend h.expandAll
  | collapseAll =>
      obtain rfl := Except.ok.inj hstep
      have hlayout : s.fresh = base := h.layout
      rw [collapseAll_state, ← hlayout]
      exact .fresh s

/-! ## Reports -/

theorem Reports.of_shown (h : Noted true s t) (ha : ¬ a.OnlyHides) : Reports s a t :=
  ⟨fun _ => h.mem_iff, fun _ _ hid => h.keep hid, fun hhides => absurd hhides ha⟩

theorem Reports.of_hidden (h : Noted false s t) (ha : ¬ a.OnlyShows) : Reports s a t :=
  ⟨fun _ => h.mem_iff, fun hshows => absurd hshows ha, fun _ _ hid => h.keep hid⟩

theorem noted_collapseAll (hforest : base.IsForest) (h : TopVisible base (⟨s, []⟩, [])) :
    Noted false s s.collapseAll := by
  have hnodup : (s.records.map (·.spanId)).Nodup := by
    have hlayout : s.fresh = base.fresh := by rw [← h.layout, fresh_fresh]
    exact ids_congr hlayout ▸ hforest.nodup
  have hafter (x : Text) : s.collapseAll.state.visible? x = (s.find? x).map (·.isRoot) := by
    rw [collapseAll_state, visible?, find?_fresh, Option.map_map]
    rfl
  refine ⟨fresh_fresh s, fun {x} => ?_, fun {x} hx => ?_⟩
  · rw [hafter, Bool.not_false]
    constructor
    · intro hx
      obtain ⟨r, hr, rfl⟩ := List.mem_map.mp hx
      obtain ⟨hmem, hdiffers⟩ := List.mem_filter.mp hr
      have hfind := find?_of_mem hnodup hmem
      have htop := h.visible hfind
      cases hroot : r.isRoot with
      | true => simp [hroot, htop hroot] at hdiffers
      | false =>
          have hvisible : r.visible = true := by simpa [hroot] using hdiffers
          simp [visible?, hfind, hroot, hvisible]
    · rintro ⟨hbefore, hnow⟩
      obtain ⟨r, hfind, hvisible⟩ := Option.map_eq_some_iff.mp hbefore
      have hroot : r.isRoot = false := by simpa [hfind] using hnow
      refine List.mem_map.mpr ⟨r, List.mem_filter.mpr ⟨mem_of_find? hfind, ?_⟩,
        spanId_of_find? hfind⟩
      simp [hvisible, hroot]
  · obtain ⟨r, hfind, hhidden⟩ := Option.map_eq_some_iff.mp hx
    have htop := h.visible hfind
    cases hroot : r.isRoot with
    | true => simp [htop hroot] at hhidden
    | false => simp [hafter, hfind, hroot]

theorem reports_of_step (hforest : base.IsForest) (h : TopVisible base (⟨s, []⟩, []))
    (hstep : s.step a = .ok t) : Reports s a t := by
  cases a with
  | showNodes ids =>
      obtain ⟨-, rfl⟩ := showNodes_eq_ok_iff.mp hstep
      exact .of_shown (Noted.refl true s).expandAll id
  | hideNodes ids childrenOnly =>
      obtain ⟨-, rfl⟩ := hideNodes_eq_ok_iff.mp hstep
      exact .of_hidden (Noted.refl false s).collapse id
  | toggle id =>
      obtain ⟨r, -, rfl⟩ := toggle_eq_ok_iff.mp hstep
      split
      · exact .of_hidden (Noted.refl false s).collapse fun h => h
      · exact .of_shown (Noted.refl true s).expandAll fun h => h
  | expandAll =>
      obtain rfl := expandAll_eq_ok_iff.mp hstep
      exact .of_shown (Noted.refl true s).expandAll id
  | collapseAll =>
      obtain rfl := Except.ok.inj hstep
      exact .of_hidden (noted_collapseAll hforest h) id

/-! ## Unknown ids -/

theorem exists_step_of_known (hknown : ∀ id ∈ a.namedIds, s.contains id) :
    ∃ t, s.step a = .ok t := by
  cases a with
  | showNodes ids => exact ⟨_, showNodes_eq_ok_iff.mpr ⟨hknown, rfl⟩⟩
  | hideNodes ids childrenOnly => exact ⟨_, hideNodes_eq_ok_iff.mpr ⟨hknown, rfl⟩⟩
  | expandAll => exact ⟨_, expandAll_eq_ok_iff.mpr rfl⟩
  | collapseAll => exact ⟨_, rfl⟩
  | toggle id =>
      obtain ⟨r, hr⟩ := Option.isSome_iff_exists.mp (hknown id List.mem_cons_self)
      exact ⟨_, toggle_eq_ok_iff.mpr ⟨r, hr, rfl⟩⟩

theorem checkKnown_of_unknown (ids : List Text)
    (hid : ids.find? (fun id => !s.contains id) = some id) :
    s.checkKnown ids = .error (.spanUnknown (some id.shown)) := by
  rw [checkKnown, hid]

theorem step_of_unknown (hid : a.namedIds.find? (fun id => !s.contains id) = some id) :
    s.step a = .error (.spanUnknown (some id.shown)) := by
  cases a with
  | showNodes ids =>
      rw [VisibilityState.step, showNodes, checkKnown_of_unknown ids hid]
      rfl
  | hideNodes ids childrenOnly =>
      rw [VisibilityState.step, hideNodes, checkKnown_of_unknown ids hid]
      rfl
  | toggle x =>
      obtain rfl : id = x := List.mem_singleton.mp (List.mem_of_find?_eq_some hid)
      have hunknown : s.find? id = none := by simpa [contains] using List.find?_some hid
      rw [VisibilityState.step, toggle, record, hunknown]
      rfl
  | expandAll => simp [Action.namedIds] at hid
  | collapseAll => simp [Action.namedIds] at hid

end

/-- In every view that operations lead to, an operation on known ids succeeds and reports exactly
the nodes that look different after it. An operation that names an unknown id fails with the first
such id and has changed nothing, even where records are changed in place. -/
theorem reports_of_reached {spans : List Span} {tree : TraceTree} {s : VisibilityState}
    (htree : TraceTree.build spans = .ok tree)
    (h : Reached (fun _ _ => True) (initial tree) s) (a : Action) :
    ((∀ id ∈ a.namedIds, s.contains id) → ∃ t, s.step a = .ok t ∧
      (Update.ofAction a).run ⟨s, []⟩ = .ok () t ∧ Reports s a t) ∧
    ∀ id, a.namedIds.find? (fun id => !s.contains id) = some id →
      s.step a = .error (.spanUnknown (some id.shown)) ∧
      (Update.ofAction a).run ⟨s, []⟩ =
        .error (.reported (.spanUnknown (some id.shown))) ⟨s, []⟩ := by
  have hforest := (TraceTree.Built.of_build htree).isForest_initial
  have hstart : TopVisible (initial tree) (⟨initial tree, []⟩, []) := by
    simpa using TopVisible.fresh (initial tree)
  have htop : TopVisible (initial tree) (⟨s, []⟩, []) :=
    h.induction (P := fun s => TopVisible (initial tree) (⟨s, []⟩, [])) hstart
      fun _ _ _ hs _ hstep => hs.step hforest hstep
  have hrun := Update.run_ofAction (s := s) (htop.layout ▸ hforest) a
  refine ⟨fun hknown => ?_, fun id hid => ?_⟩
  · obtain ⟨t, ht⟩ := exists_step_of_known hknown
    rw [ht] at hrun
    exact ⟨t, ht, hrun, reports_of_step hforest htop ht⟩
  · have hfail := step_of_unknown hid
    rw [hfail] at hrun
    exact ⟨hfail, hrun⟩

/-- In a chain whose first node is expanded both nodes are hidden, and then an unknown node is
named. -/
theorem reports_of_reached_of_chain :
    ∃ (tree : TraceTree) (s : VisibilityState),
      TraceTree.build [
        { traceId := "1", id := "a" },
        { traceId := "1", id := "b", parentId := some "a" }] = .ok tree ∧
      Reached (fun _ _ => True) (initial tree) s ∧ s ≠ initial tree ∧
      (∃ t, s.step (.hideNodes ["b", "a"] false) = .ok t ∧
        (Update.ofAction (.hideNodes ["b", "a"] false)).run ⟨s, []⟩ = .ok () t ∧
        Reports s (.hideNodes ["b", "a"] false) t) ∧
      s.step (.showNodes ["b", "x", "y"]) = .error (.spanUnknown (some "x")) ∧
      (Update.ofAction (.showNodes ["b", "x", "y"])).run ⟨s, []⟩ =
        .error (.reported (.spanUnknown (some "x"))) ⟨s, []⟩ := by
  have hnamed : ∀ s ∈ ([
      { traceId := "1", id := "a" },
      { traceId := "1", id := "b", parentId := some "a" }] : List Span),
      s.parentId ≠ some Text.empty := by decide
  obtain ⟨tree, htree⟩ := TraceTree.exists_build hnamed
  have hids : ∀ id, (initial tree).contains id ↔ id ∈ (["a", "b"] : List Text) := by
    intro id
    rw [contains_initial, (TraceTree.Built.of_build htree).mem_ids]
    simp
  have hreached : Reached (fun _ _ => True) (initial tree) _ :=
    .step (a := .expandAll) .start trivial (expandAll_eq_ok_iff.mpr rfl)
  generalize hs : (Transition.expandAll ⟨initial tree, []⟩
    ((initial tree).records.map (·.spanId))).state = s at hreached
  have hknown : ∀ id, s.contains id ↔ id ∈ (["a", "b"] : List Text) := by
    intro id
    rw [← hs, contains_congr (fresh_expandAll _ _)]
    exact hids id
  have hexpanded : s.expanded? "a" = some true := by
    have ha : (initial tree).contains "a" := (hids "a").mpr (by decide)
    rw [← hs]
    exact expanded?_expandAll.mpr (.inr ⟨contains_iff_mem_ids.mp ha, ha⟩)
  have hunknown : (["b", "x", "y"] : List Text).find? (fun id => !s.contains id) = some "x" := by
    have hb : s.contains "b" := (hknown "b").mpr (by decide)
    have hx : s.contains "x" = false := Bool.eq_false_iff.mpr fun h => by
      exact absurd ((hknown "x").mp h) (by decide)
    simp [hb, hx]
  refine ⟨tree, s, htree, hreached, fun heq => ?_,
    (reports_of_reached htree hreached _).1 ?_, ?_⟩
  · rw [heq, expanded?, find?_initial] at hexpanded
    cases hfind : tree.placement? "a" <;> simp [hfind] at hexpanded
  · intro id hid
    have hmem : id ∈ (["b", "a"] : List Text) := hid
    exact (hknown id).mpr (by simpa [or_comm] using hmem)
  · exact (reports_of_reached htree hreached (.showNodes ["b", "x", "y"])).2 "x" hunknown

end TraceExplorer.VisibilityState
