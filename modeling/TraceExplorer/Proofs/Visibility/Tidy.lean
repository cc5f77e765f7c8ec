import Mathlib.Data.List.Count
import Mathlib.Logic.Relation
import TraceExplorer.Proofs.Visibility.Collapse
import TraceExplorer.Proofs.Visibility.Expand
import TraceExplorer.Proofs.Visibility.Layout

/-!
# Tidy views

In a tidy view a node is visible if it is a top node or its parent is expanded, and no hidden node
is expanded. A collapse leaves the view untidy on its way down in two respects only: children that
are closed are still visible, and nodes that are hidden wait to be collapsed themselves.
-/

namespace TraceExplorer.VisibilityState

def Below (childrenOf : Text → List Text) : Text → Text → Prop :=
  Relation.TransGen fun parent child => child ∈ childrenOf parent

def HasOpenParent (childrenOf : Text → List Text) (s : VisibilityState) (id : Text) : Prop :=
  ∃ parent, id ∈ childrenOf parent ∧ s.expanded? parent = some true

/-- An outline of a layout on the way through a collapse. Nodes that are hidden but still expanded
wait to be collapsed, and closed children are still visible. -/
structure Tidy (base : VisibilityState) (waiting closed : List Text) (s : VisibilityState) :
    Prop where
  layout : s.fresh = base
  closed_child : ∀ {id}, id ∈ closed → ∃ parent, id ∈ base.childrenOf parent
  closed_shut : ∀ {id}, id ∈ closed → ¬ HasOpenParent base.childrenOf s id
  visible : ∀ {id r}, s.find? id = some r →
    (r.visible ↔ r.isRoot ∨ HasOpenParent base.childrenOf s id ∨ id ∈ closed)
  expanded : ∀ {id r}, s.find? id = some r → r.expanded → r.visible ∨ id ∈ waiting
  opened : ∀ {id r}, s.find? id = some r → HasOpenParent base.childrenOf s id →
    r.openParents.value = 1
  shut : ∀ {id r}, s.find? id = some r → ¬ HasOpenParent base.childrenOf s id →
    r.openParents.value = 0

open Transition

section

variable {base s s' : VisibilityState} {t : Transition} {p : Transition × List Text}
  {r : VisibilityRecord} {id x : Text} {waiting closed ids : List Text}

/-! ## Expanded parents -/

theorem expanded?_eq_some_iff :
    s.expanded? x = some true ↔ ∃ r, s.find? x = some r ∧ r.expanded := by
  simp [expanded?]

theorem HasOpenParent.of_child (hforest : base.IsForest) (hchild : x ∈ base.childrenOf id) :
    HasOpenParent base.childrenOf s x ↔ s.expanded? id = some true := by
  constructor
  · rintro ⟨parent, hparent, hexpanded⟩
    rwa [hforest.parent_unique hchild hparent]
  · exact fun hexpanded => ⟨id, hchild, hexpanded⟩

/-! ## A collapse -/

theorem childrenOf_eq (h : s.fresh = base) : s.childrenOf = base.childrenOf := by
  rw [← h, childrenOf_fresh]

theorem expanded?_collapseOne :
    (collapseOne true p id).1.state.expanded? x = some true ↔
      p.1.state.expanded? x = some true ∧ x ≠ id := by
  rw [expanded?, find?_collapseOne, expanded?]
  cases p.1.state.find? x <;> simp

/-- The parent of a node that is not a child of the collapsed one stays as it was. -/
theorem HasOpenParent.collapseOne (hforest : base.IsForest) :
    HasOpenParent base.childrenOf (collapseOne true p id).1.state x ↔
      HasOpenParent base.childrenOf p.1.state x ∧ x ∉ base.childrenOf id := by
  constructor
  · rintro ⟨parent, hparent, hexpanded⟩
    obtain ⟨hexpanded, hne⟩ := expanded?_collapseOne.mp hexpanded
    exact ⟨⟨parent, hparent, hexpanded⟩,
      fun hchild => hne (hforest.parent_unique hparent hchild)⟩
  · rintro ⟨⟨parent, hparent, hexpanded⟩, hchild⟩
    exact ⟨parent, hparent, expanded?_collapseOne.mpr
      ⟨hexpanded, fun heq => hchild (heq ▸ hparent)⟩⟩

theorem Tidy.collapseOne (hforest : base.IsForest)
    (h : Tidy base (id :: waiting) closed t.state) :
    Tidy base waiting (Transition.collapseOne true (t, closed) id).2
      (Transition.collapseOne true (t, closed) id).1.state := by
  have hchildren := childrenOf_eq h.layout
  have hclosed {x : Text} : x ∈ (Transition.collapseOne true (t, closed) id).2 ↔
      x ∈ closed ∨ x ∈ base.childrenOf id ∧
        ∃ r, t.state.find? x = some r ∧ r.openParents.value = 1 := by
    rw [mem_closed_collapseOne (by simpa [hchildren] using hforest.nodup_children id), hchildren]
  have hopen {x : Text} :
      HasOpenParent base.childrenOf (Transition.collapseOne true (t, closed) id).1.state x ↔
        HasOpenParent base.childrenOf t.state x ∧ x ∉ base.childrenOf id :=
    HasOpenParent.collapseOne hforest
  refine ⟨fresh_collapseOne.trans h.layout, ?_, ?_, ?_, ?_, ?_, ?_⟩
  · intro x hx
    rcases hclosed.mp hx with hx | ⟨hx, -⟩
    · exact h.closed_child hx
    · exact ⟨id, hx⟩
  · intro x hx
    rw [hopen]
    rcases hclosed.mp hx with hx | ⟨hx, -⟩
    · exact fun hparent => h.closed_shut hx hparent.1
    · exact fun hparent => hparent.2 hx
  · intro x r hfind
    rw [find?_collapseOne] at hfind
    obtain ⟨q, hq, rfl⟩ := Option.map_eq_some_iff.mp hfind
    have hlast : HasOpenParent base.childrenOf t.state x ↔ q.openParents.value = 1 :=
      ⟨h.opened hq, fun hone => by_contra fun hshut => by simp [h.shut hq hshut] at hone⟩
    -- A child of the node is closed if the node was expanded, and was shut already otherwise.
    simp only [h.visible hq, hopen, hclosed, hq, Option.some.injEq, exists_eq_left', hlast]
    tauto
  · intro x r hfind hexpanded
    rw [find?_collapseOne] at hfind
    obtain ⟨q, hq, rfl⟩ := Option.map_eq_some_iff.mp hfind
    simp only [Bool.and_eq_true, bne_iff_ne] at hexpanded
    exact (h.expanded hq hexpanded.1).imp_right
      fun hwaiting => (List.mem_cons.mp hwaiting).resolve_left hexpanded.2
  · intro x r hfind hparent
    rw [find?_collapseOne] at hfind
    obtain ⟨q, hq, rfl⟩ := Option.map_eq_some_iff.mp hfind
    obtain ⟨hparent, hchild⟩ := hopen.mp hparent
    have hcount : (t.state.childrenOf id).count x = 0 := by
      rw [hchildren]
      exact List.count_eq_zero_of_not_mem hchild
    simp [hcount, h.opened hq hparent]
  · intro x r hfind hparent
    rw [find?_collapseOne] at hfind
    obtain ⟨q, hq, rfl⟩ := Option.map_eq_some_iff.mp hfind
    by_cases hbefore : HasOpenParent base.childrenOf t.state x
    · have hchild : x ∈ base.childrenOf id :=
        by_contra fun hchild => hparent (hopen.mpr ⟨hbefore, hchild⟩)
      have hcount : (t.state.childrenOf id).count x = 1 := by
        rw [hchildren]
        exact List.count_eq_one_of_mem (hforest.nodup_children id) hchild
      simp [hcount, h.opened hq hbefore]
    · simp [h.shut hq hbefore]

theorem expanded?_foldl_setVisible {visible : Bool} :
    (ids.foldl (setVisible visible) t).state.expanded? x = t.state.expanded? x := by
  rw [expanded?, find?_foldl_setVisible, expanded?]
  split
  · rw [Option.map_map]
    rfl
  · rfl

theorem Tidy.hide (hforest : base.IsForest) (h : Tidy base [] closed t.state) :
    Tidy base closed [] (closed.foldl (setVisible false) t).state := by
  have hopen {x : Text} :
      HasOpenParent base.childrenOf (closed.foldl (setVisible false) t).state x ↔
        HasOpenParent base.childrenOf t.state x := by
    simp [HasOpenParent, expanded?_foldl_setVisible]
  have hrecord {x : Text} {r : VisibilityRecord}
      (hfind : (closed.foldl (setVisible false) t).state.find? x = some r) :
      ∃ q, t.state.find? x = some q ∧
        r = { q with visible := q.visible && x ∉ closed } := by
    rw [find?_foldl_setVisible] at hfind
    split at hfind
    · rename_i hclosed
      obtain ⟨q, hq, rfl⟩ := Option.map_eq_some_iff.mp hfind
      exact ⟨q, hq, by simp [hclosed]⟩
    · rename_i hclosed
      exact ⟨r, hfind, by simp [hclosed]⟩
  refine ⟨fresh_foldl_setVisible.trans h.layout, by simp, by simp, ?_, ?_, ?_, ?_⟩
  · intro x r hfind
    obtain ⟨q, hq, rfl⟩ := hrecord hfind
    have hroot (hclosed : x ∈ closed) : q.isRoot = false := by
      obtain ⟨parent, hparent⟩ := h.closed_child hclosed
      exact hforest.not_root h.layout hq hparent
    have hshut (hclosed : x ∈ closed) := h.closed_shut hclosed
    have hvisible := h.visible hq
    rw [hopen]
    by_cases hclosed : x ∈ closed
    · simp [hclosed, hroot hclosed, hshut hclosed]
    · simp [hclosed, hvisible]
  · intro x r hfind hexpanded
    obtain ⟨q, hq, rfl⟩ := hrecord hfind
    by_cases hclosed : x ∈ closed
    · exact .inr hclosed
    · simpa [hclosed] using h.expanded hq hexpanded
  · intro x r hfind hparent
    obtain ⟨q, hq, rfl⟩ := hrecord hfind
    have hone := h.opened hq (hopen.mp hparent)
    exact hone
  · intro x r hfind hparent
    obtain ⟨q, hq, rfl⟩ := hrecord hfind
    have hzero := h.shut hq fun hbefore => hparent (hopen.mpr hbefore)
    exact hzero

theorem Tidy.collapse (hforest : base.IsForest) (h : Tidy base ids [] t.state) :
    Tidy base [] [] (t.collapse true ids).state :=
  collapse_rule (P := fun waiting closed t => Tidy base waiting closed t.state)
    (fun _ _ _ _ h => h.collapseOne hforest) (fun _ _ h => h.hide hforest) h

theorem Tidy.child (hforest : base.IsForest) (h : Tidy base [] [] s)
    (hchild : x ∈ base.childrenOf id) (hid : s.expanded? id ≠ some true) :
    s.visible? x = some false ∧ s.expanded? x = some false := by
  have hknown : s.contains x := by
    rw [← contains_congr (fresh_fresh s), h.layout]
    exact hforest.known hchild
  obtain ⟨r, hr⟩ := Option.isSome_iff_exists.mp hknown
  have hroot := hforest.not_root h.layout hr hchild
  have hshut := (HasOpenParent.of_child (s := s) hforest hchild).not.mpr hid
  have hvisible : r.visible = false := by simpa [hroot, hshut] using h.visible hr
  have hexpanded : r.expanded = false := Bool.eq_false_iff.mpr fun hexpanded => by
    simpa [hvisible] using h.expanded hr hexpanded
  simp [visible?, expanded?, hr, hvisible, hexpanded]

/-- Nothing below a node that is not expanded is visible or expanded. -/
theorem Tidy.below (hforest : base.IsForest) (h : Tidy base [] [] s)
    (hid : s.expanded? id ≠ some true) (hbelow : Below base.childrenOf id x) :
    s.visible? x = some false ∧ s.expanded? x = some false := by
  induction hbelow with
  | single hchild => exact h.child hforest hchild hid
  | tail _ hchild ih => exact h.child hforest hchild (by simp [ih.2])

/-- A collapse of one node ends its expansion and changes the view only of nodes below. The nodes
that wait are the node itself and nodes below it. -/
structure Spread (s : VisibilityState) (id : Text) (pending closed : List Text)
    (t : Transition) : Prop where
  layout : t.state.fresh = s.fresh
  pending_below : ∀ {x}, x ∈ pending → x = id ∨ Below s.childrenOf id x
  closed_below : ∀ {x}, x ∈ closed → Below s.childrenOf id x
  visible : ∀ {x}, ¬ Below s.childrenOf id x → t.state.visible? x = s.visible? x
  ended : id ∈ pending ∨ t.state.expanded? id ≠ some true

theorem Spread.collapseOne (hforest : s.IsForest) (h : Spread s id (x :: waiting) closed t) :
    Spread s id waiting (Transition.collapseOne true (t, closed) x).2
      (Transition.collapseOne true (t, closed) x).1 := by
  have hchildren := (childrenOf_congr h.layout).symm
  refine ⟨fresh_collapseOne.trans h.layout, fun hy => h.pending_below (.tail x hy),
    fun {y} hy => ?_, fun {y} hy => ?_, ?_⟩
  · rw [mem_closed_collapseOne (by simpa [← hchildren] using hforest.nodup_children x),
      ← hchildren] at hy
    rcases hy with hy | ⟨hy, -⟩
    · exact h.closed_below hy
    · rcases h.pending_below (List.mem_cons_self ..) with rfl | hx
      · exact .single hy
      · exact hx.tail hy
  · rw [← h.visible hy, visible?, find?_collapseOne, Option.map_map, visible?]
    rfl
  · rw [ne_eq, expanded?_collapseOne]
    rcases h.ended with hid | hid
    · rcases List.mem_cons.mp hid with rfl | hid
      · exact .inr fun hexpanded => hexpanded.2 rfl
      · exact .inl hid
    · exact .inr fun hexpanded => hid hexpanded.1

theorem Spread.hide (h : Spread s id [] closed t) :
    Spread s id closed [] (closed.foldl (setVisible false) t) := by
  refine ⟨fresh_foldl_setVisible.trans h.layout, fun hx => .inr (h.closed_below hx), by simp,
    fun {x} hx => ?_, .inr ?_⟩
  · rw [← h.visible hx, visible?, find?_foldl_setVisible,
      if_neg fun hclosed => hx (h.closed_below hclosed), visible?]
  · rw [expanded?_foldl_setVisible]
    exact h.ended.resolve_left (by simp)

theorem Spread.collapse (hforest : s.IsForest) (id : Text) :
    Spread s id [] [] (Transition.collapse true ⟨s, []⟩ [id]) :=
  collapse_rule (P := Spread s id) (fun _ _ _ _ h => h.collapseOne hforest) (fun _ _ h => h.hide)
    ⟨rfl, by simp, by simp, fun _ => rfl, by simp⟩

/-! ## An expansion -/

theorem expanded?_expandAll :
    (t.expandAll ids).state.expanded? x = some true ↔
      t.state.expanded? x = some true ∨ x ∈ ids ∧ t.state.contains x := by
  rw [expanded?, find?_expandAll, expanded?, contains]
  cases hfind : t.state.find? x with
  | none => simp
  | some r =>
      obtain rfl := spanId_of_find? hfind
      simp [shownBy, granted]

theorem HasOpenParent.expandAll (hlayout : t.state.fresh = base) :
    HasOpenParent base.childrenOf (t.expandAll ids).state x ↔
      HasOpenParent base.childrenOf t.state x ∨ x ∈ ids.flatMap base.childrenOf := by
  have hknown {parent : Text} (hchild : x ∈ base.childrenOf parent) : t.state.contains parent := by
    rw [← childrenOf_eq hlayout] at hchild
    exact contains_of_mem_childrenOf hchild
  simp only [HasOpenParent, expanded?_expandAll, List.mem_flatMap]
  constructor
  · rintro ⟨parent, hchild, hexpanded | ⟨hparent, -⟩⟩
    · exact .inl ⟨parent, hchild, hexpanded⟩
    · exact .inr ⟨parent, hparent, hchild⟩
  · rintro (⟨parent, hchild, hexpanded⟩ | ⟨parent, hparent, hchild⟩)
    · exact ⟨parent, hchild, .inl hexpanded⟩
    · exact ⟨parent, hchild, .inr ⟨hparent, hknown hchild⟩⟩

theorem IsForest.nodup_flatMap (h : base.IsForest) (hids : ids.Nodup) :
    (ids.flatMap base.childrenOf).Nodup := by
  refine List.nodup_flatMap.mpr ⟨fun id _ => h.nodup_children id, hids.imp fun hne => ?_⟩
  exact fun x hx hx' => hne (h.parent_unique hx hx')

/-- Collapsed nodes are expanded together. Those above them must be open already or be opened by
it. -/
theorem Tidy.expandAll (hforest : base.IsForest) (h : Tidy base [] [] t.state) (hids : ids.Nodup)
    (hcollapsed : ∀ id ∈ ids, t.state.expanded? id ≠ some true)
    (hreach : ∀ x r, t.state.find? x = some r → x ∈ ids ∨ x ∈ ids.flatMap base.ancestorsOf →
      r.isRoot ∨ HasOpenParent base.childrenOf (t.expandAll ids).state x) :
    Tidy base [] [] (t.expandAll ids).state := by
  have hopen {x : Text} :
      HasOpenParent base.childrenOf (t.expandAll ids).state x ↔
        HasOpenParent base.childrenOf t.state x ∨ x ∈ ids.flatMap base.childrenOf :=
    HasOpenParent.expandAll h.layout
  have hchildren := childrenOf_eq h.layout
  have habove : t.state.ancestorsOf = base.ancestorsOf := by rw [← h.layout, ancestorsOf_fresh]
  -- The parent of a node is unique, so a node gets one grant at most.
  have hcount {x : Text} (hx : x ∈ ids.flatMap base.childrenOf) :
      (ids.flatMap base.childrenOf).count x = 1 ∧ ¬ HasOpenParent base.childrenOf t.state x := by
    refine ⟨List.count_eq_one_of_mem (hforest.nodup_flatMap hids) hx, ?_⟩
    obtain ⟨parent, hparent, hchild⟩ := List.mem_flatMap.mp hx
    exact (HasOpenParent.of_child hforest hchild).not.mpr (hcollapsed parent hparent)
  refine ⟨(fresh_expandAll _ _).trans h.layout, by simp, by simp, ?_, ?_, ?_, ?_⟩
  all_goals
    intro x r hfind
    rw [find?_expandAll] at hfind
    obtain ⟨q, hq, rfl⟩ := Option.map_eq_some_iff.mp hfind
    obtain rfl := spanId_of_find? hq
  · have hvisible := h.visible hq
    have hreach := hreach _ q hq
    rw [hopen] at hreach ⊢
    simp only [shownBy, granted, hchildren, habove, Bool.or_eq_true, List.contains_eq_mem,
      decide_eq_true_eq, List.mem_append, List.not_mem_nil, or_false] at hvisible ⊢
    tauto
  · intro hexpanded
    have hvisible := h.expanded hq
    simp only [shownBy, Bool.or_eq_true, List.contains_eq_mem, decide_eq_true_eq,
      List.mem_append, List.not_mem_nil, or_false] at hexpanded hvisible ⊢
    tauto
  · intro hparent
    simp only [shownBy, granted, hchildren]
    by_cases hbelow : q.spanId ∈ ids.flatMap base.childrenOf
    · rw [h.shut hq (hcount hbelow).2, (hcount hbelow).1]
    · rw [h.opened hq ((hopen.mp hparent).resolve_right hbelow),
        List.count_eq_zero_of_not_mem hbelow]
  · intro hparent
    simp only [shownBy, granted, hchildren]
    rw [h.shut hq fun hbefore => hparent (hopen.mpr (.inl hbefore)),
      List.count_eq_zero_of_not_mem fun hbelow => hparent (hopen.mpr (.inr hbelow))]

/-- Everything above a visible node is visible. -/
theorem Tidy.visible_above (hforest : base.IsForest) (h : Tidy base [] [] s)
    (hid : s.visible? id = some true) (habove : x ∈ base.ancestorsOf id)
    (hfind : s.find? x = some r) : r.visible := by
  induction hlist : base.ancestorsOf id generalizing id with
  | nil => simp [hlist] at habove
  | cons parent above ih =>
      obtain ⟨q, hq, hvisible⟩ := Option.map_eq_some_iff.mp hid
      rcases (h.visible hq).mp hvisible with hroot | ⟨p, hchild, hexpanded⟩ | hclosed
      · have hknown : s.contains x := by simp [contains, hfind]
        exact absurd hknown (hforest.not_contains_above h.layout hq hroot habove)
      · have hp := hforest.above_child hchild
        obtain ⟨qp, hqp, hopen⟩ := Option.map_eq_some_iff.mp hexpanded
        have hshown : qp.visible := (h.expanded hqp hopen).resolve_right (by simp)
        rw [hp] at habove
        rcases List.mem_cons.mp habove with rfl | habove
        · obtain rfl := Option.some.inj (hqp.symm.trans hfind)
          exact hshown
        · have hparent : s.visible? p = some true := by simp [visible?, hqp, hshown]
          exact ih hparent habove (List.cons.inj (hp.symm.trans hlist)).2
      · simp at hclosed

end

end TraceExplorer.VisibilityState
