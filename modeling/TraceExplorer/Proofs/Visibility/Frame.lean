import TraceExplorer.Proofs.Visibility.Descent
import TraceExplorer.Proofs.Visibility.Lost

/-!
# Where hiding nodes changes a view

A collapse goes down from the nodes that are hidden, and of all nodes only these take back grants
above them. Records elsewhere in the tree stay as they are, whatever the counts were before.
-/

namespace TraceExplorer.VisibilityState

def openChildren? (s : VisibilityState) (id : Text) : Option Nat :=
  (s.find? id).map (·.openChildren.value)

/-- The nodes at which an operation may change each field of a record. -/
structure Places where
  expanded : Text → Prop
  visible : Text → Prop
  openParents : Text → Prop
  openChildren : Text → Prop

/-- A view is as an earlier one but at the given places. It has the same nodes in the same order,
with the same nodes below and above each of them. -/
structure ChangesOnly (places : Places) (s s' : VisibilityState) : Prop where
  layout : s'.fresh = s.fresh
  expanded : ∀ {x}, ¬ places.expanded x → s'.expanded? x = s.expanded? x
  visible : ∀ {x}, ¬ places.visible x → s'.visible? x = s.visible? x
  openParents : ∀ {x}, ¬ places.openParents x → s'.openParents? x = s.openParents? x
  openChildren : ∀ {x}, ¬ places.openChildren x → s'.openChildren? x = s.openChildren? x

def BelowSome (childrenOf : Text → List Text) (ids : List Text) (x : Text) : Prop :=
  ∃ id ∈ ids, Below childrenOf id x

def AboveSome (childrenOf : Text → List Text) (ids : List Text) (x : Text) : Prop :=
  ∃ id ∈ ids, Below childrenOf x id

/-- Where hiding nodes may change a view. Unless only what is below them is hidden, the nodes
themselves and those above them may be hidden too, and grants from below may be taken back. -/
def hidingPlaces (childrenOf : Text → List Text) (ids : List Text) (childrenOnly : Bool) :
    Places where
  expanded x := x ∈ ids ∨ BelowSome childrenOf ids x
  visible x := BelowSome childrenOf ids x ∨
    childrenOnly = false ∧ (x ∈ ids ∨ AboveSome childrenOf ids x)
  openParents x := BelowSome childrenOf ids x
  openChildren x := childrenOnly = false ∧ AboveSome childrenOf ids x

/-- On the way down from some nodes, only nodes below them are closed, and only these or the nodes
themselves wait to be collapsed. -/
structure Descends (s : VisibilityState) (ids : List Text) (childrenOnly : Bool)
    (waiting closed : List Text) (t : Transition) : Prop where
  changes : ChangesOnly (hidingPlaces s.childrenOf ids childrenOnly) s t.state
  waiting : ∀ x ∈ waiting, x ∈ ids ∨ BelowSome s.childrenOf ids x
  closed : ∀ x ∈ closed, BelowSome s.childrenOf ids x

open Transition Relation

section

variable {base s s' s'' : VisibilityState} {t : Transition} {p : Transition × List Text}
  {r : VisibilityRecord} {places : Places} {id x y : Text} {ids named waiting closed : List Text}
  {childrenOnly whole : Bool}

/-- The ids above a node that are known are those of the nodes it stands below. -/
theorem IsForest.below_of_mem_ancestorsOf (h : base.IsForest) (hx : base.contains x)
    (habove : x ∈ base.ancestorsOf y) : Below base.childrenOf x y := by
  induction hway : base.ancestorsOf y generalizing y with
  | nil => simp [hway] at habove
  | cons first rest ih =>
      cases hfind : base.find? y with
      | none => simp [ancestorsOf, hfind] at hway
      | some r =>
          by_cases hroot : r.isRoot
          · exact absurd hx (h.above_root hfind hroot habove)
          · simp only [h.root hfind, not_forall, not_not] at hroot
            obtain ⟨parent, hparent⟩ := hroot
            have hsplit := h.above_child hparent
            obtain ⟨-, rfl⟩ := List.cons.inj (hway.symm.trans hsplit)
            rcases List.mem_cons.mp (hsplit ▸ habove) with rfl | habove
            · exact .single hparent
            · exact (ih habove rfl).tail hparent

/-! ## One record -/

theorem ChangesOnly.refl (places : Places) (s : VisibilityState) : ChangesOnly places s s :=
  ⟨rfl, fun _ => rfl, fun _ => rfl, fun _ => rfl, fun _ => rfl⟩

theorem ChangesOnly.trans (h : ChangesOnly places s s') (h' : ChangesOnly places s' s'') :
    ChangesOnly places s s'' where
  layout := h'.layout.trans h.layout
  expanded hx := (h'.expanded hx).trans (h.expanded hx)
  visible hx := (h'.visible hx).trans (h.visible hx)
  openParents hx := (h'.openParents hx).trans (h.openParents hx)
  openChildren hx := (h'.openChildren hx).trans (h.openChildren hx)

/-- What is done to one record may change it where its node is a place. -/
theorem changesOnly_of_one {f : VisibilityRecord → VisibilityRecord}
    (hlayout : s'.fresh = s.fresh)
    (hfind : ∀ x, s'.find? x = if x = id then (s.find? x).map f else s.find? x)
    (hf : ∀ r, s.find? id = some r →
      (places.expanded id ∨ (f r).expanded = r.expanded) ∧
      (places.visible id ∨ (f r).visible = r.visible) ∧
      (places.openParents id ∨ (f r).openParents = r.openParents) ∧
      (places.openChildren id ∨ (f r).openChildren = r.openChildren)) :
    ChangesOnly places s s' := by
  have hfield {α : Type} (field : VisibilityRecord → α) (place : Text → Prop)
      (hone : ∀ r, s.find? id = some r → place id ∨ field (f r) = field r) {x : Text}
      (hx : ¬ place x) : (s'.find? x).map field = (s.find? x).map field := by
    rw [hfind]
    split
    · rename_i heq
      subst heq
      cases hr : s.find? x with
      | none => rfl
      | some r => exact congrArg some ((hone r hr).resolve_left hx)
    · rfl
  refine ⟨hlayout, ?_, ?_, ?_, ?_⟩
  · exact hfield (·.expanded) places.expanded fun r hr => (hf r hr).1
  · exact hfield (·.visible) places.visible fun r hr => (hf r hr).2.1
  · refine hfield (·.openParents.value) places.openParents fun r hr => ?_
    exact (hf r hr).2.2.1.imp_right (congrArg RefCount.value)
  · refine hfield (·.openChildren.value) places.openChildren fun r hr => ?_
    exact (hf r hr).2.2.2.imp_right (congrArg RefCount.value)

theorem changesOnly_mark (hid : places.expanded id) :
    ChangesOnly places t.state (t.modify id fun r => { r with expanded := false }).state := by
  apply changesOnly_of_one
  · exact fresh_modify (by exact fun _ => rfl)
  · exact fun x => find?_modify (by exact fun _ => rfl)
  · exact fun r _ => ⟨.inl hid, .inr rfl, .inr rfl, .inr rfl⟩

theorem changesOnly_setVisible {visible : Bool} (hid : places.visible id) :
    ChangesOnly places t.state (t.setVisible visible id).state := by
  apply changesOnly_of_one fresh_setVisible (fun x => find?_setVisible)
  exact fun r _ => ⟨.inr rfl, .inl hid, .inr rfl, .inr rfl⟩

theorem openParents_lowered : (lowered r).openParents = r.openParents := by
  unfold lowered
  dsimp only
  split <;> rfl

theorem changesOnly_releaseAbove
    (hid : t.state.contains id → places.visible id ∧ places.openChildren id) :
    ChangesOnly places t.state (t.releaseAbove id).state := by
  apply changesOnly_of_one fresh_releaseAbove (fun x => find?_releaseAbove)
  intro r hr
  have hknown : t.state.contains id := by simp [contains, hr]
  obtain ⟨hvisible, hchildren⟩ := hid hknown
  exact ⟨.inr expanded_lowered, .inl hvisible, .inr openParents_lowered, .inl hchildren⟩

theorem changesOnly_releaseChild (hid : places.openParents id) :
    ChangesOnly places t.state (t.releaseChild closed id).1.state := by
  apply changesOnly_of_one fresh_releaseChild (fun x => find?_releaseChild)
  exact fun r _ => ⟨.inr rfl, .inr rfl, .inl hid, .inr rfl⟩

/-! ## One node -/

theorem changesOnly_foldl {step : Transition → Text → Transition}
    (hstep : ∀ t, ∀ id ∈ ids, t.state.fresh = s.fresh →
      ChangesOnly places t.state (step t id).state)
    (ht : t.state.fresh = s.fresh) : ChangesOnly places t.state (ids.foldl step t).state := by
  apply List.foldlRecOn (motive := fun u : Transition => ChangesOnly places t.state u.state) _ _
    (.refl places t.state)
  intro u hu id hid
  exact hu.trans (hstep u id hid (hu.layout.trans ht))

theorem changesOnly_foldl_releaseChild (hids : ∀ id ∈ ids, places.openParents id) :
    ChangesOnly places p.1.state
      (ids.foldl (fun p child => p.1.releaseChild p.2 child) p).1.state := by
  apply List.foldlRecOn
    (motive := fun q : Transition × List Text => ChangesOnly places p.1.state q.1.state) _ _
    (.refl places p.1.state)
  intro q hq id hid
  exact hq.trans (changesOnly_releaseChild (hids id hid))

theorem changesOnly_withdrawAbove (hid : places.visible r.spanId)
    (habove : ∀ above ∈ r.ancestorIds, t.state.contains above →
      places.visible above ∧ places.openChildren above) :
    ChangesOnly places t.state (t.withdrawAbove r).state := by
  have hleft : ChangesOnly places t.state
      (if r.isRoot then t else t.setVisible false r.spanId).state := by
    split
    · exact .refl places t.state
    · exact changesOnly_setVisible hid
  refine hleft.trans (changesOnly_foldl (fun t' above hmem hlayout => ?_) hleft.layout)
  apply changesOnly_releaseAbove
  rw [contains_congr hlayout]
  exact habove above hmem

/-- All that is done after a node was marked as collapsed. -/
theorem changesOnly_after_mark (hfind : p.1.state.find? id = some r)
    (hbelow : ∀ child ∈ r.childIds, places.openParents child)
    (habove : childrenOnly = false → places.visible id ∧
      ∀ above ∈ r.ancestorIds, p.1.state.contains above →
        places.visible above ∧ places.openChildren above) :
    ChangesOnly places (p.1.modify id fun r => { r with expanded := false }).state
      (collapseOne childrenOnly p id).1.state := by
  rw [Transition.collapseOne, hfind]
  refine .trans ?_ (changesOnly_foldl_releaseChild hbelow)
  dsimp only
  split
  · exact .refl places _
  · rename_i hwhole
    obtain ⟨hvisible, habove⟩ := habove (by simpa using hwhole)
    apply changesOnly_withdrawAbove
    · rwa [spanId_of_find? hfind]
    · intro above hmem hknown
      rw [modify_state, contains_congr (fresh_modify (by exact fun _ => rfl))] at hknown
      exact habove above hmem hknown

/-- A node that is collapsed changes its own record, those of its children, and, if its own row is
hidden, those above it. -/
theorem changesOnly_collapseOne (hid : places.expanded id)
    (hbelow : ∀ child ∈ p.1.state.childrenOf id, places.openParents child)
    (habove : childrenOnly = false → places.visible id ∧
      ∀ above ∈ p.1.state.ancestorsOf id, p.1.state.contains above →
        places.visible above ∧ places.openChildren above) :
    ChangesOnly places p.1.state (collapseOne childrenOnly p id).1.state := by
  cases hfind : p.1.state.find? id with
  | none =>
      rw [Transition.collapseOne, hfind]
      exact .refl places p.1.state
  | some r =>
      rw [childrenOf, hfind] at hbelow
      rw [ancestorsOf, hfind] at habove
      exact (changesOnly_mark hid).trans (changesOnly_after_mark hfind hbelow habove)

theorem expanded?_collapseOne_iff :
    (collapseOne childrenOnly p id).1.state.expanded? x = some true ↔
      p.1.state.expanded? x = some true ∧ x ≠ id := by
  cases hfind : p.1.state.find? id with
  | none =>
      rw [Transition.collapseOne, hfind, iff_self_and]
      rintro hexpanded rfl
      simp [expanded?, hfind] at hexpanded
  | some r =>
      -- Nothing but the mark changes whether a node is expanded.
      have hrest : ChangesOnly
          { expanded := fun _ => False
            visible := fun _ => True
            openParents := fun _ => True
            openChildren := fun _ => True }
          (p.1.modify id fun r => { r with expanded := false }).state
          (collapseOne childrenOnly p id).1.state :=
        changesOnly_after_mark hfind (fun _ _ => trivial)
          fun _ => ⟨trivial, fun _ _ _ => ⟨trivial, trivial⟩⟩
      rw [hrest.expanded (by exact fun h => h), expanded?, modify_state,
        find?_modify (by exact fun _ => rfl), expanded?]
      by_cases hx : x = id
      · simp [hx]
      · simp [hx]

/-- The children that a node closes are children of it. -/
theorem mem_closed_collapseOne_imp (hforest : p.1.state.IsForest)
    (hx : x ∈ (collapseOne childrenOnly p id).2) : x ∈ p.2 ∨ x ∈ p.1.state.childrenOf id := by
  unfold Transition.collapseOne at hx
  split at hx
  · exact .inl hx
  · rename_i r hfind
    have hnodup := hforest.nodup_children id
    rw [childrenOf, hfind] at hnodup ⊢
    exact ((mem_closed_foldl_releaseChild hnodup).mp hx).imp_right And.left

/-! ## On the way down -/

theorem Descends.collapseOne (hforest : s.IsForest)
    (h : Descends s ids whole (id :: waiting) closed t)
    (hid : childrenOnly = false → whole = false ∧ id ∈ ids) :
    Descends s ids whole waiting (Transition.collapseOne childrenOnly (t, closed) id).2
      (Transition.collapseOne childrenOnly (t, closed) id).1 := by
  have hplace := h.waiting id List.mem_cons_self
  have hchild {child : Text} (hchild : child ∈ t.state.childrenOf id) :
      BelowSome s.childrenOf ids child := by
    rw [childrenOf_congr h.changes.layout] at hchild
    rcases hplace with hmem | ⟨top, htop, hbelow⟩
    · exact ⟨id, hmem, .single hchild⟩
    · exact ⟨top, htop, hbelow.tail hchild⟩
  refine ⟨h.changes.trans (changesOnly_collapseOne (p := (t, closed)) hplace (fun _ => hchild)
    fun honly => ?_), ?_, fun x hx => ?_⟩
  · obtain ⟨hwhole, hmem⟩ := hid honly
    refine ⟨.inr ⟨hwhole, .inl hmem⟩, fun above habove hknown => ?_⟩
    rw [ancestorsOf_congr h.changes.layout] at habove
    rw [contains_congr h.changes.layout] at hknown
    have hbelow := hforest.below_of_mem_ancestorsOf hknown habove
    exact ⟨.inr ⟨hwhole, .inr ⟨id, hmem, hbelow⟩⟩, hwhole, id, hmem, hbelow⟩
  · exact fun x hx => h.waiting x (List.mem_cons_of_mem _ hx)
  · have hforest' := hforest.congr h.changes.layout.symm
    rcases mem_closed_collapseOne_imp (p := (t, closed)) hforest' hx with hx | hx
    · exact h.closed x hx
    · exact hchild hx

theorem Descends.hide (h : Descends s ids whole [] closed t) :
    Descends s ids whole closed [] (closed.foldl (setVisible false) t) := by
  refine ⟨h.changes.trans (changesOnly_foldl (fun t id hid _ => ?_) rfl), ?_, by simp⟩
  · exact changesOnly_setVisible (.inl (h.closed id hid))
  · exact fun x hx => .inr (h.closed x hx)

theorem Descends.foldl_collapseOne (hforest : s.IsForest)
    (h : Descends s ids childrenOnly named p.2 p.1) (hnamed : ∀ id ∈ named, id ∈ ids) :
    Descends s ids childrenOnly [] (named.foldl (Transition.collapseOne childrenOnly) p).2
      (named.foldl (Transition.collapseOne childrenOnly) p).1 := by
  induction named generalizing p with
  | nil => exact h
  | cons id rest ih =>
      obtain ⟨hid, hrest⟩ := List.forall_mem_cons.mp hnamed
      exact ih (h.collapseOne hforest fun honly => ⟨honly, hid⟩) hrest

/-- A collapse changes a view at the places of its nodes only. -/
theorem changesOnly_collapse (hforest : s.IsForest) (ids : List Text) (childrenOnly : Bool) :
    ChangesOnly (hidingPlaces s.childrenOf ids childrenOnly) s
      (Transition.collapse childrenOnly ⟨s, []⟩ ids).state := by
  have hstart : Descends s ids childrenOnly ids [] ⟨s, []⟩ :=
    ⟨.refl _ s, fun _ => .inl, by simp⟩
  have hfirst := Descends.foldl_collapseOne (p := (⟨s, []⟩, [])) hforest hstart fun _ hid => hid
  rw [collapse_eq]
  refine (collapse_rule (P := Descends s ids childrenOnly) ?_ (fun _ _ h => h.hide)
    hfirst.hide).changes
  exact fun _ _ _ _ h => h.collapseOne hforest (by simp)

theorem expanded?_foldl_collapseOne :
    (ids.foldl (collapseOne childrenOnly) p).1.state.expanded? x = some true ↔
      p.1.state.expanded? x = some true ∧ x ∉ ids := by
  induction ids generalizing p with
  | nil => simp
  | cons id rest ih =>
      rw [List.foldl_cons, ih, expanded?_collapseOne_iff, List.mem_cons, not_or, and_assoc]

/-- A collapse expands no node, and it leaves none of its own nodes expanded. -/
theorem expanded?_collapse
    (hx : (t.collapse childrenOnly ids).state.expanded? x = some true) :
    t.state.expanded? x = some true ∧ x ∉ ids := by
  rw [collapse_eq] at hx
  refine collapse_rule (P := fun _ _ t' => t'.state.expanded? x = some true →
    t.state.expanded? x = some true ∧ x ∉ ids) ?_ ?_ ?_ hx
  · exact fun _ _ _ _ h hx => h (expanded?_collapseOne_iff.mp hx).1
  · intro t' closed h hx
    rw [expanded?_foldl_setVisible] at hx
    exact h hx
  · intro hx
    rw [Transition.collapseLevel, expanded?_foldl_setVisible] at hx
    exact expanded?_foldl_collapseOne.mp hx

end

/-- In every view that operations lead to, hiding known nodes collapses them and changes the view
only at their places: what is below them, and what is above them only if their own rows are
hidden. -/
theorem hideNodes_within {spans : List Span} {tree : TraceTree} {s : VisibilityState}
    {ids : List Text} (childrenOnly : Bool) (htree : TraceTree.build spans = .ok tree)
    (h : Reached (fun _ _ => True) (initial tree) s) (hknown : ∀ id ∈ ids, s.contains id) :
    ∃ t, s.hideNodes ids childrenOnly = .ok t ∧
      ChangesOnly (hidingPlaces tree.childIds ids childrenOnly) s t.state ∧
      ∀ id ∈ ids, t.state.expanded? id = some false := by
  have hlayout : s.fresh = (initial tree).fresh := h.fresh_eq
  have hforest : s.IsForest :=
    (TraceTree.Built.of_build htree).isForest_initial.congr hlayout.symm
  have hchanges := changesOnly_collapse hforest ids childrenOnly
  rw [childrenOf_congr hlayout, childrenOf_initial] at hchanges
  refine ⟨_, hideNodes_eq_ok_iff.mpr ⟨hknown, rfl⟩, hchanges, fun id hid => ?_⟩
  have hcontains : (Transition.collapse childrenOnly ⟨s, []⟩ ids).state.contains id := by
    rw [contains_congr hchanges.layout]
    exact hknown id hid
  obtain ⟨r, hr⟩ := Option.isSome_iff_exists.mp hcontains
  rw [expanded?, hr, Option.map_some, Option.some_inj, Bool.eq_false_iff]
  intro hexpanded
  have hstill : (Transition.collapse childrenOnly ⟨s, []⟩ ids).state.expanded? id = some true := by
    rw [expanded?, hr, Option.map_some, hexpanded]
  exact (expanded?_collapse hstill).2 hid

/-- In a chain in which every node is expanded, the two in the middle are hidden. -/
theorem hideNodes_within_of_chain :
    ∃ (tree : TraceTree) (s : VisibilityState) (t : Transition),
      TraceTree.build [
        { traceId := "1", id := "a" },
        { traceId := "1", id := "b", parentId := some "a" },
        { traceId := "1", id := "c", parentId := some "b" },
        { traceId := "1", id := "d", parentId := some "c" }] = .ok tree ∧
      Reached (fun _ _ => True) (initial tree) s ∧ s.openChildren? "a" = some 3 ∧
      s.hideNodes ["c", "b"] = .ok t ∧
      ChangesOnly (hidingPlaces tree.childIds ["c", "b"] false) s t.state ∧
      (∀ id ∈ (["c", "b"] : List Text), t.state.expanded? id = some false) ∧
      t.state.openChildren? "a" = some 1 ∧ t.changed = (["c", "b", "d"] : List Text) := by
  have hview : (TraceTree.build [
      { traceId := "1", id := "a" },
      { traceId := "1", id := "b", parentId := some "a" },
      { traceId := "1", id := "c", parentId := some "b" },
      { traceId := "1", id := "d", parentId := some "c" }]).toOption.bind (fun tree =>
        (initial tree).expandAll.toOption.bind fun opened =>
          (opened.state.hideNodes ["c", "b"]).toOption.map fun hidden =>
            (opened.state.openChildren? "a", hidden.state.openChildren? "a", hidden.changed)) =
      some (some 3, some 1, (["c", "b", "d"] : List Text)) := by decide +kernel
  obtain ⟨tree, htree, hview⟩ := Option.bind_eq_some_iff.mp hview
  obtain ⟨opened, hopened, hview⟩ := Option.bind_eq_some_iff.mp hview
  obtain ⟨hidden, hhidden, hview⟩ := Option.map_eq_some_iff.mp hview
  rw [toOption_eq_some_iff] at htree hopened hhidden
  simp only [Prod.mk.injEq] at hview
  obtain ⟨hbefore, hafter, hchanged⟩ := hview
  have hreached : Reached (fun _ _ => True) (initial tree) opened.state :=
    .step (a := .expandAll) .start trivial hopened
  have hknown := (hideNodes_eq_ok_iff.mp hhidden).1
  obtain ⟨t, ht, hwithin, hcollapsed⟩ := hideNodes_within false htree hreached hknown
  obtain rfl := Except.ok.inj (ht.symm.trans hhidden)
  exact ⟨tree, opened.state, t, htree, hreached, hbefore, ht, hwithin, hcollapsed, hafter, hchanged⟩

end TraceExplorer.VisibilityState
