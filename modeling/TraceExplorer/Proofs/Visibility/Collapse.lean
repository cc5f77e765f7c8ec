import TraceExplorer.Proofs.Visibility.View

/-!
# What a collapse does to the records

A collapse goes level by level: it takes back the grants of the nodes of one level, hides the
children that lost their last grant, and goes on with these. What one node of a level keeps and
what hiding the closed children keeps is kept by the whole collapse.
-/

namespace TraceExplorer.Transition

open VisibilityState

section

variable {t : Transition} {x id child above : Text} {ids closed : List Text}
  {childrenOnly : Bool}

/-! ## Taking back grants -/

def lowered (r : VisibilityRecord) : VisibilityRecord :=
  let after := { r with openChildren := r.openChildren.decrement }
  if after.isReleased then { after with visible := false } else after

/-- A node that is collapsed itself is no longer expanded, and hidden unless it is a top node. -/
theorem find?_leave {r : VisibilityRecord} (hfind : t.state.find? id = some r) :
    (if r.isRoot then t.modify id fun r => { r with expanded := false }
      else (t.modify id fun r => { r with expanded := false }).setVisible false
        r.spanId).state.find? x =
      if x = id then some { r with expanded := false, visible := r.isRoot && r.visible }
      else t.state.find? x := by
  have hmodify (x : Text) := @find?_modify t.state id x (fun r => { r with expanded := false })
    fun _ => rfl
  obtain rfl := spanId_of_find? hfind
  split
  · rename_i hroot
    rw [modify_state, hmodify]
    split
    · rename_i heq
      simp [heq, hfind, hroot]
    · rfl
  · rename_i hroot
    rw [find?_setVisible, modify_state, hmodify]
    split
    · rename_i heq
      simp [heq, hfind, hroot]
    · rfl

theorem fresh_leave (r : VisibilityRecord) :
    (if r.isRoot then t.modify id fun r => { r with expanded := false }
      else (t.modify id fun r => { r with expanded := false }).setVisible false
        r.spanId).state.fresh = t.state.fresh := by
  have hmodify := @fresh_modify t.state id (fun r => { r with expanded := false }) fun _ => rfl
  split
  · exact hmodify
  · exact fresh_setVisible.trans hmodify

theorem find?_releaseAbove :
    (t.releaseAbove above).state.find? x =
      if x = above then (t.state.find? x).map lowered else t.state.find? x := by
  have hmodify (x : Text) := @find?_modify t.state above x
    (fun a => { a with openChildren := a.openChildren.decrement }) fun _ => rfl
  unfold releaseAbove
  simp only [modify_state, hmodify, ↓reduceIte]
  cases hfind : t.state.find? above with
  | none =>
      simp only [Option.map_none, modify_state, hmodify]
      split
      · rename_i heq
        simp [heq, hfind]
      · rfl
  | some r =>
      simp only [Option.map_some]
      split
      · rename_i hreleased
        rw [find?_setVisible, modify_state, hmodify]
        split
        · rename_i heq
          simp [heq, hfind, lowered, hreleased]
        · rfl
      · rename_i hreleased
        rw [modify_state, hmodify]
        split
        · rename_i heq
          simp [heq, hfind, lowered, hreleased]
        · rfl

theorem fresh_releaseAbove : (t.releaseAbove above).state.fresh = t.state.fresh := by
  have hmodify := @fresh_modify t.state above
    (fun a => { a with openChildren := a.openChildren.decrement }) fun _ => rfl
  unfold releaseAbove
  simp only []
  split
  · exact hmodify
  · split
    · exact fresh_setVisible.trans hmodify
    · exact hmodify

theorem fresh_withdrawAbove (r : VisibilityRecord) :
    (t.withdrawAbove r).state.fresh = t.state.fresh := by
  rw [withdrawAbove, fresh_foldl fun _ _ => fresh_releaseAbove]
  split
  · rfl
  · exact fresh_setVisible

theorem find?_releaseChild :
    (t.releaseChild closed child).1.state.find? x =
      if x = child then
        (t.state.find? x).map fun r => { r with openParents := r.openParents.decrement }
      else t.state.find? x := by
  unfold releaseChild
  split
  · rename_i hnone
    split
    · rename_i heq
      simp [heq, hnone]
    · rfl
  · simp only []
    split <;> exact find?_modify (by exact fun _ => rfl)

theorem fresh_releaseChild :
    (t.releaseChild closed child).1.state.fresh = t.state.fresh := by
  unfold releaseChild
  split
  · rfl
  · simp only []
    split <;> exact fresh_modify (by exact fun _ => rfl)

/-- A child is closed if it loses its last grant. -/
theorem mem_closed_releaseChild :
    x ∈ (t.releaseChild closed child).2 ↔
      x ∈ closed ∨ x = child ∧ ∃ r, t.state.find? child = some r ∧ r.openParents.value = 1 := by
  unfold releaseChild
  split
  · rename_i hnone
    simp [hnone]
  · rename_i r hsome
    simp only []
    split
    · rename_i hone
      by_cases hmem : child ∈ closed
      · simp only [List.contains_eq_mem, hmem, decide_true, ↓reduceIte]
        exact ⟨Or.inl, fun h => h.elim (fun h => h) fun h => h.1 ▸ hmem⟩
      · simp [hmem, hsome, hone]
    · rename_i hone
      simp [hsome, hone]

theorem nodup_closed_releaseChild (h : closed.Nodup) : (t.releaseChild closed child).2.Nodup := by
  unfold releaseChild
  split
  · exact h
  · dsimp only
    split
    · split
      · exact h
      · rename_i hmem
        refine List.nodup_append.mpr ⟨h, List.nodup_singleton child, fun x hx y hy => ?_⟩
        rintro rfl
        rw [List.mem_singleton.mp hy] at hx
        exact hmem (List.contains_iff_mem.mpr hx)
    · exact h

variable {p : Transition × List Text} {children : List Text}

theorem find?_foldl_releaseChild :
    (children.foldl (fun p child => p.1.releaseChild p.2 child) p).1.state.find? x =
      (p.1.state.find? x).map fun r =>
        { r with openParents := ⟨r.openParents.value - children.count x⟩ } := by
  induction children generalizing p with
  | nil => simp
  | cons child rest ih =>
      rw [List.foldl_cons, ih, find?_releaseChild, List.count_cons]
      by_cases hchild : x = child
      · simp [hchild, Option.map_map, Function.comp_def, RefCount.decrement, Nat.sub_sub,
          Nat.add_comm]
      · have hne : (child == x) = false := by simpa using Ne.symm hchild
        simp [hchild, hne]

theorem fresh_foldl_releaseChild :
    (children.foldl (fun p child => p.1.releaseChild p.2 child) p).1.state.fresh =
      p.1.state.fresh := by
  induction children generalizing p with
  | nil => rfl
  | cons child rest ih => rw [List.foldl_cons, ih, fresh_releaseChild]

theorem mem_closed_foldl_releaseChild (hnodup : children.Nodup) :
    x ∈ (children.foldl (fun p child => p.1.releaseChild p.2 child) p).2 ↔
      x ∈ p.2 ∨ x ∈ children ∧ ∃ r, p.1.state.find? x = some r ∧ r.openParents.value = 1 := by
  induction children generalizing p with
  | nil => simp
  | cons child rest ih =>
      obtain ⟨hchild, hrest⟩ := List.nodup_cons.mp hnodup
      rw [List.foldl_cons, ih hrest, mem_closed_releaseChild, find?_releaseChild, or_assoc]
      refine or_congr_right ?_
      by_cases hx : x = child
      · subst hx
        simp [hchild]
      · simp [hx]

theorem nodup_closed_foldl_releaseChild (h : p.2.Nodup) :
    (children.foldl (fun p child => p.1.releaseChild p.2 child) p).2.Nodup := by
  apply List.foldlRecOn (motive := fun q : Transition × List Text => q.2.Nodup) _ _ h
  intro q hq child _
  exact nodup_closed_releaseChild hq

/-! ## One node -/

theorem collapseOne_of_find? {r : VisibilityRecord} (hfind : p.1.state.find? id = some r) :
    collapseOne true p id =
      r.childIds.foldl (fun p child => p.1.releaseChild p.2 child)
        (p.1.modify id fun r => { r with expanded := false }, p.2) := by
  simp [collapseOne, hfind]

theorem collapseOne_of_none (hfind : p.1.state.find? id = none) : collapseOne true p id = p := by
  simp [collapseOne, hfind]

theorem fresh_collapseOne :
    (collapseOne childrenOnly p id).1.state.fresh = p.1.state.fresh := by
  unfold collapseOne
  split
  · rfl
  · rename_i r hfind
    have hmarked := @fresh_modify p.1.state id (fun r => { r with expanded := false }) fun _ => rfl
    rw [fresh_foldl_releaseChild]
    dsimp only
    split
    · exact hmarked
    · exact (fresh_withdrawAbove r).trans hmarked

/-- Collapsing a node takes back one grant at each of its children. -/
theorem find?_collapseOne :
    (collapseOne true p id).1.state.find? x =
      (p.1.state.find? x).map fun r =>
        { r with
          expanded := r.expanded && x != id
          openParents := ⟨r.openParents.value - (p.1.state.childrenOf id).count x⟩ } := by
  cases hfind : p.1.state.find? id with
  | none =>
      rw [collapseOne_of_none hfind, childrenOf, hfind]
      cases hx : p.1.state.find? x with
      | none => rfl
      | some r =>
          have hne : (x != id) = true := bne_iff_ne.mpr fun heq => by simp [← heq, hx] at hfind
          simp [hne]
  | some r =>
      rw [collapseOne_of_find? hfind, childrenOf, hfind, find?_foldl_releaseChild, modify_state,
        find?_modify (by exact fun _ => rfl)]
      by_cases hx : x = id
      · simp [hx, Option.map_map, Function.comp_def]
      · have hne : (x != id) = true := bne_iff_ne.mpr hx
        simp [hx, hne]

/-- The children that are closed are those that had no other grant. -/
theorem mem_closed_collapseOne (hnodup : (p.1.state.childrenOf id).Nodup) :
    x ∈ (collapseOne true p id).2 ↔
      x ∈ p.2 ∨ x ∈ p.1.state.childrenOf id ∧
        ∃ r, p.1.state.find? x = some r ∧ r.openParents.value = 1 := by
  cases hfind : p.1.state.find? id with
  | none =>
      rw [collapseOne_of_none hfind]
      simp [childrenOf, hfind]
  | some r =>
      simp only [childrenOf, hfind, Option.map_some, Option.getD_some] at hnodup ⊢
      rw [collapseOne_of_find? hfind, mem_closed_foldl_releaseChild hnodup, modify_state,
        find?_modify (by exact fun _ => rfl)]
      by_cases hx : x = id
      · simp [hx]
      · simp [hx]

theorem nodup_closed_collapseOne (h : p.2.Nodup) : (collapseOne childrenOnly p id).2.Nodup := by
  unfold collapseOne
  split
  · exact h
  · exact nodup_closed_foldl_releaseChild h

/-! ## Level by level -/

theorem fresh_foldl_collapseOne :
    (ids.foldl (collapseOne childrenOnly) p).1.state.fresh = p.1.state.fresh := by
  induction ids generalizing p with
  | nil => rfl
  | cons id rest ih => rw [List.foldl_cons, ih, fresh_collapseOne]

theorem nodup_closed_foldl_collapseOne (h : p.2.Nodup) :
    (ids.foldl (collapseOne childrenOnly) p).2.Nodup := by
  apply List.foldlRecOn (motive := fun q : Transition × List Text => q.2.Nodup) _ _ h
  intro q hq id _
  exact nodup_closed_collapseOne hq

theorem fresh_collapseLevel :
    (t.collapseLevel childrenOnly ids).1.state.fresh = t.state.fresh :=
  fresh_foldl_setVisible.trans fresh_foldl_collapseOne

theorem nodup_closed_collapseLevel : (t.collapseLevel childrenOnly ids).2.Nodup :=
  nodup_closed_foldl_collapseOne (p := (t, [])) List.nodup_nil

theorem collapse_nil (t : Transition) : t.collapse true [] = t := by
  rw [collapse]
  rfl

/-- After the first level a collapse goes on with the children that were closed. -/
theorem collapse_eq (childrenOnly : Bool) (t : Transition) (ids : List Text) :
    t.collapse childrenOnly ids =
      (t.collapseLevel childrenOnly ids).1.collapse true (t.collapseLevel childrenOnly ids).2 := by
  rw [collapse]
  split
  · rename_i hlevel
    rw [hlevel, collapse_nil]
  · rename_i hlevel
    rw [hlevel]

/-- What holds of a collapse as long as nodes wait and children are closed holds at its end with
none left. The first list has the nodes that wait on the current level, the second one the
children closed so far. -/
theorem collapse_rule {P : List Text → List Text → Transition → Prop}
    (one : ∀ t id waiting closed, P (id :: waiting) closed t →
      P waiting (collapseOne true (t, closed) id).2 (collapseOne true (t, closed) id).1)
    (hide : ∀ t closed, P [] closed t → P closed [] (closed.foldl (setVisible false) t))
    (h : P ids [] t) : P [] [] (t.collapse true ids) := by
  have level (ids : List Text) : ∀ p : Transition × List Text, P ids p.2 p.1 →
      P [] (ids.foldl (collapseOne true) p).2 (ids.foldl (collapseOne true) p).1 := by
    induction ids with
    | nil => exact fun _ h => h
    | cons id rest ih => exact fun p h => ih _ (one p.1 id rest p.2 h)
  -- Every further level takes back at least one grant.
  induction hgrants : t.state.grants using Nat.strongRecOn generalizing t ids with
  | ind grants ih =>
      have hnext : P (t.collapseLevel true ids).2 [] (t.collapseLevel true ids).1 :=
        hide _ _ (level ids (t, []) h)
      have hle := grants_collapseLevel_le true t ids
      rw [collapse_eq]
      generalize t.collapseLevel true ids = next at hnext hle ⊢
      obtain ⟨hidden, closed⟩ := next
      cases closed with
      | nil =>
          rw [collapse_nil]
          exact hnext
      | cons child rest =>
          rw [List.length_cons] at hle
          exact ih _ (by omega) hnext rfl

end

end TraceExplorer.Transition
