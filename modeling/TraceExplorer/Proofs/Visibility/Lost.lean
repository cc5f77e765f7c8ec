import TraceExplorer.Proofs.Success
import TraceExplorer.Proofs.Visibility.Change
import TraceExplorer.Proofs.Visibility.Layout

/-!
# Expanded nodes that are hidden

A node that is collapsed, or closed because its parent is, gives up its expansion before it is
hidden. A node above a collapsed one does not: if that takes away its last grant, it is hidden while
it is still expanded. No other operation hides an expanded node.
-/

namespace TraceExplorer.VisibilityState

def IsLost (s : VisibilityState) (id : Text) : Prop :=
  s.expanded? id = some true ∧ s.visible? id = some false

/-- Every expanded node is visible, waits to be collapsed, or has no grant left and is one of those
that may be lost. -/
def Kept (mayBeLost : Text → Prop) (waiting : List Text) (s : VisibilityState) : Prop :=
  ∀ id r, s.find? id = some r → r.expanded → r.visible ∨ id ∈ waiting ∨ mayBeLost id ∧ r.isReleased

/-- The operation collapses a node below the given one and takes back its grants above. -/
def WithdrawsBelow (ancestorsOf : Text → List Text) (a : Action) (id : Text) : Prop :=
  ∃ ids, a = .hideNodes ids false ∧ ∃ below ∈ ids, id ∈ ancestorsOf below

open Transition

section

variable {mayBeLost : Text → Prop} {s : VisibilityState} {t : Transition}
  {p : Transition × List Text} {r : VisibilityRecord} {a : Action} {id above : Text}
  {ids waiting closed children : List Text} {childrenOnly : Bool}

/-! ## Records without grants -/

theorem isReleased_decrement {n : Nat} (h : r.isReleased) (hle : n ≤ r.openParents.value) :
    ({ r with openParents := ⟨n⟩ } : VisibilityRecord).isReleased := by
  simp only [VisibilityRecord.isReleased, Bool.and_eq_true, beq_iff_eq] at h ⊢
  exact ⟨⟨h.1.1, by omega⟩, h.2⟩

/-- A record from which a grant below is taken back has none left if it had none before. -/
theorem isReleased_lowered (h : r.isReleased) : (lowered r).isReleased := by
  simp only [VisibilityRecord.isReleased, Bool.and_eq_true, beq_iff_eq] at h
  simp [lowered, VisibilityRecord.isReleased, RefCount.decrement, h]

theorem visible_or_isReleased_lowered (h : r.visible) :
    (lowered r).visible ∨ (lowered r).isReleased := by
  unfold lowered
  dsimp only
  split
  · rename_i hreleased
    exact .inr hreleased
  · exact .inl h

theorem expanded_lowered : (lowered r).expanded = r.expanded := by
  unfold lowered
  dsimp only
  split <;> rfl

/-! ## Steps of a collapse -/

theorem Kept.releaseAbove (h : Kept mayBeLost waiting t.state) (habove : mayBeLost above) :
    Kept mayBeLost waiting (t.releaseAbove above).state := by
  intro x q hq hexpanded
  rw [find?_releaseAbove] at hq
  split at hq
  · rename_i heq
    obtain ⟨r, hr, rfl⟩ := Option.map_eq_some_iff.mp hq
    rw [expanded_lowered] at hexpanded
    rcases h x r hr hexpanded with hvisible | hwaiting | ⟨hmay, hreleased⟩
    · exact (visible_or_isReleased_lowered hvisible).imp_right
        fun hreleased => .inr ⟨heq ▸ habove, hreleased⟩
    · exact .inr (.inl hwaiting)
    · exact .inr (.inr ⟨hmay, isReleased_lowered hreleased⟩)
  · exact h x q hq hexpanded

theorem Kept.foldl_releaseAbove (h : Kept mayBeLost waiting t.state)
    (hids : ∀ above ∈ ids, mayBeLost above) :
    Kept mayBeLost waiting (ids.foldl Transition.releaseAbove t).state := by
  apply List.foldlRecOn (motive := fun u : Transition => Kept mayBeLost waiting u.state) _ _ h
  intro u hu above habove
  exact hu.releaseAbove (hids above habove)

theorem Kept.foldl_releaseChild (h : Kept mayBeLost waiting p.1.state) :
    Kept mayBeLost waiting
      (children.foldl (fun p child => p.1.releaseChild p.2 child) p).1.state := by
  intro x q hq hexpanded
  rw [find?_foldl_releaseChild] at hq
  obtain ⟨r, hr, rfl⟩ := Option.map_eq_some_iff.mp hq
  rcases h x r hr hexpanded with hvisible | hwaiting | ⟨hmay, hreleased⟩
  · exact .inl hvisible
  · exact .inr (.inl hwaiting)
  · exact .inr (.inr ⟨hmay, isReleased_decrement hreleased (Nat.sub_le ..)⟩)

/-- A node that is collapsed waits no longer. -/
theorem Kept.mark (h : Kept mayBeLost (id :: waiting) t.state) :
    Kept mayBeLost waiting (t.modify id fun r => { r with expanded := false }).state := by
  intro x q hq hexpanded
  rw [modify_state, find?_modify (by exact fun _ => rfl)] at hq
  split at hq
  · obtain ⟨r, -, rfl⟩ := Option.map_eq_some_iff.mp hq
    cases hexpanded
  · rename_i hne
    exact (h x q hq hexpanded).imp_right
      (.imp_left fun hwaiting => (List.mem_cons.mp hwaiting).resolve_left hne)

theorem Kept.leave (h : Kept mayBeLost waiting t.state) (hfind : t.state.find? id = some r) :
    Kept mayBeLost waiting (if r.isRoot then t.modify id fun r => { r with expanded := false }
      else (t.modify id fun r => { r with expanded := false }).setVisible false
        r.spanId).state := by
  intro x q hq hexpanded
  rw [find?_leave hfind] at hq
  split at hq
  · obtain rfl := Option.some.inj hq
    cases hexpanded
  · exact h x q hq hexpanded

theorem Kept.collapseOne (h : Kept mayBeLost (id :: waiting) t.state) :
    Kept mayBeLost waiting (Transition.collapseOne true (t, closed) id).1.state := by
  cases hfind : t.state.find? id with
  | none =>
      rw [collapseOne_of_none (p := (t, closed)) hfind]
      intro x q hq hexpanded
      refine (h x q hq hexpanded).imp_right (.imp_left fun hwaiting => ?_)
      refine (List.mem_cons.mp hwaiting).resolve_left ?_
      rintro rfl
      simp [hfind] at hq
  | some r =>
      rw [collapseOne_of_find? (p := (t, closed)) hfind]
      exact h.mark.foldl_releaseChild

theorem Kept.hide (h : Kept mayBeLost [] t.state) :
    Kept mayBeLost closed (closed.foldl (setVisible false) t).state := by
  intro x q hq hexpanded
  rw [find?_foldl_setVisible] at hq
  split at hq
  · rename_i hclosed
    exact .inr (.inl hclosed)
  · exact (h x q hq hexpanded).imp_right (.imp_left fun hwaiting => by cases hwaiting)

theorem Kept.collapse (h : Kept mayBeLost ids t.state) :
    Kept mayBeLost [] (t.collapse true ids).state :=
  collapse_rule (P := fun waiting _ t => Kept mayBeLost waiting t.state)
    (fun _ _ _ _ h => h.collapseOne) (fun _ _ h => h.hide) h

theorem Kept.collapseOne_whole (h : Kept mayBeLost waiting p.1.state)
    (habove : ∀ above ∈ p.1.state.ancestorsOf id, mayBeLost above) :
    Kept mayBeLost waiting (Transition.collapseOne false p id).1.state := by
  unfold Transition.collapseOne
  split
  · exact h
  · rename_i r hfind
    have hids : ∀ above ∈ r.ancestorIds, mayBeLost above := by
      simpa [ancestorsOf, hfind] using habove
    exact ((h.leave hfind).foldl_releaseAbove hids).foldl_releaseChild

theorem Kept.foldl_collapseOne_whole (hnoted : Noted false s p.1)
    (h : Kept mayBeLost waiting p.1.state)
    (hids : ∀ id ∈ ids, ∀ above ∈ s.ancestorsOf id, mayBeLost above) :
    Kept mayBeLost waiting (ids.foldl (Transition.collapseOne false) p).1.state := by
  induction ids generalizing p with
  | nil => exact h
  | cons id rest ih =>
      have habove : ∀ above ∈ p.1.state.ancestorsOf id, mayBeLost above := by
        rw [ancestorsOf_congr hnoted.layout]
        exact hids id List.mem_cons_self
      apply ih hnoted.collapseOne (h.collapseOne_whole habove)
      exact fun id hid => hids id (List.mem_cons_of_mem _ hid)

theorem Kept.collapse_whole (h : Kept mayBeLost [] s)
    (hids : ∀ id ∈ ids, ∀ above ∈ s.ancestorsOf id, mayBeLost above) :
    Kept mayBeLost [] (Transition.collapse false ⟨s, []⟩ ids).state := by
  rw [collapse_eq]
  have hfirst : Kept mayBeLost []
      (ids.foldl (Transition.collapseOne false) (⟨s, []⟩, [])).1.state :=
    foldl_collapseOne_whole (p := (⟨s, []⟩, [])) (.refl false s) h hids
  exact hfirst.hide.collapse

/-! ## Operations -/

theorem Kept.mono {waiting' : List Text} (h : Kept mayBeLost waiting s)
    (hsubset : waiting ⊆ waiting') : Kept mayBeLost waiting' s :=
  fun id r hfind hexpanded => (h id r hfind hexpanded).imp_right (.imp_left (hsubset ·))

/-- A node that gets a grant is shown, so one that is still hidden has none. -/
theorem Kept.expandAll (h : Kept mayBeLost [] s) :
    Kept mayBeLost [] (Transition.expandAll ⟨s, []⟩ ids).state := by
  intro x q hq hexpanded
  rw [find?_expandAll] at hq
  obtain ⟨r, hr, rfl⟩ := Option.map_eq_some_iff.mp hq
  obtain rfl := spanId_of_find? hr
  by_cases hlisted : r.spanId ∈ ids ++ ids.flatMap s.childrenOf ++ ids.flatMap s.ancestorsOf
  · left
    simp only [shownBy, Bool.or_eq_true, List.contains_iff_mem]
    exact .inr hlisted
  · simp only [List.mem_append, not_or] at hlisted
    obtain ⟨⟨hids, hbelow⟩, habove⟩ := hlisted
    have hsame : shownBy s ids r = r := by
      simp [shownBy, granted, hids, hbelow, habove, List.count_eq_zero_of_not_mem]
    rw [hsame] at hexpanded ⊢
    exact h r.spanId r hr hexpanded

theorem kept_fresh (s : VisibilityState) : Kept mayBeLost [] s.fresh := by
  intro x q hq hexpanded
  rw [find?_fresh] at hq
  obtain ⟨r, -, rfl⟩ := Option.map_eq_some_iff.mp hq
  cases hexpanded

theorem Kept.step (h : Kept mayBeLost [] s)
    (hmay : ∀ id, WithdrawsBelow s.ancestorsOf a id → mayBeLost id) (hstep : s.step a = .ok t) :
    Kept mayBeLost [] t.state := by
  cases a with
  | showNodes ids =>
      obtain ⟨-, rfl⟩ := showNodes_eq_ok_iff.mp hstep
      exact h.expandAll
  | hideNodes ids childrenOnly =>
      obtain ⟨-, rfl⟩ := hideNodes_eq_ok_iff.mp hstep
      cases childrenOnly with
      | true => exact (h.mono (List.nil_subset _)).collapse
      | false =>
          apply h.collapse_whole
          exact fun id hid above habove => hmay above ⟨ids, rfl, id, hid, habove⟩
  | toggle id =>
      obtain ⟨r, -, rfl⟩ := toggle_eq_ok_iff.mp hstep
      split
      · exact (h.mono (List.nil_subset _)).collapse
      · exact h.expandAll
  | expandAll =>
      obtain rfl := expandAll_eq_ok_iff.mp hstep
      exact h.expandAll
  | collapseAll =>
      obtain rfl := Except.ok.inj hstep
      exact kept_fresh s

end

/-- In every view that operations lead to, an expanded node is visible, or it is no top node and has
no grant left. An operation loses an expanded node only if it collapses one below it. -/
theorem expanded_of_reached {t : TraceTree} {s : VisibilityState}
    (h : Reached (fun _ _ => True) (initial t) s) :
    (∀ id r, s.find? id = some r → r.expanded → r.visible ∨ r.isReleased) ∧
    ∀ a after id, s.step a = .ok after → IsLost after.state id →
      IsLost s id ∨ WithdrawsBelow t.ancestorIds a id := by
  have hstart : Kept (fun _ => True) [] (initial t) := by simpa using kept_fresh (initial t)
  have hkept : Kept (fun _ => True) [] s :=
    h.induction hstart fun _ _ _ hs _ hstep => hs.step (fun _ _ => trivial) hstep
  have habove : s.ancestorsOf = t.ancestorIds := by
    rw [ancestorsOf_congr h.fresh_eq, ancestorsOf_initial]
  have hreleased (id : Text) (r : VisibilityRecord) (hfind : s.find? id = some r)
      (hexpanded : r.expanded) : r.visible ∨ r.isReleased := by
    rcases hkept id r hfind hexpanded with hvisible | hwaiting | ⟨-, hreleased⟩
    · exact .inl hvisible
    · cases hwaiting
    · exact .inr hreleased
  refine ⟨hreleased, fun a after id hstep hlost => ?_⟩
  have hbefore : Kept (fun id => IsLost s id ∨ WithdrawsBelow t.ancestorIds a id) [] s := by
    intro x r hfind hexpanded
    cases hvisible : r.visible with
    | true => exact .inl rfl
    | false =>
        have hnone := (hreleased x r hfind hexpanded).resolve_left (by simp [hvisible])
        have hlost : IsLost s x := by simp [IsLost, expanded?, visible?, hfind, hexpanded, hvisible]
        exact .inr (.inr ⟨.inl hlost, hnone⟩)
  have hafter := hbefore.step (fun x hx => .inr (habove ▸ hx)) hstep
  obtain ⟨r, hr, hexpanded⟩ := Option.map_eq_some_iff.mp hlost.1
  obtain ⟨r', hr', hhidden⟩ := Option.map_eq_some_iff.mp hlost.2
  obtain rfl := Option.some.inj (hr.symm.trans hr')
  rcases hafter id r hr hexpanded with hvisible | hwaiting | ⟨hmay, -⟩
  · simp [hhidden] at hvisible
  · cases hwaiting
  · exact hmay

/-- In a chain of three the middle node is expanded, and lost when the last one is collapsed. -/
theorem expanded_of_reached_of_chain :
    ∃ (t : TraceTree) (s : VisibilityState) (after : Transition),
      TraceTree.build [
        { traceId := "1", id := "a" },
        { traceId := "1", id := "b", parentId := some "a" },
        { traceId := "1", id := "c", parentId := some "b" }] = .ok t ∧
      Reached (fun _ _ => True) (initial t) s ∧ s.expanded? "b" = some true ∧
      (∀ id r, s.find? id = some r → r.expanded → r.visible ∨ r.isReleased) ∧
      s.step (.hideNodes ["c"] false) = .ok after ∧ IsLost after.state "b" ∧
      WithdrawsBelow t.ancestorIds (.hideNodes ["c"] false) "b" := by
  have hview : (TraceTree.build [
      { traceId := "1", id := "a" },
      { traceId := "1", id := "b", parentId := some "a" },
      { traceId := "1", id := "c", parentId := some "b" }]).toOption.bind (fun t =>
        ((initial t).step (.showNodes ["b"])).toOption.bind fun shown =>
          (shown.state.step (.hideNodes ["c"] false)).toOption.map fun hidden =>
            (shown.state.expanded? "b", shown.state.visible? "b",
              hidden.state.expanded? "b", hidden.state.visible? "b")) =
      some (some true, some true, some true, some false) := by decide +kernel
  obtain ⟨t, ht, hview⟩ := Option.bind_eq_some_iff.mp hview
  obtain ⟨shown, hshow, hview⟩ := Option.bind_eq_some_iff.mp hview
  obtain ⟨hidden, hhide, hview⟩ := Option.map_eq_some_iff.mp hview
  simp only [Prod.mk.injEq] at hview
  obtain ⟨hexpanded, hvisible, hstill, hgone⟩ := hview
  rw [toOption_eq_some_iff] at ht hshow hhide
  have hreached : Reached (fun _ _ => True) (initial t) shown.state := .step .start trivial hshow
  obtain ⟨hkept, hlost⟩ := expanded_of_reached hreached
  have hbefore : ¬ IsLost shown.state "b" := fun h => by simpa [hvisible] using h.2
  have habove := (hlost _ _ "b" hhide ⟨hstill, hgone⟩).resolve_left hbefore
  exact ⟨t, shown.state, hidden, ht, hreached, hexpanded, hkept, hhide, ⟨hstill, hgone⟩, habove⟩

/-- The middle node of a chain is expanded, and collapsing the last one hides it. -/
theorem isLost_of_hide_below :
    ∃ (t : TraceTree) (s : VisibilityState),
      TraceTree.build [
        { traceId := "1", id := "a" },
        { traceId := "1", id := "b", parentId := some "a" },
        { traceId := "1", id := "c", parentId := some "b" }] = .ok t ∧
      Reached (fun _ _ => True) (initial t) s ∧ IsLost s "b" := by
  have hview : (TraceTree.build [
      { traceId := "1", id := "a" },
      { traceId := "1", id := "b", parentId := some "a" },
      { traceId := "1", id := "c", parentId := some "b" }]).toOption.bind (fun t =>
        ((initial t).step (.showNodes ["b"])).toOption.bind fun shown =>
          (shown.state.step (.hideNodes ["c"] false)).toOption.map fun hidden =>
            (hidden.state.expanded? "b", hidden.state.visible? "b")) =
      some (some true, some false) := by decide +kernel
  obtain ⟨t, ht, hview⟩ := Option.bind_eq_some_iff.mp hview
  obtain ⟨shown, hshow, hview⟩ := Option.bind_eq_some_iff.mp hview
  obtain ⟨hidden, hhide, hview⟩ := Option.map_eq_some_iff.mp hview
  rw [toOption_eq_some_iff] at ht hshow hhide
  have hreached : Reached (fun _ _ => True) (initial t) hidden.state :=
    .step (.step .start trivial hshow) trivial hhide
  exact ⟨t, hidden.state, ht, hreached, (Prod.mk.inj hview).1, (Prod.mk.inj hview).2⟩

end TraceExplorer.VisibilityState
