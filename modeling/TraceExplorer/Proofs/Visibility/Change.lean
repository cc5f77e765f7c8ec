import TraceExplorer.Proofs.Visibility.Collapse
import TraceExplorer.Proofs.Visibility.Expand
import TraceExplorer.Proofs.Visibility.Run

/-!
# What an operation reports

Showing nodes makes no node invisible, and hiding nodes makes none visible. So an operation can
note each node when it is first changed, and has noted in the end exactly those that look
different.
-/

namespace TraceExplorer.Transition

open VisibilityState

/-- The changes noted on the way from a view are those nodes that now are as wanted and were not
so before. Nothing that was as wanted is undone. -/
structure Noted (visible : Bool) (s : VisibilityState) (t : Transition) : Prop where
  layout : t.state.fresh = s.fresh
  mem : ∀ {x}, x ∈ t.changed ↔
    s.visible? x = some (!visible) ∧ t.state.visible? x = some visible
  keep : ∀ {x}, s.visible? x = some visible → t.state.visible? x = some visible

section

variable {s : VisibilityState} {t t' : Transition} {p : Transition × List Text} {id x : Text}
  {ids closed : List Text} {visible childrenOnly : Bool}

theorem Noted.refl (visible : Bool) (s : VisibilityState) : Noted visible s ⟨s, []⟩ := by
  refine ⟨rfl, fun {x} => ⟨fun h => by simp at h, fun h => ?_⟩, fun h => h⟩
  exact absurd (h.1.symm.trans h.2) (by simp)

theorem visible?_setVisible :
    (t.setVisible visible id).state.visible? x =
      if x = id then (t.state.visible? x).map fun _ => visible else t.state.visible? x := by
  rw [visible?, find?_setVisible, visible?]
  split
  · rw [Option.map_map, Option.map_map]
    rfl
  · rfl

theorem Noted.visible?_isSome (h : Noted visible s t) (x : Text) :
    (t.state.visible? x).isSome = (s.visible? x).isSome := by
  simpa [contains, visible?] using contains_congr h.layout x

theorem Noted.setVisible (h : Noted visible s t) : Noted visible s (t.setVisible visible id) := by
  refine ⟨fresh_setVisible.trans h.layout, fun {x} => ?_, fun {x} hx => ?_⟩
  · rw [mem_changed_setVisible, h.mem, visible?_setVisible]
    by_cases hx : x = id
    · subst hx
      have hknown := h.visible?_isSome x
      have hkeep := h.keep (x := x)
      cases ht : t.state.visible? x with
      | none => simp
      | some now =>
          cases hs : s.visible? x with
          | none => simp [ht, hs] at hknown
          | some before =>
              -- A node that is not as wanted yet was not so before.
              rw [ht, hs] at hkeep
              cases now <;> cases before <;> cases visible <;> simp_all
    · simp [hx]
  · rw [visible?_setVisible, h.keep hx]
    split <;> rfl

/-- A step that leaves the view of each node alone notes nothing. -/
theorem Noted.congr (h : Noted visible s t) (hfresh : t'.state.fresh = t.state.fresh)
    (hchanged : t'.changed = t.changed)
    (hvisible : ∀ x, t'.state.visible? x = t.state.visible? x) : Noted visible s t' := by
  refine ⟨hfresh.trans h.layout, fun {x} => ?_, fun {x} hx => ?_⟩
  · rw [hchanged, hvisible]
    exact h.mem
  · rw [hvisible]
    exact h.keep hx

theorem Noted.foldl {step : Transition → Text → Transition}
    (hstep : ∀ t id, Noted visible s t → Noted visible s (step t id)) (h : Noted visible s t) :
    Noted visible s (ids.foldl step t) :=
  List.foldlRecOn ids step h fun t ht id _ => hstep t id ht

theorem Noted.mem_iff (h : Noted visible s t) :
    x ∈ t.changed ↔ s.visible? x ≠ t.state.visible? x := by
  have hknown := h.visible?_isSome x
  have hkeep := h.keep (x := x)
  rw [h.mem]
  cases ht : t.state.visible? x <;> cases hs : s.visible? x <;> simp_all
  rename_i now before
  cases now <;> cases before <;> cases visible <;> simp_all

/-! ## Showing -/

theorem visible?_modify {f : VisibilityRecord → VisibilityRecord}
    (hf : ∀ r, (f r).fresh = r.fresh) (hvisible : ∀ r, (f r).visible = r.visible) :
    (t.modify id f).state.visible? x = t.state.visible? x := by
  rw [visible?, modify_state, find?_modify hf, visible?]
  split
  · rw [Option.map_map]
    exact congrArg (Option.map · _) (funext hvisible)
  · rfl

theorem Noted.modify {f : VisibilityRecord → VisibilityRecord} (h : Noted visible s t)
    (hf : ∀ r, (f r).fresh = r.fresh) (hvisible : ∀ r, (f r).visible = r.visible) :
    Noted visible s (t.modify id f) :=
  h.congr (fresh_modify hf) rfl fun _ => visible?_modify hf hvisible

theorem Noted.expand (h : Noted true s t) : Noted true s (t.expand id) :=
  (h.modify (by exact fun _ => rfl) (by exact fun _ => rfl)).setVisible

theorem Noted.grant (h : Noted visible s t) : Noted visible s (t.grant id) := by
  unfold Transition.grant
  split
  · exact h
  · refine .foldl (fun _ _ h => h.modify (by exact fun _ => rfl) (by exact fun _ => rfl)) ?_
    exact .foldl (fun _ _ h => h.modify (by exact fun _ => rfl) (by exact fun _ => rfl)) h

theorem Noted.expandAll (h : Noted true s t) : Noted true s (t.expandAll ids) :=
  .foldl (fun _ _ h => h.setVisible) <| .foldl (fun _ _ h => h.grant) <|
    .foldl (fun _ _ h => h.expand) h

/-! ## Hiding -/

theorem Noted.releaseAbove (h : Noted false s t) : Noted false s (t.releaseAbove id) := by
  have hlowered : Noted false s
      (t.modify id fun a => { a with openChildren := a.openChildren.decrement }) :=
    h.modify (by exact fun _ => rfl) (by exact fun _ => rfl)
  unfold Transition.releaseAbove
  dsimp only
  split
  · exact hlowered
  · split
    · exact hlowered.setVisible
    · exact hlowered

theorem Noted.releaseChild (h : Noted visible s t) :
    Noted visible s (t.releaseChild closed id).1 := by
  unfold Transition.releaseChild
  split
  · exact h
  · dsimp only
    split <;> exact h.modify (by exact fun _ => rfl) (by exact fun _ => rfl)

theorem Noted.foldl_releaseChild (h : Noted visible s p.1) :
    Noted visible s (ids.foldl (fun p child => p.1.releaseChild p.2 child) p).1 := by
  apply List.foldlRecOn (motive := fun q : Transition × List Text => Noted visible s q.1) _ _ h
  intro q hq child _
  exact hq.releaseChild

theorem Noted.collapseOne (h : Noted false s p.1) :
    Noted false s (collapseOne childrenOnly p id).1 := by
  unfold Transition.collapseOne
  split
  · exact h
  · rename_i r _
    have hmarked : Noted false s (p.1.modify id fun r => { r with expanded := false }) :=
      h.modify (by exact fun _ => rfl) (by exact fun _ => rfl)
    refine foldl_releaseChild ?_
    dsimp only
    split
    · exact hmarked
    · refine .foldl (fun _ _ h => h.releaseAbove) ?_
      split
      · exact hmarked
      · exact hmarked.setVisible

theorem Noted.foldl_collapseOne (h : Noted false s p.1) :
    Noted false s (ids.foldl (Transition.collapseOne childrenOnly) p).1 := by
  apply List.foldlRecOn (motive := fun q : Transition × List Text => Noted false s q.1) _ _ h
  intro q hq id _
  exact hq.collapseOne

theorem Noted.collapse (h : Noted false s t) : Noted false s (t.collapse childrenOnly ids) := by
  rw [collapse_eq]
  refine collapse_rule (P := fun _ _ t => Noted false s t) (fun _ _ _ _ h => h.collapseOne)
    (fun _ _ h => .foldl (fun _ _ h => h.setVisible) h) ?_
  exact .foldl (fun _ _ h => h.setVisible) (foldl_collapseOne (p := (t, [])) h)

end

end TraceExplorer.Transition

namespace TraceExplorer.VisibilityState

open Transition

section

variable {s : VisibilityState} {t : Transition} {a : Action}

/-! ## Layout -/

theorem fresh_of_step (hstep : s.step a = .ok t) : t.state.fresh = s.fresh := by
  cases a with
  | showNodes ids =>
      obtain ⟨-, rfl⟩ := showNodes_eq_ok_iff.mp hstep
      exact fresh_expandAll _ _
  | hideNodes ids childrenOnly =>
      obtain ⟨-, rfl⟩ := hideNodes_eq_ok_iff.mp hstep
      exact (Noted.refl false s).collapse.layout
  | toggle id =>
      obtain ⟨r, -, rfl⟩ := toggle_eq_ok_iff.mp hstep
      split
      · exact (Noted.refl false s).collapse.layout
      · exact fresh_expandAll _ _
  | expandAll =>
      obtain rfl := expandAll_eq_ok_iff.mp hstep
      exact fresh_expandAll _ _
  | collapseAll =>
      obtain rfl := Except.ok.inj hstep
      exact fresh_fresh s

theorem Reached.fresh_eq {allowed : VisibilityState → Action → Prop} {start : VisibilityState}
    (h : Reached allowed start s) : s.fresh = start.fresh :=
  h.induction (P := fun s => s.fresh = start.fresh) rfl
    fun _ _ _ hs _ hstep => (fresh_of_step hstep).trans hs

end

end TraceExplorer.VisibilityState
