import TraceExplorer.Visibility.State

/-!
# Runs of a viewer

An operation succeeds if it names known ids only. A run is a list of operations that are carried
out one after the other; a view is reached if such a run leads to it.
-/

namespace TraceExplorer.VisibilityState

def run (s : VisibilityState) : List Action → Except TraceError VisibilityState
  | [] => .ok s
  | a :: rest => do
      let t ← s.step a
      run t.state rest

/-- The views to which operations lead, each of them allowed in the view in which it is carried
out. -/
inductive Reached (allowed : VisibilityState → Action → Prop) (start : VisibilityState) :
    VisibilityState → Prop
  | start : Reached allowed start start
  | step {s : VisibilityState} {a : Action} {t : Transition} (before : Reached allowed start s)
      (ok : allowed s a) (done : s.step a = .ok t) : Reached allowed start t.state

section

variable {s : VisibilityState} {a : Action} {t : Transition} {ids : List Text} {id : Text}
  {childrenOnly : Bool}

theorem Reached.induction {allowed : VisibilityState → Action → Prop} {start : VisibilityState}
    {P : VisibilityState → Prop} (h : Reached allowed start s) (hstart : P start)
    (hstep : ∀ s a t, P s → allowed s a → s.step a = .ok t → P t.state) : P s := by
  induction h with
  | start => exact hstart
  | step _ ok done ih => exact hstep _ _ _ ih ok done

theorem checkKnown_eq_ok_iff : s.checkKnown ids = .ok () ↔ ∀ id ∈ ids, s.contains id := by
  unfold checkKnown
  split
  · rename_i id hfind
    have hunknown : ¬ s.contains id := by simpa using List.find?_some hfind
    exact ⟨fun h => by simp at h, fun h => absurd (h id (List.mem_of_find?_eq_some hfind)) hunknown⟩
  · rename_i hfind
    simpa using hfind

theorem showNodes_eq_ok_iff :
    s.showNodes ids = .ok t ↔
      (∀ id ∈ ids, s.contains id) ∧ t = Transition.expandAll ⟨s, []⟩ ids := by
  rw [← checkKnown_eq_ok_iff, showNodes]
  cases s.checkKnown ids with
  | error e => simp [bind, Except.bind]
  | ok _ => simp [bind, Except.bind, pure, Except.pure, eq_comm]

theorem hideNodes_eq_ok_iff :
    s.hideNodes ids childrenOnly = .ok t ↔
      (∀ id ∈ ids, s.contains id) ∧ t = Transition.collapse childrenOnly ⟨s, []⟩ ids := by
  rw [← checkKnown_eq_ok_iff, hideNodes]
  cases s.checkKnown ids with
  | error e => simp [bind, Except.bind]
  | ok _ => simp [bind, Except.bind, pure, Except.pure, eq_comm]

theorem toggle_eq_ok_iff :
    s.toggle id = .ok t ↔
      ∃ r, s.find? id = some r ∧
        t = if r.expanded then Transition.collapse true ⟨s, []⟩ [id]
          else Transition.expandAll ⟨s, []⟩ [id] := by
  unfold toggle record
  cases hfind : s.find? id with
  | none => simp [bind, Except.bind]
  | some r =>
      have hknown : s.contains id := by simp [contains, hfind]
      simp only [bind, Except.bind, Option.some.injEq, exists_eq_left']
      split <;> simp [hideNodes_eq_ok_iff, showNodes_eq_ok_iff, hknown]

theorem expandAll_eq_ok_iff :
    s.expandAll = .ok t ↔
      t = Transition.expandAll ⟨s, []⟩ (s.records.map (·.spanId)) := by
  rw [expandAll, showNodes_eq_ok_iff]
  refine and_iff_right fun id hid => ?_
  simpa [contains, find?] using hid

end

end TraceExplorer.VisibilityState
