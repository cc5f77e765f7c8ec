import Mathlib.Data.List.Nodup
import TraceExplorer.Visibility.State

/-!
# The records of a view by id

What an operation does is said by what it does to the record of each id. No operation changes the
layout: which nodes there are, in which order, and what is below and above each of them.
-/

namespace TraceExplorer

def VisibilityRecord.fresh (r : VisibilityRecord) : VisibilityRecord where
  spanId := r.spanId
  isRoot := r.isRoot
  childIds := r.childIds
  ancestorIds := r.ancestorIds
  visible := r.isRoot

namespace VisibilityState

/-- The layout of a view: the same nodes in a view that was never touched. -/
def fresh (s : VisibilityState) : VisibilityState := ⟨s.records.map (·.fresh)⟩

def childrenOf (s : VisibilityState) (id : Text) : List Text :=
  ((s.find? id).map (·.childIds)).getD []

def ancestorsOf (s : VisibilityState) (id : Text) : List Text :=
  ((s.find? id).map (·.ancestorIds)).getD []

def visible? (s : VisibilityState) (id : Text) : Option Bool := (s.find? id).map (·.visible)

def expanded? (s : VisibilityState) (id : Text) : Option Bool := (s.find? id).map (·.expanded)

section

variable {s s' : VisibilityState} {id x : Text} {r : VisibilityRecord}
  {f : VisibilityRecord → VisibilityRecord}

/-! ## Looking up -/

theorem spanId_of_find? (h : s.find? x = some r) : r.spanId = x := by
  simpa using List.find?_some h

theorem mem_of_find? (h : s.find? x = some r) : r ∈ s.records := List.mem_of_find?_eq_some h

theorem find?_of_mem (hnodup : (s.records.map (·.spanId)).Nodup) (hr : r ∈ s.records) :
    s.find? r.spanId = some r := by
  cases h : s.find? r.spanId with
  | none => simpa using List.find?_eq_none.mp h r hr
  | some q =>
      exact congrArg some (List.inj_on_of_nodup_map hnodup (mem_of_find? h) hr (spanId_of_find? h))

/-- Two functions agree on the record of an id if they do on all records of that id. -/
theorem map_find?_congr {β : Type} {g g' : VisibilityRecord → β}
    (h : ∀ r, r.spanId = x → g r = g' r) : (s.find? x).map g = (s.find? x).map g' := by
  cases hfind : s.find? x with
  | none => rfl
  | some r => exact congrArg some (h r (spanId_of_find? hfind))

theorem find?_map (hf : ∀ r, (f r).spanId = r.spanId) :
    find? ⟨s.records.map f⟩ x = (s.find? x).map f := by
  simp only [find?, List.find?_map]
  congr 1
  exact congrArg (List.find? · s.records) (funext fun r => by simp [hf])

theorem find?_modify (hf : ∀ r, (f r).fresh = r.fresh) :
    (s.modify id f).find? x = if x = id then (s.find? x).map f else s.find? x := by
  have hstep : ∀ r, (if r.spanId = id then f r else r).spanId = r.spanId := by
    intro r
    split
    · exact congrArg (·.spanId) (hf r)
    · rfl
  rw [modify, find?_map hstep]
  cases h : s.find? x with
  | none => simp
  | some r =>
      obtain rfl := spanId_of_find? h
      simp only [Option.map_some]
      split <;> rfl

/-! ## Layout -/

@[simp] theorem find?_fresh : s.fresh.find? x = (s.find? x).map (·.fresh) := find?_map fun _ => rfl

@[simp] theorem fresh_fresh (s : VisibilityState) : s.fresh.fresh = s.fresh := by
  simp [fresh, Function.comp_def, VisibilityRecord.fresh]

@[simp] theorem fresh_modify (hf : ∀ r, (f r).fresh = r.fresh) :
    (s.modify id f).fresh = s.fresh := by
  simp only [fresh, modify, List.map_map]
  congr 1
  apply List.map_congr_left
  intro r _
  simp only [Function.comp_apply]
  split
  · exact hf r
  · rfl

theorem childrenOf_fresh (s : VisibilityState) : s.fresh.childrenOf = s.childrenOf := by
  funext id
  simp only [childrenOf, find?_fresh, Option.map_map]
  rfl

theorem ancestorsOf_fresh (s : VisibilityState) : s.fresh.ancestorsOf = s.ancestorsOf := by
  funext id
  simp only [ancestorsOf, find?_fresh, Option.map_map]
  rfl

theorem childIds_eq (hlayout : s.fresh = s') (hfind : s.find? id = some r) :
    r.childIds = s'.childrenOf id := by
  rw [← hlayout, childrenOf_fresh, childrenOf, hfind]
  rfl

theorem ancestorIds_eq (hlayout : s.fresh = s') (hfind : s.find? id = some r) :
    r.ancestorIds = s'.ancestorsOf id := by
  rw [← hlayout, ancestorsOf_fresh, ancestorsOf, hfind]
  rfl

theorem childrenOf_congr (h : s.fresh = s'.fresh) : s.childrenOf = s'.childrenOf := by
  rw [← childrenOf_fresh, h, childrenOf_fresh]

theorem ancestorsOf_congr (h : s.fresh = s'.fresh) : s.ancestorsOf = s'.ancestorsOf := by
  rw [← ancestorsOf_fresh, h, ancestorsOf_fresh]

theorem ids_congr (h : s.fresh = s'.fresh) :
    s.records.map (·.spanId) = s'.records.map (·.spanId) := by
  have hids := congrArg (fun s : VisibilityState => s.records.map (·.spanId)) h
  simpa [fresh, Function.comp_def, VisibilityRecord.fresh] using hids

theorem contains_congr (h : s.fresh = s'.fresh) (id : Text) : s.contains id = s'.contains id := by
  have hid := congrArg (fun s => (find? s id).isSome) h
  simpa [contains] using hid

/-- A view of known layout is known by its records. -/
theorem ext_find? (hfresh : s.fresh = s'.fresh) (hnodup : (s.records.map (·.spanId)).Nodup)
    (h : ∀ x, s.find? x = s'.find? x) : s = s' := by
  have hids := ids_congr hfresh
  have hnodup' : (s'.records.map (·.spanId)).Nodup := hids ▸ hnodup
  have hlen : s.records.length = s'.records.length := by simpa using congrArg List.length hids
  obtain ⟨records⟩ := s
  obtain ⟨records'⟩ := s'
  refine congrArg mk (List.ext_getElem hlen fun n hn hn' => ?_)
  have hid : records[n].spanId = records'[n].spanId := by
    simpa [hn, hn'] using congrArg (fun ids => ids[n]?) hids
  have hfind := h records[n].spanId
  rw [find?_of_mem hnodup (List.getElem_mem hn), hid,
    find?_of_mem hnodup' (List.getElem_mem hn')] at hfind
  exact Option.some.inj hfind

theorem collapseAll_state (s : VisibilityState) : s.collapseAll.state = s.fresh := rfl

end

end VisibilityState

namespace Transition

open VisibilityState

section

variable {t : Transition} {x id : Text} {ids : List Text} {visible : Bool}

@[simp] theorem modify_state (t : Transition) (id : Text)
    (f : VisibilityRecord → VisibilityRecord) : (t.modify id f).state = t.state.modify id f := rfl

/-! ## Setting whether a node is visible -/

theorem find?_setVisible :
    (t.setVisible visible id).state.find? x =
      if x = id then (t.state.find? x).map fun r => { r with visible }
      else t.state.find? x := by
  unfold setVisible
  split
  · rename_i hnone
    split
    · rename_i heq
      simp [heq, hnone]
    · rfl
  · rename_i r hsome
    split
    · rename_i hvisible
      split
      · rename_i heq
        subst heq hvisible
        simp [hsome]
      · rfl
    · exact find?_modify (by exact fun _ => rfl)

@[simp] theorem fresh_setVisible : (t.setVisible visible id).state.fresh = t.state.fresh := by
  unfold setVisible
  split
  · rfl
  · split
    · rfl
    · exact fresh_modify fun _ => rfl

theorem mem_changed_setVisible :
    x ∈ (t.setVisible visible id).changed ↔
      x ∈ t.changed ∨ x = id ∧ t.state.visible? id = some (!visible) := by
  unfold setVisible visible?
  split
  · rename_i hnone
    simp [hnone]
  · rename_i r hsome
    split
    · rename_i hvisible
      simp [hsome, hvisible]
    · rename_i hvisible
      have hnot : r.visible = !visible := Bool.eq_not.mpr hvisible
      by_cases hmem : id ∈ t.changed
      · simp only [List.contains_eq_mem, hmem, decide_true, ↓reduceIte]
        exact ⟨Or.inl, fun h => h.elim (fun h => h) fun h => h.1 ▸ hmem⟩
      · simp [hmem, hsome, hnot]

/-! ## One change for each id of a list -/

theorem fresh_foldl {step : Transition → Text → Transition}
    (hstep : ∀ t id, (step t id).state.fresh = t.state.fresh) :
    (ids.foldl step t).state.fresh = t.state.fresh := by
  induction ids generalizing t with
  | nil => rfl
  | cons id rest ih => rw [List.foldl_cons, ih, hstep]

/-- A step that changes one record changes it as often as its id is listed. -/
theorem find?_foldl {step : Transition → Text → Transition}
    {f : VisibilityRecord → VisibilityRecord} (times : Nat → VisibilityRecord → VisibilityRecord)
    (hstep : ∀ t id x, (step t id).state.find? x =
      if x = id then (t.state.find? x).map f else t.state.find? x)
    (hzero : ∀ r, times 0 r = r) (hsucc : ∀ n r, times n (f r) = times (n + 1) r) :
    (ids.foldl step t).state.find? x = (t.state.find? x).map (times (ids.count x)) := by
  induction ids generalizing t with
  | nil => simp [funext hzero]
  | cons id rest ih =>
      rw [List.foldl_cons, ih, hstep, List.count_cons]
      by_cases hid : x = id
      · subst hid
        rw [if_pos rfl, Option.map_map, beq_self_eq_true, if_pos rfl]
        exact congrArg (Option.map · _) (funext fun r => hsucc _ r)
      · have hne : (id == x) = false := beq_eq_false_iff_ne.mpr (Ne.symm hid)
        simp [hid, hne]

/-- A step that changes one record for good changes it if its id is listed. -/
theorem find?_foldl_of_idem {step : Transition → Text → Transition}
    {f : VisibilityRecord → VisibilityRecord}
    (hstep : ∀ t id x, (step t id).state.find? x =
      if x = id then (t.state.find? x).map f else t.state.find? x)
    (hidem : ∀ r, f (f r) = f r) :
    (ids.foldl step t).state.find? x =
      if x ∈ ids then (t.state.find? x).map f else t.state.find? x := by
  have htimes : ∀ n r, (if n = 0 then f r else f (f r)) = f r := by
    intro n r
    split
    · rfl
    · exact hidem r
  rw [find?_foldl (fun n r => if n = 0 then r else f r) hstep (fun _ => rfl) htimes]
  by_cases hmem : x ∈ ids
  · have hcount : ids.count x ≠ 0 := fun hzero => List.count_eq_zero.mp hzero hmem
    simp [hmem, hcount]
  · simp [hmem, List.count_eq_zero_of_not_mem hmem]

theorem find?_foldl_setVisible :
    (ids.foldl (setVisible visible) t).state.find? x =
      if x ∈ ids then (t.state.find? x).map fun r => { r with visible }
      else t.state.find? x :=
  find?_foldl_of_idem (fun _ _ _ => find?_setVisible) fun _ => rfl

theorem fresh_foldl_setVisible :
    (ids.foldl (setVisible visible) t).state.fresh = t.state.fresh :=
  fresh_foldl fun _ _ => fresh_setVisible

end

end Transition

end TraceExplorer
