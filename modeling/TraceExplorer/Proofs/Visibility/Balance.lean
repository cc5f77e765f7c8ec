import Mathlib.Data.List.Count
import TraceExplorer.Proofs.Visibility.Collapse
import TraceExplorer.Proofs.Visibility.Expand
import TraceExplorer.Proofs.Visibility.Layout
import TraceExplorer.Proofs.Visibility.Run

/-!
# Showing and hiding in balance

Every expansion is held until the node is hidden again. The grants of a record never exceed those
of the expansions that are held, although a collapse takes back more than was granted on its way
down. Once nothing is held, the view is as it was in the beginning.
-/

namespace TraceExplorer.VisibilityState

/-- The ids that an operation expands, as often as it lists them. -/
def Action.shownIds : Action → List Text
  | .showNodes ids => ids
  | _ => []

def Action.hiddenIds : Action → List Text
  | .hideNodes ids false => ids
  | _ => []

def shownTimes (actions : List Action) (id : Text) : Nat :=
  (actions.flatMap (·.shownIds)).count id

def hiddenTimes (actions : List Action) (id : Text) : Nat :=
  (actions.flatMap (·.hiddenIds)).count id

/-- Known nodes are shown and hidden. At no time was a node hidden more often than it was shown,
and in the end it was hidden as often. -/
structure Balanced (s : VisibilityState) (actions : List Action) : Prop where
  whole : ∀ a ∈ actions, ∃ ids, (∀ id ∈ ids, s.contains id) ∧
    (a = .showNodes ids ∨ a = .hideNodes ids false)
  covered : ∀ done, done <+: actions → ∀ id, hiddenTimes done id ≤ shownTimes done id
  settled : ∀ id, hiddenTimes actions id = shownTimes actions id

/-- The rest of a balanced run, while the expansions of some ids are held. -/
structure Repays (held : List Text) (actions : List Action) : Prop where
  covered : ∀ done, done <+: actions → ∀ id,
    hiddenTimes done id ≤ held.count id + shownTimes done id
  settled : ∀ id, hiddenTimes actions id = held.count id + shownTimes actions id

/-- What a record shows is owed to the expansions that are held. The lists have the ids held, the
ids that may hold a grant from above and from below, once for each grant, and the children that a
collapse has closed but not hidden yet. -/
structure Accounted (held below above closed : List Text) (r : VisibilityRecord) : Prop where
  openParents : r.openParents.value ≤ below.count r.spanId
  openChildren : r.openChildren.value ≤ above.count r.spanId
  expanded : r.expanded → r.spanId ∈ held
  visible : r.visible → r.isRoot ∨ r.spanId ∈ held ∨ 0 < r.openParents.value ∨
    0 < r.openChildren.value ∨ r.spanId ∈ closed
  root : r.isRoot → r.visible

structure Ledger (base : VisibilityState) (held below above closed : List Text)
    (s : VisibilityState) : Prop where
  layout : s.fresh = base
  closed_child : ∀ id ∈ closed, ∃ parent, id ∈ base.childrenOf parent
  records : ∀ {id r}, s.find? id = some r → Accounted held below above closed r

/-- The grants of a view are at most those of the expansions that are held. -/
def Settled (base : VisibilityState) (held closed : List Text) (s : VisibilityState) : Prop :=
  Ledger base held (held.flatMap base.childrenOf) (held.flatMap base.ancestorsOf) closed s

open Transition

section

variable {base s : VisibilityState} {t : Transition} {p : Transition × List Text}
  {r : VisibilityRecord} {id child node : Text}
  {held below below' above above' closed ids children nodes : List Text}

/-! ## One record -/

theorem Accounted.mono (h : Accounted held below above closed r)
    (hbelow : below.count r.spanId ≤ below'.count r.spanId)
    (habove : above.count r.spanId ≤ above'.count r.spanId) :
    Accounted held below' above' closed r :=
  { h with
    openParents := Nat.le_trans h.openParents hbelow
    openChildren := Nat.le_trans h.openChildren habove }

theorem Accounted.shownBy (hlayout : s.fresh = base)
    (h : Accounted held (held.flatMap base.childrenOf) (held.flatMap base.ancestorsOf) [] r) :
    Accounted (ids ++ held) ((ids ++ held).flatMap base.childrenOf)
      ((ids ++ held).flatMap base.ancestorsOf) [] (shownBy s ids r) := by
  have hparents := h.openParents
  have hchildren := h.openChildren
  subst hlayout
  rw [childrenOf_fresh] at hparents ⊢
  rw [ancestorsOf_fresh] at hchildren ⊢
  refine ⟨?_, ?_, ?_, ?_, ?_⟩
  · simp only [Transition.shownBy, granted, List.flatMap_append, List.count_append]
    omega
  · simp only [Transition.shownBy, granted, List.flatMap_append, List.count_append]
    omega
  · simp only [Transition.shownBy, granted, Bool.or_eq_true, List.contains_eq_mem,
      decide_eq_true_eq, List.mem_append]
    exact fun hexpanded => hexpanded.symm.imp_right h.expanded
  · simp only [Transition.shownBy, granted, Bool.or_eq_true, List.contains_eq_mem,
      decide_eq_true_eq, List.mem_append]
    rintro (hvisible | (hid | hid) | hid)
    · rcases h.visible hvisible with hroot | hheld | hgrant | hgrant | hclosed
      · exact .inl hroot
      · exact .inr (.inl (.inr hheld))
      · exact .inr (.inr (.inl (by omega)))
      · exact .inr (.inr (.inr (.inl (by omega))))
      · simp at hclosed
    · exact .inr (.inl (.inl hid))
    · exact .inr (.inr (.inl (Nat.lt_add_left _ (List.count_pos_iff.mpr hid))))
    · exact .inr (.inr (.inr (.inl (Nat.lt_add_left _ (List.count_pos_iff.mpr hid)))))
  · intro hroot
    simp [Transition.shownBy, granted, h.root hroot]

theorem Accounted.lowered (h : Accounted held below (r.spanId :: above) closed r) :
    Accounted held below above closed (lowered r) := by
  have hchildren := h.openChildren
  rw [List.count_cons_self] at hchildren
  have hle : r.openChildren.decrement.value ≤ above.count r.spanId := by
    simp only [RefCount.decrement]
    omega
  unfold Transition.lowered
  dsimp only
  split
  · rename_i hreleased
    simp only [VisibilityRecord.isReleased, Bool.and_eq_true, Bool.not_eq_true'] at hreleased
    refine ⟨h.openParents, hle, h.expanded, fun hvisible => by simp at hvisible, fun hroot => ?_⟩
    exact absurd hroot (by simp [hreleased.1.1])
  · rename_i hreleased
    refine ⟨h.openParents, hle, h.expanded, fun _ => ?_, h.root⟩
    simp only [VisibilityRecord.isReleased, Bool.and_eq_true, Bool.not_eq_true', beq_iff_eq,
      not_and] at hreleased
    simp only [Nat.pos_iff_ne_zero]
    by_cases hroot : r.isRoot
    · exact .inl hroot
    · by_cases hzero : r.openParents.value = 0
      · exact .inr (.inr (.inr (.inl (hreleased ⟨by simpa using hroot, hzero⟩))))
      · exact .inr (.inr (.inl hzero))

theorem Accounted.released (h : Accounted held (r.spanId :: below) above closed r)
    {closed' : List Text} (hclosed : closed ⊆ closed')
    (hlast : r.openParents.value = 1 → r.spanId ∈ closed') :
    Accounted held below above closed' { r with openParents := r.openParents.decrement } := by
  have hparents := h.openParents
  rw [List.count_cons_self] at hparents
  refine ⟨?_, h.openChildren, h.expanded, fun hvisible => ?_, h.root⟩
  · simp only [RefCount.decrement]
    omega
  · simp only [RefCount.decrement]
    rcases h.visible hvisible with hroot | hheld | hgrant | hgrant | hmem
    · exact .inl hroot
    · exact .inr (.inl hheld)
    · by_cases hone : r.openParents.value = 1
      · exact .inr (.inr (.inr (.inr (hlast hone))))
      · exact .inr (.inr (.inl (by omega)))
    · exact .inr (.inr (.inr (.inl hgrant)))
    · exact .inr (.inr (.inr (.inr (hclosed hmem))))

theorem Accounted.leave (h : Accounted held below above closed r) :
    Accounted ids below above closed
      { r with expanded := false, visible := r.isRoot && r.visible } := by
  refine ⟨h.openParents, h.openChildren, fun hexpanded => by simp at hexpanded, ?_, ?_⟩
  · intro hvisible
    exact .inl (by simp_all)
  · intro hroot
    exact Bool.and_eq_true_iff.mpr ⟨hroot, h.root hroot⟩

theorem Accounted.erase (h : Accounted held below above closed r) (hne : r.spanId ≠ id) :
    Accounted (held.erase id) below above closed r := by
  refine { h with expanded := fun hexpanded => ?_, visible := fun hvisible => ?_ }
  · exact (List.mem_erase_of_ne hne).mpr (h.expanded hexpanded)
  · exact (h.visible hvisible).imp_right (.imp_left (List.mem_erase_of_ne hne).mpr)

/-! ## One step -/

theorem Ledger.mono (h : Ledger base held below above closed s)
    (hbelow : ∀ id, below.count id ≤ below'.count id)
    (habove : ∀ id, above.count id ≤ above'.count id) : Ledger base held below' above' closed s :=
  ⟨h.layout, h.closed_child, fun hfind => (h.records hfind).mono (hbelow _) (habove _)⟩

theorem Ledger.releaseAbove (h : Ledger base held below (node :: above) closed t.state) :
    Ledger base held below above closed (t.releaseAbove node).state := by
  refine ⟨fresh_releaseAbove.trans h.layout, h.closed_child, fun {id r} hfind => ?_⟩
  rw [find?_releaseAbove] at hfind
  split at hfind
  · rename_i heq
    obtain ⟨q, hq, rfl⟩ := Option.map_eq_some_iff.mp hfind
    have hid : q.spanId = node := (spanId_of_find? hq).trans heq
    exact (hid ▸ h.records hq).lowered
  · rename_i hne
    have hcount : (node :: above).count r.spanId = above.count r.spanId :=
      List.count_cons_of_ne fun heq => hne (heq ▸ spanId_of_find? hfind).symm
    exact (h.records hfind).mono (Nat.le_refl _) (Nat.le_of_eq hcount)

theorem Ledger.foldl_releaseAbove (h : Ledger base held below (nodes ++ above) closed t.state) :
    Ledger base held below above closed (nodes.foldl Transition.releaseAbove t).state := by
  induction nodes generalizing t with
  | nil => exact h
  | cons node rest ih => exact ih (releaseAbove h)

theorem Ledger.releaseChild (h : Ledger base held (child :: below) above closed t.state)
    (hchild : ∃ parent, child ∈ base.childrenOf parent) :
    Ledger base held below above (t.releaseChild closed child).2
      (t.releaseChild closed child).1.state := by
  refine ⟨fresh_releaseChild.trans h.layout, fun id hid => ?_, fun {id r} hfind => ?_⟩
  · rcases mem_closed_releaseChild.mp hid with hid | ⟨rfl, -⟩
    · exact h.closed_child id hid
    · exact hchild
  · have hsubset : closed ⊆ (t.releaseChild closed child).2 :=
      fun _ hmem => mem_closed_releaseChild.mpr (.inl hmem)
    rw [find?_releaseChild] at hfind
    split at hfind
    · rename_i heq
      subst heq
      obtain ⟨q, hq, rfl⟩ := Option.map_eq_some_iff.mp hfind
      obtain rfl := spanId_of_find? hq
      exact (h.records hq).released hsubset
        fun hone => mem_closed_releaseChild.mpr (.inr ⟨rfl, q, hq, hone⟩)
    · rename_i hne
      have hq := h.records hfind
      have hcount : (child :: below).count r.spanId = below.count r.spanId :=
        List.count_cons_of_ne fun heq => hne (heq ▸ spanId_of_find? hfind).symm
      refine ⟨hcount ▸ hq.openParents, hq.openChildren, hq.expanded, fun hvisible => ?_, hq.root⟩
      exact (hq.visible hvisible).imp_right (.imp_right (.imp_right (.imp_right (hsubset ·))))

theorem Ledger.foldl_releaseChild
    (h : Ledger base held (children ++ below) above p.2 p.1.state)
    (hchildren : ∀ child ∈ children, ∃ parent, child ∈ base.childrenOf parent) :
    Ledger base held below above
      (children.foldl (fun p child => p.1.releaseChild p.2 child) p).2
      (children.foldl (fun p child => p.1.releaseChild p.2 child) p).1.state := by
  induction children generalizing p with
  | nil => exact h
  | cons child rest ih =>
      exact ih (releaseChild h (hchildren child (by simp)))
        fun child hchild => hchildren child (by simp [hchild])

theorem Ledger.collapseOne (h : Ledger base held below above closed t.state) :
    Ledger base held below above (collapseOne true (t, closed) id).2
      (collapseOne true (t, closed) id).1.state := by
  unfold Transition.collapseOne
  dsimp only
  split
  · exact h
  · rename_i r hfind
    rw [childIds_eq h.layout hfind]
    refine foldl_releaseChild (p := (_, closed)) ?_ fun child hchild => ⟨id, hchild⟩
    have hmarked : Ledger base held below above closed
        (t.modify id fun r => { r with expanded := false }).state := by
      refine ⟨(fresh_modify (by exact fun _ => rfl)).trans h.layout, h.closed_child,
        fun {x q} hq => ?_⟩
      rw [modify_state, find?_modify (by exact fun _ => rfl)] at hq
      split at hq
      · obtain ⟨q', hq', rfl⟩ := Option.map_eq_some_iff.mp hq
        exact { h.records hq' with expanded := fun hexpanded => by simp at hexpanded }
      · exact h.records hq
    -- The grants taken back here may not be those of the node, which leaves less than is owed.
    exact hmarked.mono (fun _ => by simp) fun _ => Nat.le_refl _

theorem Ledger.hide (hforest : base.IsForest) (h : Ledger base held below above closed t.state) :
    Ledger base held below above [] (closed.foldl (setVisible false) t).state := by
  refine ⟨fresh_foldl_setVisible.trans h.layout, by simp, fun {id r} hfind => ?_⟩
  rw [find?_foldl_setVisible] at hfind
  split at hfind
  · -- A child is no top node, so it may be hidden.
    rename_i hclosed
    obtain ⟨q, hq, rfl⟩ := Option.map_eq_some_iff.mp hfind
    obtain ⟨parent, hparent⟩ := h.closed_child id hclosed
    have hroot := hforest.not_root h.layout hq hparent
    exact { h.records hq with
      visible := fun hvisible => by simp at hvisible
      root := fun htop => absurd htop (by simp [hroot]) }
  · rename_i hclosed
    have hr := h.records hfind
    refine { hr with visible := fun hvisible => ?_ }
    have hid : r.spanId ∉ closed := spanId_of_find? hfind ▸ hclosed
    simpa [hid] using hr.visible hvisible

theorem Ledger.collapse (hforest : base.IsForest) (h : Ledger base held below above [] t.state) :
    Ledger base held below above [] (t.collapse true ids).state :=
  collapse_rule (P := fun _ closed t => Ledger base held below above closed t.state)
    (fun _ _ _ _ h => h.collapseOne) (fun _ _ h => h.hide hforest) h

/-! ## One operation -/

theorem count_flatMap_erase (f : Text → List Text) (hid : id ∈ held) (x : Text) :
    (held.flatMap f).count x = (f id ++ (held.erase id).flatMap f).count x :=
  ((List.perm_cons_erase hid).flatMap_right f).count_eq x

/-- Hiding a node ends one of its expansions, with all grants of it. -/
theorem Settled.collapseOne (h : Settled base held p.2 p.1.state) (hid : id ∈ held)
    (hknown : base.contains id) :
    Settled base (held.erase id) (collapseOne false p id).2
      (collapseOne false p id).1.state := by
  have hsame : base.contains id = p.1.state.contains id := by
    rw [← h.layout]
    exact contains_congr (fresh_fresh _) id
  obtain ⟨r, hfind⟩ := Option.isSome_iff_exists.mp (hsame.symm.trans hknown)
  -- The grants of the expansion that ends are the first to be taken back.
  have hleft : Ledger base (held.erase id)
      (base.childrenOf id ++ (held.erase id).flatMap base.childrenOf)
      (base.ancestorsOf id ++ (held.erase id).flatMap base.ancestorsOf) p.2
      (if r.isRoot then p.1.modify id fun r => { r with expanded := false }
        else (p.1.modify id fun r => { r with expanded := false }).setVisible false
          r.spanId).state := by
    refine Ledger.mono ⟨(fresh_leave r).trans h.layout, h.closed_child, fun {x q} hq => ?_⟩
      (fun x => Nat.le_of_eq (count_flatMap_erase _ hid x))
      fun x => Nat.le_of_eq (count_flatMap_erase _ hid x)
    rw [find?_leave hfind] at hq
    split at hq
    · obtain ⟨⟩ := hq
      exact (h.records hfind).leave
    · rename_i hne
      exact (h.records hq).erase (spanId_of_find? hq ▸ hne)
  simp only [Transition.collapseOne, hfind, Bool.false_eq_true, ↓reduceIte, withdrawAbove]
  rw [childIds_eq h.layout hfind, ancestorIds_eq h.layout hfind]
  exact Ledger.foldl_releaseChild hleft.foldl_releaseAbove fun child hchild => ⟨id, hchild⟩

theorem Settled.foldl_collapseOne (h : Settled base held p.2 p.1.state)
    (hknown : ∀ id ∈ ids, base.contains id) (hids : ∀ id, ids.count id ≤ held.count id) :
    Settled base (held.diff ids) (ids.foldl (Transition.collapseOne false) p).2
      (ids.foldl (Transition.collapseOne false) p).1.state := by
  induction ids generalizing p held with
  | nil => exact h
  | cons id rest ih =>
      have hid : id ∈ held := List.count_pos_iff.mp (by have := hids id; simp at this; omega)
      rw [List.diff_cons, List.foldl_cons]
      refine ih (h.collapseOne hid (hknown id (by simp)))
        (fun id hmem => hknown id (by simp [hmem])) fun x => ?_
      have hcount := hids x
      rw [List.count_cons] at hcount
      rw [List.count_erase]
      omega

theorem Settled.hideNodes (hforest : base.IsForest) (h : Settled base held [] s)
    (hknown : ∀ id ∈ ids, base.contains id) (hids : ∀ id, ids.count id ≤ held.count id) :
    Settled base (held.diff ids) [] (Transition.collapse false ⟨s, []⟩ ids).state := by
  rw [collapse_eq]
  exact ((foldl_collapseOne (p := (⟨s, []⟩, [])) h hknown hids).hide hforest).collapse hforest

theorem Settled.showNodes (h : Settled base held [] s) :
    Settled base (ids ++ held) [] (Transition.expandAll ⟨s, []⟩ ids).state := by
  refine ⟨(fresh_expandAll _ _).trans h.layout, by simp, fun {x r} hfind => ?_⟩
  rw [find?_expandAll] at hfind
  obtain ⟨q, hq, rfl⟩ := Option.map_eq_some_iff.mp hfind
  exact (h.records hq).shownBy h.layout

/-- A view of which nothing is held was never touched. -/
theorem Settled.eq_base (hforest : base.IsForest) (hbase : base.fresh = base)
    (h : Settled base [] [] s) : s = base := by
  have hfresh : base.fresh = s.fresh := hbase.trans h.layout.symm
  refine (ext_find? hfresh hforest.nodup fun x => ?_).symm
  rw [← hbase, hfresh, find?_fresh]
  cases hfind : s.find? x with
  | none => rfl
  | some r =>
      have hr := h.records hfind
      have hparents := hr.openParents
      have hchildren := hr.openChildren
      have hexpanded := hr.expanded
      have hvisible : r.visible = r.isRoot := by
        refine Bool.eq_iff_iff.mpr ⟨fun hvisible => ?_, hr.root⟩
        rcases hr.visible hvisible with hroot | hheld | hgrant | hgrant | hclosed
        · exact hroot
        · simp at hheld
        · exact absurd hgrant (Nat.not_lt.mpr hparents)
        · exact absurd hgrant (Nat.not_lt.mpr hchildren)
        · simp at hclosed
      obtain ⟨spanId, isRoot, childIds, ancestorIds, expanded, visible, ⟨parents⟩, ⟨children⟩⟩ := r
      simp_all [VisibilityRecord.fresh]

theorem settled_fresh (s : VisibilityState) : Settled s.fresh [] [] s.fresh := by
  refine ⟨fresh_fresh s, by simp, fun {x r} hfind => ?_⟩
  rw [find?_fresh] at hfind
  obtain ⟨q, hq, rfl⟩ := Option.map_eq_some_iff.mp hfind
  exact ⟨Nat.zero_le _, Nat.zero_le _, fun h => by simp [VisibilityRecord.fresh] at h, .inl, id⟩

/-! ## A run -/

variable {a : Action} {actions : List Action}

@[simp] theorem shownTimes_cons :
    shownTimes (a :: actions) id = a.shownIds.count id + shownTimes actions id := by
  simp [shownTimes]

@[simp] theorem hiddenTimes_cons :
    hiddenTimes (a :: actions) id = a.hiddenIds.count id + hiddenTimes actions id := by
  simp [hiddenTimes]

theorem Repays.held_eq_nil (h : Repays held []) : held = [] := by
  refine List.eq_nil_iff_forall_not_mem.mpr fun id hid => ?_
  have hcount := h.settled id
  have hpos := List.count_pos_iff.mpr hid
  simp only [hiddenTimes, shownTimes, List.flatMap_nil, List.count_nil] at hcount
  omega

theorem Repays.showNodes (h : Repays held (.showNodes ids :: actions)) :
    Repays (ids ++ held) actions := by
  constructor
  · intro done hdone id
    have hcount := h.covered (.showNodes ids :: done) (List.cons_prefix_cons.mpr ⟨rfl, hdone⟩) id
    simp only [hiddenTimes_cons, shownTimes_cons, Action.shownIds, Action.hiddenIds,
      List.count_nil, List.count_append] at hcount ⊢
    omega
  · intro id
    have hcount := h.settled id
    simp only [hiddenTimes_cons, shownTimes_cons, Action.shownIds, Action.hiddenIds,
      List.count_nil, List.count_append] at hcount ⊢
    omega

/-- Already the first call hides nothing more often than it is held. -/
theorem Repays.count_le (h : Repays held (.hideNodes ids false :: actions)) (id : Text) :
    ids.count id ≤ held.count id := by
  have hcount := h.covered [.hideNodes ids false] (List.cons_prefix_cons.mpr
    ⟨rfl, List.nil_prefix⟩) id
  simpa [hiddenTimes, shownTimes, Action.shownIds, Action.hiddenIds] using hcount

theorem Repays.hideNodes (h : Repays held (.hideNodes ids false :: actions)) :
    Repays (held.diff ids) actions := by
  constructor
  · intro done hdone id
    have hcount := h.covered (.hideNodes ids false :: done)
      (List.cons_prefix_cons.mpr ⟨rfl, hdone⟩) id
    have hle := h.count_le id
    simp only [hiddenTimes_cons, shownTimes_cons, Action.shownIds, Action.hiddenIds,
      List.count_nil, List.count_diff] at hcount ⊢
    omega
  · intro id
    have hcount := h.settled id
    have hle := h.count_le id
    simp only [hiddenTimes_cons, shownTimes_cons, Action.shownIds, Action.hiddenIds,
      List.count_nil, List.count_diff] at hcount ⊢
    omega

/-- A run whose calls never hide what is not held, and hide all that is, leads to the first view. -/
theorem Settled.run (hforest : base.IsForest) (hbase : base.fresh = base)
    (h : Settled base held [] s)
    (hwhole : ∀ a ∈ actions, ∃ ids, (∀ id ∈ ids, base.contains id) ∧
      (a = .showNodes ids ∨ a = .hideNodes ids false))
    (hrepays : Repays held actions) : run s actions = .ok base := by
  induction actions generalizing held s with
  | nil =>
      obtain rfl := hrepays.held_eq_nil
      exact congrArg Except.ok (h.eq_base hforest hbase)
  | cons a rest ih =>
      obtain ⟨ids, hknown, ha⟩ := hwhole a (by simp)
      have hrest := fun b hb => hwhole b (List.mem_cons_of_mem a hb)
      have hids : ∀ id ∈ ids, s.contains id := by
        intro id hid
        have hsame : base.contains id = s.contains id := by
          rw [← h.layout]
          exact contains_congr (fresh_fresh _) id
        exact hsame ▸ hknown id hid
      rcases ha with rfl | rfl
      · have hstep : s.step (.showNodes ids) = .ok (Transition.expandAll ⟨s, []⟩ ids) :=
          showNodes_eq_ok_iff.mpr ⟨hids, rfl⟩
        simp only [VisibilityState.run, hstep]
        exact ih h.showNodes hrest hrepays.showNodes
      · have hstep : s.step (.hideNodes ids false) = .ok (Transition.collapse false ⟨s, []⟩ ids) :=
          hideNodes_eq_ok_iff.mpr ⟨hids, rfl⟩
        simp only [VisibilityState.run, hstep]
        exact ih (h.hideNodes hforest hknown hrepays.count_le) hrest hrepays.hideNodes

end

/-- A balanced run leads back to the first view. -/
theorem run_balanced {spans : List Span} {t : TraceTree} {actions : List Action}
    (ht : TraceTree.build spans = .ok t) (h : Balanced (initial t) actions) :
    run (initial t) actions = .ok (initial t) := by
  have hforest := (TraceTree.Built.of_build ht).isForest_initial
  have hstart := settled_fresh (initial t)
  rw [fresh_initial] at hstart
  have hrepays : Repays [] actions :=
    ⟨by simpa using h.covered, by simpa using h.settled⟩
  exact hstart.run hforest (fresh_initial t) h.whole hrepays

/-- A chain of three, of which the middle is hidden together with the top while it is still held
twice. -/
theorem run_balanced_of_chain :
    ∃ t : TraceTree,
      TraceTree.build [
        { traceId := "1", id := "a" },
        { traceId := "1", id := "b", parentId := some "a" },
        { traceId := "1", id := "c", parentId := some "b" }] = .ok t ∧
      Balanced (initial t) [.showNodes ["b"], .showNodes ["a", "b"], .hideNodes ["a"] false,
        .hideNodes ["b", "b"] false] ∧
      run (initial t) [.showNodes ["b"], .showNodes ["a", "b"], .hideNodes ["a"] false,
        .hideNodes ["b", "b"] false] = .ok (initial t) := by
  have hnamed : ∀ s ∈ ([
      { traceId := "1", id := "a" },
      { traceId := "1", id := "b", parentId := some "a" },
      { traceId := "1", id := "c", parentId := some "b" }] : List Span),
      s.parentId ≠ some Text.empty := by decide
  obtain ⟨t, ht⟩ := TraceTree.exists_build hnamed
  have hknown : ∀ id ∈ ["a", "b"], (initial t).contains id := by
    intro id hid
    rw [contains_initial, (TraceTree.Built.of_build ht).mem_ids]
    revert id
    decide
  have hbalanced : Balanced (initial t) [.showNodes ["b"], .showNodes ["a", "b"],
      .hideNodes ["a"] false, .hideNodes ["b", "b"] false] := by
    refine ⟨?_, ?_, ?_⟩
    · simp at hknown ⊢
      simp [hknown]
    · intro done hdone id
      simp only [List.prefix_cons_iff, List.prefix_nil] at hdone
      obtain rfl | ⟨_, rfl, rfl | ⟨_, rfl, rfl | ⟨_, rfl, rfl | ⟨_, rfl, rfl⟩⟩⟩⟩ := hdone <;>
        simp [hiddenTimes, shownTimes, Action.shownIds, Action.hiddenIds, List.count_cons] <;>
        omega
    · intro id
      simp [hiddenTimes, shownTimes, Action.shownIds, Action.hiddenIds, List.count_cons]
      omega
  exact ⟨t, ht, hbalanced, run_balanced ht hbalanced⟩

end TraceExplorer.VisibilityState
