import Mathlib.Algebra.BigOperators.Group.List.Lemmas
import Mathlib.Algebra.Ring.Nat
import TraceExplorer.Proofs.Success
import TraceExplorer.Proofs.Tree.Forest
import TraceExplorer.Proofs.Visibility.Report

/-!
# How often nodes were shown

As long as nothing is hidden, a view is told by how often each node was shown. It makes no
difference in which order nodes were shown, and which of them together.
-/

namespace TraceExplorer.VisibilityState

open Transition

/-- The view that an operation leaves behind, which may have failed. -/
def after (s : VisibilityState) (a : Action) : VisibilityState :=
  match (Update.ofAction a).run ⟨s, []⟩ with
  | .ok _ t => t.state
  | .error _ t => t.state

/-- The ids that an operation shows in a view of a tree, as often as it lists them. If it names an
unknown id it shows none. -/
def Action.showsIn (t : TraceTree) : Action → List Text
  | .showNodes ids => if ∀ id ∈ ids, id ∈ t.nodes.map (·.id) then ids else []
  | .expandAll => t.nodes.map (·.id)
  | _ => []

def timesShown (t : TraceTree) (actions : List Action) (id : Text) : Nat :=
  (actions.flatMap (·.showsIn t)).count id

structure ShownTimes (t : TraceTree) (times : Text → Nat) (s : VisibilityState) : Prop where
  layout : s.fresh = initial t
  expanded : ∀ {id r}, s.find? id = some r → (r.expanded ↔ 0 < times id)
  openParents_top : ∀ {id r}, s.find? id = some r → id ∈ t.topLevelIds → r.openParents.value = 0
  openParents_child : ∀ {parent id r}, s.find? id = some r → id ∈ t.childIds parent →
    r.openParents.value = times parent
  openChildren : ∀ {id r}, s.find? id = some r → r.openChildren.value =
    (((t.nodes.map (·.id)).filter fun below => id ∈ t.ancestorIds below).map times).sum
  visible : ∀ {id r}, s.find? id = some r → (r.visible ↔ id ∈ t.topLevelIds ∨ 0 < times id ∨
    (∃ parent, id ∈ t.childIds parent ∧ 0 < times parent) ∨
    ∃ below, id ∈ t.ancestorIds below ∧ 0 < times below)

structure HasShown (t : TraceTree) (ids : List Text) (s : VisibilityState) : Prop where
  layout : s.fresh = initial t
  known : ∀ id ∈ ids, id ∈ t.nodes.map (·.id)
  find : ∀ id, s.find? id = ((initial t).find? id).map (shownBy (initial t) ids)

section

variable {spans : List Span} {t : TraceTree} {s s' : VisibilityState} {a : Action}
  {actions : List Action} {times : Text → Nat} {ids ids' : List Text} {id parent : Text}
  {r : VisibilityRecord}

/-! ## One step after the other -/

theorem contains_iff_of_layout (h : s.fresh = initial t) :
    s.contains id ↔ id ∈ t.nodes.map (·.id) := by
  rw [← contains_initial, ← h, contains_congr (fresh_fresh s)]

theorem HasShown.expandAll (h : HasShown t ids s) (hids : ∀ id ∈ ids', id ∈ t.nodes.map (·.id)) :
    HasShown t (ids ++ ids') (Transition.expandAll ⟨s, []⟩ ids').state := by
  refine ⟨(fresh_expandAll _ _).trans h.layout, ?_, fun id => ?_⟩
  · exact List.forall_mem_append.mpr ⟨h.known, hids⟩
  · have hsame : s.fresh = (initial t).fresh := by rw [h.layout, fresh_initial]
    rw [find?_expandAll, h.find, Option.map_map, shownBy_congr hsame]
    congr 1
    funext r
    exact shownBy_shownBy _ _ _ _

theorem HasShown.after (hforest : (initial t).IsForest) (h : HasShown t ids s)
    (ha : a.OnlyShows) : HasShown t (ids ++ a.showsIn t) (s.after a) := by
  have hrun := Update.run_ofAction (h.layout ▸ hforest) a
  rw [VisibilityState.after, hrun]
  cases a with
  | showNodes named =>
      rw [Action.showsIn]
      split
      · rename_i hknown
        have hstep := showNodes_eq_ok_iff.mpr
          ⟨fun id hid => (contains_iff_of_layout h.layout).mpr (hknown id hid), rfl⟩
        rw [step, hstep]
        exact h.expandAll hknown
      · rename_i hunknown
        rw [List.append_nil]
        cases hstep : s.step (.showNodes named) with
        | error e => exact h
        | ok t =>
            refine absurd (fun id hid => ?_) hunknown
            rw [← contains_iff_of_layout h.layout]
            exact (showNodes_eq_ok_iff.mp hstep).1 id hid
  | expandAll =>
      rw [step, expandAll_eq_ok_iff.mpr rfl]
      have hsame : s.fresh = (initial t).fresh := by rw [h.layout, fresh_initial]
      rw [ids_congr hsame, ids_initial]
      exact h.expandAll fun _ hid => hid
  | hideNodes _ _ => exact ha.elim
  | toggle _ => exact ha.elim
  | collapseAll => exact ha.elim

theorem HasShown.initial (t : TraceTree) : HasShown t [] (initial t) := by
  refine ⟨fresh_initial t, by simp, fun id => ?_⟩
  rw [funext (shownBy_nil _)]
  exact Option.map_id_apply.symm

theorem HasShown.foldl_after (hforest : (VisibilityState.initial t).IsForest)
    (h : HasShown t ids s) (hactions : ∀ a ∈ actions, a.OnlyShows) :
    HasShown t (ids ++ actions.flatMap (·.showsIn t)) (actions.foldl VisibilityState.after s) := by
  induction actions generalizing ids s with
  | nil => simpa using h
  | cons a rest ih =>
      obtain ⟨ha, hrest⟩ := List.forall_mem_cons.mp hactions
      rw [List.foldl_cons, List.flatMap_cons, ← List.append_assoc]
      exact ih (h.after hforest ha) hrest

/-! ## Counting -/

theorem count_flatMap_of_nodup {f : Text → List Text} (hnodup : ∀ x, (f x).Nodup) :
    (ids.flatMap f).count id = ids.countP fun x => id ∈ f x := by
  induction ids with
  | nil => rfl
  | cons x rest ih =>
      rw [List.flatMap_cons, List.count_append, ih, (hnodup x).count, List.countP_cons,
        Nat.add_comm]
      simp only [decide_eq_true_eq]

theorem sum_map_count_filter {known : List Text} (hnodup : known.Nodup)
    (hknown : ∀ id ∈ ids, id ∈ known) (test : Text → Bool) :
    ((known.filter test).map fun x => ids.count x).sum = ids.countP test := by
  induction ids with
  | nil => simp
  | cons id rest ih =>
      obtain ⟨hid, hrest⟩ := List.forall_mem_cons.mp hknown
      have hone : ((known.filter test).map fun x => if id == x then 1 else 0).sum =
          if test id then 1 else 0 := by
        rw [List.sum_map_eq_nsmul_single id _ fun x hx _ => by simp [hx.symm],
          (hnodup.filter test).count]
        simp [hid]
      simp only [List.count_cons, List.sum_map_add, List.countP_cons, ih hrest, hone]

theorem count_flatMap_childIds (h : TraceTree.Built spans t) (hchild : id ∈ t.childIds parent) :
    (ids.flatMap t.childIds).count id = ids.count parent := by
  rw [count_flatMap_of_nodup fun _ => h.nodup_childIds, List.count]
  congr 1
  funext x
  have hforest := h.isForest_initial
  rw [Bool.eq_iff_iff, decide_eq_true_eq, beq_iff_eq]
  constructor
  · intro hx
    rw [← childrenOf_initial] at hx hchild
    exact hforest.parent_unique hx hchild
  · rintro rfl
    exact hchild

theorem HasShown.record (hs : HasShown t ids s) (hfind : s.find? id = some r) :
    r.expanded = ids.contains id ∧
      r.openParents.value = (ids.flatMap t.childIds).count id ∧
      r.openChildren.value = (ids.flatMap t.ancestorIds).count id ∧
      r.visible = (t.topLevelIds.contains id ||
        (ids ++ ids.flatMap t.childIds ++ ids.flatMap t.ancestorIds).contains id) := by
  rw [hs.find, find?_initial, Option.map_map] at hfind
  obtain ⟨p, hp, rfl⟩ := Option.map_eq_some_iff.mp hfind
  obtain rfl : p.id = id := by simpa using List.find?_some hp
  simp [shownBy, granted]

theorem HasShown.shownTimes (h : TraceTree.Built spans t) (hs : HasShown t ids s) :
    ShownTimes t (fun id => ids.count id) s where
  layout := hs.layout
  expanded := by
    intro id r hfind
    rw [(hs.record hfind).1, List.contains_iff_mem, List.count_pos_iff]
  openParents_top := by
    intro id r hfind htop
    rw [(hs.record hfind).2.1, List.count_eq_zero, List.mem_flatMap]
    rintro ⟨parent, -, hchild⟩
    exact h.not_child_of_top htop hchild
  openParents_child := by
    intro parent id r hfind hchild
    rw [(hs.record hfind).2.1]
    exact count_flatMap_childIds h hchild
  openChildren := by
    intro id r hfind
    rw [(hs.record hfind).2.2.1, count_flatMap_of_nodup h.nodup_ancestorIds]
    exact (sum_map_count_filter h.nodup_ids hs.known _).symm
  visible := by
    intro id r hfind
    have hlisted (f : Text → List Text) : id ∈ ids.flatMap f ↔ ∃ x, id ∈ f x ∧ x ∈ ids := by
      rw [List.mem_flatMap]
      exact exists_congr fun x => and_comm
    simp only [(hs.record hfind).2.2.2, Bool.or_eq_true, List.contains_iff_mem, List.mem_append,
      or_assoc, hlisted, List.count_pos_iff]

theorem record_ext {r r' : VisibilityRecord} (hfresh : r.fresh = r'.fresh)
    (hexpanded : r.expanded = r'.expanded) (hvisible : r.visible = r'.visible)
    (hparents : r.openParents.value = r'.openParents.value)
    (hchildren : r.openChildren.value = r'.openChildren.value) : r = r' := by
  have hparts (r : VisibilityRecord) : r = { r.fresh with
      expanded := r.expanded
      visible := r.visible
      openParents := ⟨r.openParents.value⟩
      openChildren := ⟨r.openChildren.value⟩ } := rfl
  rw [hparts r, hfresh, hexpanded, hvisible, hparents, hchildren, ← hparts r']

/-- A view is known by how often each node was shown. -/
theorem ShownTimes.unique (h : TraceTree.Built spans t) (hs : ShownTimes t times s)
    (hs' : ShownTimes t times s') : s = s' := by
  have hlayout : s.fresh = (initial t).fresh := by rw [hs.layout, fresh_initial]
  have hfresh : s.fresh = s'.fresh := hs.layout.trans hs'.layout.symm
  refine ext_find? hfresh (ids_congr hlayout ▸ h.isForest_initial.nodup) fun id => ?_
  have hbase : (s.find? id).map (·.fresh) = (s'.find? id).map (·.fresh) := by
    rw [← find?_fresh, ← find?_fresh, hfresh]
  cases hfind : s.find? id with
  | none =>
      rw [hfind, Option.map_none] at hbase
      exact (Option.map_eq_none_iff.mp hbase.symm).symm
  | some r =>
      obtain ⟨r', hfind', hsame⟩ : ∃ r', s'.find? id = some r' ∧ r'.fresh = r.fresh := by
        rw [hfind, Option.map_some] at hbase
        exact Option.map_eq_some_iff.mp hbase.symm
      have hid : id ∈ t.groups.map (·.id) := by
        rw [← h.contains_initial, ← contains_congr hlayout, contains, hfind]
        rfl
      have hparents : r.openParents.value = r'.openParents.value := by
        rcases h.top_or_child hid with htop | ⟨parent, hchild⟩
        · rw [hs.openParents_top hfind htop, hs'.openParents_top hfind' htop]
        · rw [hs.openParents_child hfind hchild, hs'.openParents_child hfind' hchild]
      rw [hfind']
      apply congrArg some
      apply record_ext hsame.symm
      · exact Bool.eq_iff_iff.mpr ((hs.expanded hfind).trans (hs'.expanded hfind').symm)
      · exact Bool.eq_iff_iff.mpr ((hs.visible hfind).trans (hs'.visible hfind').symm)
      · exact hparents
      · rw [hs.openChildren hfind, hs'.openChildren hfind']

theorem run_eq_ok (hactions : ∀ a ∈ actions, ∀ id ∈ a.namedIds, s.contains id)
    (hforest : s.fresh.IsForest) : s.run actions = .ok (actions.foldl VisibilityState.after s) := by
  induction actions generalizing s with
  | nil => rfl
  | cons a rest ih =>
      obtain ⟨ha, hrest⟩ := List.forall_mem_cons.mp hactions
      obtain ⟨t, hstep⟩ := exists_step_of_known ha
      have hafter : s.after a = t.state := by
        rw [VisibilityState.after, Update.run_ofAction hforest, hstep]
      have hfresh := fresh_of_step hstep
      rw [run, hstep, List.foldl_cons, hafter]
      refine ih (fun a ha id hid => ?_) (hfresh ▸ hforest)
      rw [contains_congr hfresh]
      exact hrest a ha id hid

end

/-- After any operations that show nodes, the view of a tree is told by how often they have shown
each node. An operation that fails has shown none, and none fails that names known ids. -/
theorem shown_in_total {spans : List Span} {t : TraceTree} {actions : List Action}
    (ht : TraceTree.build spans = .ok t) (hshows : ∀ a ∈ actions, a.OnlyShows) :
    ShownTimes t (timesShown t actions) (actions.foldl after (initial t)) ∧
      (∀ actions', (∀ a ∈ actions', a.OnlyShows) →
        (∀ id, timesShown t actions' id = timesShown t actions id) →
        actions'.foldl after (initial t) = actions.foldl after (initial t)) ∧
      ((∀ a ∈ actions, ∀ id ∈ a.namedIds, id ∈ t.nodes.map (·.id)) →
        (initial t).run actions = .ok (actions.foldl after (initial t))) := by
  have h := TraceTree.Built.of_build ht
  have htotal (actions : List Action) (hshows : ∀ a ∈ actions, a.OnlyShows) :
      ShownTimes t (timesShown t actions) (actions.foldl after (initial t)) := by
    have hshown := (HasShown.initial t).foldl_after h.isForest_initial hshows
    rw [List.nil_append] at hshown
    exact hshown.shownTimes h
  refine ⟨htotal actions hshows, fun actions' hshows' hsame => ?_, fun hknown => ?_⟩
  · have htotal' := htotal actions' hshows'
    rw [funext hsame] at htotal'
    exact htotal'.unique h (htotal actions hshows)
  · have hforest := h.isForest_initial
    rw [← fresh_initial] at hforest
    exact run_eq_ok (fun a ha id hid => contains_initial.mpr (hknown a ha id hid)) hforest

/-- The nodes of a chain below a missing node are shown in two ways, in one of which an unknown node
is named on the way. -/
theorem shown_in_total_of_orphans :
    ∃ (t : TraceTree) (s : VisibilityState),
      TraceTree.build [
        { traceId := "1", id := "b", parentId := some "x" },
        { traceId := "1", id := "c", parentId := some "b" },
        { traceId := "1", id := "d", parentId := some "c" }] = .ok t ∧
      [Action.showNodes ["c", "b", "c"], .showNodes ["d", "z"], .expandAll,
        .showNodes ["b"]].foldl after (initial t) = s ∧
      (initial t).run [.showNodes ["b", "c"], .showNodes ["b", "d", "c", "b", "c"]] = .ok s ∧
      (∃ r, s.find? "b" = some r ∧ r.openChildren.value = 4) ∧
      ∃ r, s.find? "c" = some r ∧ r.openParents.value = 3 := by
  have hview : (TraceTree.build [
      { traceId := "1", id := "b", parentId := some "x" },
      { traceId := "1", id := "c", parentId := some "b" },
      { traceId := "1", id := "d", parentId := some "c" }]).toOption.map (fun t =>
        (t.nodes.map (·.id), t.childIds "b", (["b", "c", "d"] : List Text).map t.ancestorIds)) =
      some ((["b", "c", "d"] : List Text), (["c"] : List Text),
        ([["x"], ["b", "x"], ["c", "b", "x"]] : List (List Text))) := by decide +kernel
  obtain ⟨t, ht, hview⟩ := Option.map_eq_some_iff.mp hview
  simp only [Prod.mk.injEq] at hview
  obtain ⟨hnodes, hchildren, habove⟩ := hview
  simp only [List.map_cons, List.map_nil, List.cons.injEq, and_true] at habove
  have hshows : ∀ a ∈ [Action.showNodes ["b", "c"], .showNodes ["b", "d", "c", "b", "c"]],
      a.OnlyShows := by simp [Action.OnlyShows]
  obtain ⟨htotal, hsame, hrun⟩ := shown_in_total (toOption_eq_some_iff.mp ht) hshows
  have htimes : timesShown t [.showNodes ["b", "c"], .showNodes ["b", "d", "c", "b", "c"]] =
      fun id => (["b", "c", "b", "d", "c", "b", "c"] : List Text).count id := by
    funext id
    refine congrArg (List.count id) ?_
    simp only [List.flatMap_cons, List.flatMap_nil, Action.showsIn, hnodes]
    decide
  have hknown (id : Text) (hid : id ∈ (["b", "c", "d"] : List Text)) :
      ∃ r, ([Action.showNodes ["b", "c"], .showNodes ["b", "d", "c", "b", "c"]].foldl after
        (initial t)).find? id = some r := by
    rw [← hnodes, ← contains_iff_of_layout htotal.layout] at hid
    exact Option.isSome_iff_exists.mp hid
  refine ⟨t, _, toOption_eq_some_iff.mp ht, hsame _ (by simp [Action.OnlyShows]) fun id => ?_,
    hrun ?_, ?_, ?_⟩
  · apply List.Perm.count_eq
    simp only [List.flatMap_cons, List.flatMap_nil, Action.showsIn, hnodes]
    decide
  · rw [hnodes]
    decide
  · obtain ⟨r, hr⟩ := hknown "b" (by decide)
    refine ⟨r, hr, ?_⟩
    rw [htotal.openChildren hr]
    simp only [htimes, hnodes, List.filter_cons, List.filter_nil, habove]
    decide
  · obtain ⟨r, hr⟩ := hknown "c" (by decide)
    refine ⟨r, hr, ?_⟩
    have hchild : ("c" : Text) ∈ t.childIds "b" := by simp [hchildren]
    rw [htotal.openParents_child hr hchild, htimes]
    decide

end TraceExplorer.VisibilityState
