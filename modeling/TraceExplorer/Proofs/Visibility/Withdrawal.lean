import TraceExplorer.Proofs.Success
import TraceExplorer.Proofs.Tree.Forest
import TraceExplorer.Proofs.Visibility.InPlace

/-!
# Nodes that are hidden together

Nodes that are hidden together take their grants back one after the other, and look at counts that
have gone down only in part. It makes no difference which of them comes first. What a node does to a
record depends on no other record, and if one of two nodes releases a record only when it comes
second, that record is closed in the end anyway.
-/

namespace TraceExplorer.Transition

open VisibilityState

def withdrawn (childrenOnly own below : Bool) (r : VisibilityRecord) : VisibilityRecord :=
  let left :=
    if own then { r with expanded := false, visible := (childrenOnly || r.isRoot) && r.visible }
    else r
  if below then lowered left else left

/-- A node below releases a record that has no grant from a parent and no other one from below. -/
def releases (below : Bool) (parents children : Nat) : Bool :=
  below && parents == 0 && children - 1 == 0

/-- A parent closes a record that has no other grant from a parent. -/
def closes (child : Bool) (parents : Nat) : Bool := child && parents == 1

/-- What a level has made of one record so far: the record, hidden if it was closed, and whether it
was. -/
structure Standing where
  record : VisibilityRecord
  closed : Bool

/-- What collapsing one node does to a record. The flags say whether it is the record of the node
itself, of one above it, or of a child. -/
def Standing.lose (childrenOnly own below child : Bool) (q : Standing) : Standing :=
  let r := withdrawn childrenOnly own below q.record
  let closed := q.closed || closes child r.openParents.value
  { record :=
      { r with
        visible := r.visible && !closed
        openParents := ⟨r.openParents.value - child.toNat⟩ }
    closed }

def Standing.withdraw (base : VisibilityState) (childrenOnly : Bool) (q : Standing) (id : Text) :
    Standing :=
  q.lose childrenOnly (q.record.spanId == id)
    (!childrenOnly && (base.ancestorsOf id).contains q.record.spanId)
    ((base.childrenOf id).contains q.record.spanId)

def standing? (p : Transition × List Text) (id : Text) : Option Standing :=
  (p.1.state.find? id).map fun r =>
    { record := { r with visible := r.visible && !p.2.contains id }, closed := p.2.contains id }

section

variable {base s : VisibilityState} {t t' : Transition} {p p' : Transition × List Text}
  {q : Standing} {r : VisibilityRecord} {id id' x : Text} {ids ids' above : List Text}
  {childrenOnly : Bool}

/-! ## Two nodes -/

theorem lowered_eq (r : VisibilityRecord) : lowered r =
    { r with
      visible := r.visible &&
        !({ r with openChildren := r.openChildren.decrement } : VisibilityRecord).isReleased
      openChildren := r.openChildren.decrement } := by
  unfold lowered
  dsimp only
  split <;> simp [*]

theorem withdrawn_eq (childrenOnly own below : Bool) (r : VisibilityRecord) :
    withdrawn childrenOnly own below r =
      { r with
        expanded := r.expanded && !own
        visible := r.visible && !(own && !childrenOnly && !r.isRoot) &&
          !(!r.isRoot && releases below r.openParents.value r.openChildren.value)
        openChildren := ⟨r.openChildren.value - below.toNat⟩ } := by
  have hcomm := Bool.and_comm r.visible (childrenOnly || r.isRoot)
  cases own <;> cases below <;>
    simp [withdrawn, lowered_eq, releases, VisibilityRecord.isReleased, RefCount.decrement, hcomm,
      Bool.or_assoc]

theorem closes_comm (child child' : Bool) (parents : Nat) :
    (closes child parents || closes child' (parents - child.toNat)) =
      (closes child' parents || closes child (parents - child'.toNat)) := by
  cases child <;> cases child' <;> simp [closes]

/-- Whichever of two nodes comes first, a record is released or closed by one of them or by none. -/
theorem releases_or_closes_comm (below below' child child' : Bool) (parents children : Nat) :
    (releases below parents children ||
        releases below' (parents - child.toNat) (children - below.toNat) ||
        (closes child parents || closes child' (parents - child.toNat))) =
      (releases below' parents children ||
        releases below (parents - child'.toNat) (children - below'.toNat) ||
        (closes child' parents || closes child (parents - child'.toNat))) := by
  rcases Nat.eq_zero_or_pos parents with rfl | hparents
  · -- Without a grant from a parent nothing is closed, and the grants from below run out once.
    cases below <;> cases below' <;> simp [releases, closes]
  · -- With one, nothing is released before it is closed.
    have hnow (below : Bool) : releases below parents children = false := by
      simp [releases, Nat.ne_of_gt hparents]
    have hlater (below child rest : Bool) (children : Nat) :
        (releases below (parents - child.toNat) children || (closes child parents || rest)) =
          (closes child parents || rest) := by
      rw [Bool.or_eq_right_iff_imp]
      intro hreleases
      cases child with
      | false => simp [releases, Nat.ne_of_gt hparents] at hreleases
      | true =>
          have hone : parents - 1 = 0 := by
            simp only [releases, Bool.toNat_true, Bool.and_eq_true, beq_iff_eq] at hreleases
            exact hreleases.1.2
          have hlast : parents = 1 := by omega
          simp [closes, hlast]
    rw [hnow, hnow, Bool.false_or, Bool.false_or, hlater, hlater, closes_comm]

theorem Standing.spanId_lose (q : Standing) (own below child : Bool) :
    (q.lose childrenOnly own below child).record.spanId = q.record.spanId := by
  rw [lose, withdrawn_eq]

theorem Standing.lose_comm (q : Standing) (own own' below below' child child' : Bool) :
    (q.lose childrenOnly own below child).lose childrenOnly own' below' child' =
      (q.lose childrenOnly own' below' child').lose childrenOnly own below child := by
  obtain ⟨⟨x, isRoot, childIds, ancestorIds, expanded, visible, ⟨parents⟩, ⟨children⟩⟩, closed⟩ := q
  simp only [lose, withdrawn_eq, Standing.mk.injEq, VisibilityRecord.mk.injEq, RefCount.mk.injEq,
    true_and]
  have hclosed := closes_comm child child' parents
  have hgone := releases_or_closes_comm below below' child child' parents children
  refine ⟨⟨Bool.and_right_comm _ _ _, ?_, Nat.sub_right_comm _ _ _, Nat.sub_right_comm _ _ _⟩, ?_⟩
  · -- A record that goes in one order goes in the other; for a top node only closing counts.
    cases isRoot <;> grind
  · rw [Bool.or_assoc, Bool.or_assoc, hclosed]

theorem Standing.withdraw_comm (base : VisibilityState) (childrenOnly : Bool) (q : Standing)
    (id id' : Text) :
    (q.withdraw base childrenOnly id).withdraw base childrenOnly id' =
      (q.withdraw base childrenOnly id').withdraw base childrenOnly id := by
  simp only [withdraw, spanId_lose]
  exact q.lose_comm _ _ _ _ _ _

/-! ## One node -/

theorem find?_foldl_releaseAbove (hnodup : above.Nodup) :
    (above.foldl releaseAbove t).state.find? x =
      (t.state.find? x).map fun r => if x ∈ above then lowered r else r := by
  induction above generalizing t with
  | nil => simp
  | cons node rest ih =>
      obtain ⟨hnode, hrest⟩ := List.nodup_cons.mp hnodup
      rw [List.foldl_cons, ih hrest, find?_releaseAbove]
      by_cases hx : x = node
      · subst hx
        simp [hnode, Function.comp_def]
      · simp [hx]

/-- What a node does to a record before it takes back the grants of its children. -/
theorem find?_withdraw (hfind : t.state.find? id = some r) (hnodup : r.ancestorIds.Nodup) :
    (if childrenOnly then t.modify id fun r => { r with expanded := false }
      else (t.modify id fun r => { r with expanded := false }).withdrawAbove r).state.find? x =
      (t.state.find? x).map
        (withdrawn childrenOnly (x == id) (!childrenOnly && r.ancestorIds.contains x)) := by
  cases childrenOnly with
  | true =>
      rw [if_pos rfl, modify_state, find?_modify (by exact fun _ => rfl)]
      cases t.state.find? x <;> by_cases hx : x = id <;> simp [hx, withdrawn]
  | false =>
      rw [if_neg (by decide), withdrawAbove, find?_foldl_releaseAbove hnodup, find?_leave hfind]
      by_cases hx : x = id
      · simp [hx, hfind, withdrawn]
      · cases t.state.find? x <;> simp [hx, withdrawn]

theorem find?_collapseOne_of_find? (hfind : p.1.state.find? id = some r)
    (hchildren : r.childIds.Nodup) (habove : r.ancestorIds.Nodup) :
    (collapseOne childrenOnly p id).1.state.find? x = (p.1.state.find? x).map fun q =>
      { withdrawn childrenOnly (x == id) (!childrenOnly && r.ancestorIds.contains x) q with
        openParents := ⟨q.openParents.value - (r.childIds.contains x).toNat⟩ } := by
  simp only [collapseOne, hfind]
  rw [find?_foldl_releaseChild, find?_withdraw hfind habove, Option.map_map, hchildren.count]
  congr 1
  funext q
  by_cases hx : x ∈ r.childIds <;> simp [withdrawn_eq, hx]

theorem contains_closed_collapseOne {q : VisibilityRecord} (hfind : p.1.state.find? id = some r)
    (hchildren : r.childIds.Nodup) (habove : r.ancestorIds.Nodup)
    (hx : p.1.state.find? x = some q) :
    (collapseOne childrenOnly p id).2.contains x =
      (p.2.contains x || closes (r.childIds.contains x) q.openParents.value) := by
  simp only [collapseOne, hfind]
  rw [Bool.eq_iff_iff, List.contains_iff_mem, mem_closed_foldl_releaseChild hchildren,
    find?_withdraw hfind habove, hx]
  simp [withdrawn_eq, closes]

/-- What a node does to a record depends on no other record. -/
theorem standing?_collapseOne (hlayout : p.1.state.fresh = base)
    (hchildren : (base.childrenOf id).Nodup) (habove : (base.ancestorsOf id).Nodup) :
    standing? (collapseOne childrenOnly p id) x =
      (standing? p x).map (·.withdraw base childrenOnly id) := by
  cases hfind : p.1.state.find? id with
  | none =>
      have hsame : collapseOne childrenOnly p id = p := by simp [collapseOne, hfind]
      rw [hsame, standing?]
      cases hx : p.1.state.find? x with
      | none => rfl
      | some q =>
          have hne : ¬ q.spanId = id := by
            rw [spanId_of_find? hx]
            rintro rfl
            simp [hx] at hfind
          simp [← hlayout, Standing.withdraw, Standing.lose, withdrawn, closes, childrenOf,
            ancestorsOf, hfind, hne]
  | some r =>
      rw [← childIds_eq hlayout hfind] at hchildren
      rw [← ancestorIds_eq hlayout hfind] at habove
      rw [standing?, standing?, find?_collapseOne_of_find? hfind hchildren habove]
      cases hx : p.1.state.find? x with
      | none => rfl
      | some q =>
          obtain rfl := spanId_of_find? hx
          simp only [Option.map_some, contains_closed_collapseOne hfind hchildren habove hx,
            Standing.withdraw, Standing.lose, ← childIds_eq hlayout hfind,
            ← ancestorIds_eq hlayout hfind, withdrawn_eq]
          cases p.2.contains q.spanId <;> simp

/-! ## One level -/

theorem standing?_foldl_collapseOne (hlayout : p.1.state.fresh = base)
    (hchildren : ∀ id, (base.childrenOf id).Nodup) (habove : ∀ id, (base.ancestorsOf id).Nodup) :
    standing? (ids.foldl (collapseOne childrenOnly) p) x =
      (standing? p x).map fun q => ids.foldl (Standing.withdraw base childrenOnly) q := by
  induction ids generalizing p with
  | nil => simp
  | cons id rest ih =>
      rw [List.foldl_cons, ih (fresh_collapseOne.trans hlayout),
        standing?_collapseOne hlayout (hchildren id) (habove id), Option.map_map]
      rfl

theorem standing?_perm (ht : t.state.fresh = base) (hstate : t.state = t'.state)
    (hchildren : ∀ id, (base.childrenOf id).Nodup) (habove : ∀ id, (base.ancestorsOf id).Nodup)
    (hperm : ids.Perm ids') :
    standing? (ids.foldl (collapseOne childrenOnly) (t, [])) x =
      standing? (ids'.foldl (collapseOne childrenOnly) (t', [])) x := by
  have hstart : standing? (t, []) x = standing? (t', []) x := by rw [standing?, standing?, hstate]
  have hcomm (q : Standing) : ids.foldl (Standing.withdraw base childrenOnly) q =
      ids'.foldl (Standing.withdraw base childrenOnly) q :=
    hperm.foldl_eq' (fun id _ id' _ q => q.withdraw_comm base childrenOnly id id') q
  rw [standing?_foldl_collapseOne (p := (t, [])) ht hchildren habove,
    standing?_foldl_collapseOne (p := (t', [])) (hstate ▸ ht) hchildren habove, hstart,
    funext hcomm]

theorem find?_collapseLevel :
    (t.collapseLevel childrenOnly ids).1.state.find? x =
      (standing? (ids.foldl (collapseOne childrenOnly) (t, [])) x).map (·.record) := by
  rw [collapseLevel, standing?, Option.map_map]
  generalize ids.foldl (collapseOne childrenOnly) (t, []) = p
  rw [find?_foldl_setVisible]
  split
  · rename_i hclosed
    simp [hclosed, Function.comp_def]
  · rename_i hopen
    simp [hopen, Function.comp_def]

theorem mem_closed_iff_standing? (hknown : ∀ x ∈ p.2, p.1.state.contains x) :
    x ∈ p.2 ↔ ∃ q, standing? p x = some q ∧ q.closed := by
  constructor
  · intro hx
    obtain ⟨r, hr⟩ := Option.isSome_iff_exists.mp (hknown x hx)
    refine ⟨_, by rw [standing?, hr]; rfl, ?_⟩
    exact List.contains_iff_mem.mpr hx
  · rintro ⟨q, hq, hclosed⟩
    obtain ⟨r, -, rfl⟩ := Option.map_eq_some_iff.mp hq
    exact List.contains_iff_mem.mp hclosed

theorem contains_closed (childrenOnly : Bool) (hforest : base.IsForest)
    (hknown : ∀ id ∈ ids, base.contains id) (ht : t.state.fresh = base) :
    ∀ x ∈ (ids.foldl (collapseOne childrenOnly) (t, [])).2,
      (ids.foldl (collapseOne childrenOnly) (t, [])).1.state.contains x := by
  have hlevel := (Update.run_collapseLevel childrenOnly hforest hknown ht).2
  intro x hx
  have hlayout : base.fresh = (ids.foldl (collapseOne childrenOnly) (t, [])).1.state.fresh := by
    rw [fresh_foldl_collapseOne, ht, ← ht, fresh_fresh]
  rw [← contains_congr hlayout]
  exact hlevel.known x hx

/-- A level leaves the same records and closes the same children if its nodes come in another
order. -/
theorem collapseLevel_perm (childrenOnly : Bool) (hforest : base.IsForest)
    (habove : ∀ id, (base.ancestorsOf id).Nodup) (ht : t.state.fresh = base)
    (hstate : t.state = t'.state) (hknown : ∀ id ∈ ids, base.contains id)
    (hperm : ids.Perm ids') :
    (t.collapseLevel childrenOnly ids).1.state = (t'.collapseLevel childrenOnly ids').1.state ∧
      (t.collapseLevel childrenOnly ids).2.Perm (t'.collapseLevel childrenOnly ids').2 := by
  have ht' : t'.state.fresh = base := hstate ▸ ht
  have hknown' : ∀ id ∈ ids', base.contains id := fun id hid => hknown id (hperm.mem_iff.mpr hid)
  have hstanding (x : Text) : standing? (ids.foldl (collapseOne childrenOnly) (t, [])) x =
      standing? (ids'.foldl (collapseOne childrenOnly) (t', [])) x :=
    standing?_perm ht hstate hforest.nodup_children habove hperm
  constructor
  · have hlayout : (t.collapseLevel childrenOnly ids).1.state.fresh =
        (t'.collapseLevel childrenOnly ids').1.state.fresh := by
      rw [fresh_collapseLevel, fresh_collapseLevel, hstate]
    refine ext_find? hlayout ?_ fun x => ?_
    · have hbase : base.fresh = (t.collapseLevel childrenOnly ids).1.state.fresh := by
        rw [fresh_collapseLevel, ht, ← ht, fresh_fresh]
      exact ids_congr hbase ▸ hforest.nodup
    · rw [find?_collapseLevel, find?_collapseLevel, hstanding]
  · refine (List.perm_ext_iff_of_nodup nodup_closed_collapseLevel
      nodup_closed_collapseLevel).mpr fun x => ?_
    have hmem := mem_closed_iff_standing? (x := x) (contains_closed childrenOnly hforest hknown ht)
    rw [hstanding, ← mem_closed_iff_standing? (contains_closed childrenOnly hforest hknown' ht')]
      at hmem
    exact hmem

/-! ## A whole collapse -/

theorem collapse_perm (childrenOnly : Bool) (hforest : base.IsForest)
    (habove : ∀ id, (base.ancestorsOf id).Nodup) (ht : t.state.fresh = base)
    (hstate : t.state = t'.state) (hknown : ∀ id ∈ ids, base.contains id)
    (hperm : ids.Perm ids') :
    (t.collapse childrenOnly ids).state = (t'.collapse childrenOnly ids').state := by
  -- Every further level takes back at least one grant.
  induction hgrants : t.state.grants using Nat.strongRecOn
    generalizing t t' ids ids' childrenOnly with
  | ind grants ih =>
      obtain ⟨hnext, hclosed⟩ :=
        collapseLevel_perm childrenOnly hforest habove ht hstate hknown hperm
      obtain ⟨-, hlevel⟩ := Update.run_collapseLevel childrenOnly hforest hknown ht
      have hle := grants_collapseLevel_le childrenOnly t ids
      rw [collapse_eq, collapse_eq childrenOnly t']
      generalize t.collapseLevel childrenOnly ids = next at hnext hclosed hlevel hle ⊢
      generalize t'.collapseLevel childrenOnly ids' = next' at hnext hclosed ⊢
      obtain ⟨hidden, closed⟩ := next
      obtain ⟨hidden', closed'⟩ := next'
      cases closed with
      | nil =>
          obtain rfl : closed' = [] := hclosed.nil_eq.symm
          rw [collapse_nil, collapse_nil]
          exact hnext
      | cons child rest =>
          rw [List.length_cons] at hle
          exact ih _ (by omega) true hlevel.layout hnext hlevel.known hclosed rfl

end

end TraceExplorer.Transition

namespace TraceExplorer.VisibilityState

open Transition

/-- In every view that operations lead to, known nodes can be hidden in any order: the records after
it and the nodes that are reported are the same. -/
theorem hideNodes_reordered {spans : List Span} {tree : TraceTree} {s : VisibilityState}
    {ids ids' : List Text} (childrenOnly : Bool) (htree : TraceTree.build spans = .ok tree)
    (h : Reached (fun _ _ => True) (initial tree) s) (hknown : ∀ id ∈ ids, s.contains id)
    (hperm : ids.Perm ids') :
    ∃ t t', s.hideNodes ids childrenOnly = .ok t ∧ s.hideNodes ids' childrenOnly = .ok t' ∧
      t.state = t'.state ∧ ∀ id, id ∈ t.changed ↔ id ∈ t'.changed := by
  have hbuilt := TraceTree.Built.of_build htree
  have hlayout : s.fresh = initial tree := by rw [h.fresh_eq, fresh_initial]
  have hsame : (collapse childrenOnly ⟨s, []⟩ ids).state =
      (collapse childrenOnly ⟨s, []⟩ ids').state := by
    refine collapse_perm childrenOnly hbuilt.isForest_initial (fun id => ?_) hlayout rfl
      (fun id hid => ?_) hperm
    · rw [ancestorsOf_initial]
      exact hbuilt.nodup_ancestorIds id
    · rw [← hlayout, contains_congr (fresh_fresh s)]
      exact hknown id hid
  refine ⟨_, _, hideNodes_eq_ok_iff.mpr ⟨hknown, rfl⟩, hideNodes_eq_ok_iff.mpr ⟨?_, rfl⟩, hsame,
    fun id => ?_⟩
  · exact fun id hid => hknown id (hperm.mem_iff.mpr hid)
  · rw [(Noted.refl false s).collapse.mem_iff, (Noted.refl false s).collapse.mem_iff, hsame]

/-- In a chain the middle node is closed by the first one, and released by the last one if that
comes second. The last one is named twice. -/
theorem hideNodes_reordered_of_chain :
    ∃ (tree : TraceTree) (s : VisibilityState) (t t' : Transition),
      TraceTree.build [
        { traceId := "1", id := "a" },
        { traceId := "1", id := "b", parentId := some "a" },
        { traceId := "1", id := "c", parentId := some "b" }] = .ok tree ∧
      Reached (fun _ _ => True) (initial tree) s ∧ s.visible? "b" = some true ∧
      s.hideNodes ["c", "a", "c"] = .ok t ∧ s.hideNodes ["a", "c", "c"] = .ok t' ∧
      t.state = t'.state ∧ (∀ id, id ∈ t.changed ↔ id ∈ t'.changed) ∧
      t.changed = (["c", "b"] : List Text) := by
  have hview : (TraceTree.build [
      { traceId := "1", id := "a" },
      { traceId := "1", id := "b", parentId := some "a" },
      { traceId := "1", id := "c", parentId := some "b" }]).toOption.bind (fun tree =>
        ((initial tree).showNodes ["a", "c"]).toOption.bind fun opened =>
          (opened.state.hideNodes ["c", "a", "c"]).toOption.map fun hidden =>
            (opened.state.visible? "b", hidden.changed)) =
      some (some true, (["c", "b"] : List Text)) := by decide +kernel
  obtain ⟨tree, htree, hview⟩ := Option.bind_eq_some_iff.mp hview
  obtain ⟨opened, hopened, hview⟩ := Option.bind_eq_some_iff.mp hview
  obtain ⟨hidden, hhidden, hview⟩ := Option.map_eq_some_iff.mp hview
  simp only [Prod.mk.injEq] at hview
  obtain ⟨hvisible, hchanged⟩ := hview
  have hreached : Reached (fun _ _ => True) (initial tree) opened.state :=
    .step (a := .showNodes ["a", "c"]) .start trivial (toOption_eq_some_iff.mp hopened)
  have hknown := (hideNodes_eq_ok_iff.mp (toOption_eq_some_iff.mp hhidden)).1
  have hperm : (["c", "a", "c"] : List Text).Perm ["a", "c", "c"] := by decide
  obtain ⟨t, t', ht, ht', hstate, hsame⟩ :=
    hideNodes_reordered false (toOption_eq_some_iff.mp htree) hreached hknown hperm
  obtain rfl := Except.ok.inj (ht.symm.trans (toOption_eq_some_iff.mp hhidden))
  exact ⟨tree, opened.state, t, t', toOption_eq_some_iff.mp htree, hreached, hvisible, ht, ht',
    hstate, hsame, hchanged⟩

end TraceExplorer.VisibilityState
