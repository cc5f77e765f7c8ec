import TraceExplorer.Proofs.Tree.Ancestry
import TraceExplorer.Proofs.Visibility.View

/-!
# The layout of a view of a tree

The layout of a view is a forest: every node has one parent or is a top node, and the ids above a
node are its parent and the ids above that.
-/

namespace TraceExplorer.VisibilityState

structure IsForest (s : VisibilityState) : Prop where
  nodup : (s.records.map (·.spanId)).Nodup
  known : ∀ {parent child}, child ∈ s.childrenOf parent → s.contains child
  nodup_children : ∀ parent, (s.childrenOf parent).Nodup
  root : ∀ {id r}, s.find? id = some r → (r.isRoot ↔ ∀ parent, id ∉ s.childrenOf parent)
  above_child : ∀ {parent child}, child ∈ s.childrenOf parent →
    s.ancestorsOf child = parent :: s.ancestorsOf parent
  above_root : ∀ {id r above}, s.find? id = some r → r.isRoot → above ∈ s.ancestorsOf id →
    ¬ s.contains above

section

variable {s s' : VisibilityState} {parent parent' child id : Text} {r : VisibilityRecord}

theorem IsForest.parent_unique (h : s.IsForest) (hchild : child ∈ s.childrenOf parent)
    (hchild' : child ∈ s.childrenOf parent') : parent = parent' :=
  (List.cons.inj ((h.above_child hchild).symm.trans (h.above_child hchild'))).1

/-- In every view of the layout the same nodes are top nodes. -/
theorem IsForest.isRoot_iff (h : s'.IsForest) (hlayout : s.fresh = s')
    (hfind : s.find? id = some r) : r.isRoot ↔ ∀ parent, id ∉ s'.childrenOf parent := by
  have hbase : s'.find? id = some r.fresh := by rw [← hlayout, find?_fresh, hfind]; rfl
  have hroot := h.root hbase
  exact hroot

theorem IsForest.not_root (h : s'.IsForest) (hlayout : s.fresh = s')
    (hfind : s.find? child = some r) (hchild : child ∈ s'.childrenOf parent) :
    r.isRoot = false :=
  Bool.eq_false_iff.mpr fun hroot => (h.isRoot_iff hlayout hfind).mp hroot parent hchild

theorem IsForest.not_contains_above (h : s'.IsForest) (hlayout : s.fresh = s')
    (hfind : s.find? id = some r) (hroot : r.isRoot) {above : Text}
    (habove : above ∈ s'.ancestorsOf id) : ¬ s.contains above := by
  have hbase : s'.find? id = some r.fresh := by rw [← hlayout, find?_fresh, hfind]; rfl
  rw [← contains_congr (fresh_fresh s), hlayout]
  exact h.above_root hbase hroot habove

/-- A node that has children is a node of the view. -/
theorem contains_of_mem_childrenOf (hchild : child ∈ s.childrenOf parent) :
    s.contains parent := by
  rw [contains]
  cases hfind : s.find? parent with
  | none => simp [childrenOf, hfind] at hchild
  | some _ => rfl

theorem contains_iff_mem_ids : s.contains id ↔ id ∈ s.records.map (·.spanId) := by
  simp [contains, find?]

/-- Operations keep the layout, so what holds of it before holds after. -/
theorem IsForest.congr (h : s.IsForest) (hfresh : s.fresh = s'.fresh) : s'.IsForest := by
  have hchildren := childrenOf_congr hfresh
  have habove := ancestorsOf_congr hfresh
  have hroot {id : Text} {r' : VisibilityRecord} (hfind : s'.find? id = some r') :
      ∃ r, s.find? id = some r ∧ r.isRoot = r'.isRoot := by
    have heq := congrArg (fun s => (find? s id).map (·.isRoot)) hfresh
    simp only [find?_fresh, hfind, Option.map_map, Option.map_some] at heq
    obtain ⟨r, hr, hsame⟩ := Option.map_eq_some_iff.mp heq
    exact ⟨r, hr, hsame⟩
  refine ⟨ids_congr hfresh ▸ h.nodup, ?_, ?_, ?_, ?_, ?_⟩
  · intro parent child hchild
    rw [← contains_congr hfresh]
    exact h.known (hchildren ▸ hchild)
  · exact fun parent => hchildren ▸ h.nodup_children parent
  · intro id r' hfind
    obtain ⟨r, hr, hsame⟩ := hroot hfind
    rw [← hsame, ← hchildren]
    exact h.root hr
  · intro parent child hchild
    rw [← habove]
    exact h.above_child (hchildren ▸ hchild)
  · intro id r' above hfind hisRoot hmem
    obtain ⟨r, hr, hsame⟩ := hroot hfind
    rw [← contains_congr hfresh]
    exact h.above_root hr (hsame.trans hisRoot) (habove ▸ hmem)

/-! ## The first view of a tree -/

variable {spans : List Span} {t : TraceTree}

@[simp] theorem fresh_initial (t : TraceTree) : (initial t).fresh = initial t := by
  simp [fresh, initial, Function.comp_def, VisibilityRecord.fresh]

theorem find?_initial (t : TraceTree) (id : Text) :
    (initial t).find? id = (t.placement? id).map fun p =>
      { spanId := p.id
        isRoot := t.topLevelIds.contains p.id
        childIds := p.childIds
        ancestorIds := p.ancestorIds
        visible := t.topLevelIds.contains p.id } := by
  simp only [initial, find?, TraceTree.placement?, List.find?_map]
  rfl

@[simp] theorem childrenOf_initial (t : TraceTree) : (initial t).childrenOf = t.childIds := by
  funext id
  simp only [childrenOf, find?_initial, Option.map_map]
  rfl

@[simp] theorem ancestorsOf_initial (t : TraceTree) : (initial t).ancestorsOf = t.ancestorIds := by
  funext id
  simp only [ancestorsOf, find?_initial, Option.map_map]
  rfl

theorem ids_initial (t : TraceTree) :
    (initial t).records.map (·.spanId) = t.nodes.map (·.id) := by
  rw [← TraceTree.map_group_placements, initial, List.map_map, List.map_map]
  rfl

theorem contains_initial : (initial t).contains id ↔ id ∈ t.nodes.map (·.id) := by
  rw [contains_iff_mem_ids, ids_initial]

end

end TraceExplorer.VisibilityState

namespace TraceExplorer.TraceTree

open VisibilityState

section

variable {spans : List Span} {t : TraceTree} {id : Text} {r : VisibilityRecord}

theorem Built.contains_initial (h : Built spans t) :
    (initial t).contains id ↔ id ∈ t.groups.map (·.id) := by
  rw [VisibilityState.contains_initial, (h.nodes_perm.map _).mem_iff, h.groups]

theorem Built.isRoot_iff (h : Built spans t) (hfind : (initial t).find? id = some r) :
    r.isRoot ↔ id ∈ t.topLevelIds := by
  rw [find?_initial] at hfind
  obtain ⟨p, hp, rfl⟩ := Option.map_eq_some_iff.mp hfind
  obtain ⟨-, rfl⟩ := h.placement?_eq_some.mp hp
  simp

theorem Built.isForest_initial (h : Built spans t) : (initial t).IsForest := by
  refine ⟨?_, ?_, ?_, ?_, ?_, ?_⟩
  · rw [ids_initial]
    exact h.nodup_ids
  · intro parent child hchild
    rw [childrenOf_initial] at hchild
    exact h.contains_initial.mpr (h.mem_childIds.mp hchild).1
  · intro parent
    rw [childrenOf_initial]
    exact h.nodup_childIds
  · intro id r hfind
    have hid : id ∈ t.groups.map (·.id) := h.contains_initial.mp (by simp [contains, hfind])
    obtain ⟨g, hg, rfl⟩ := List.mem_map.mp hid
    obtain ⟨link, hlink⟩ := Option.isSome_iff_exists.mp (h.linked.isSome_lookup hg)
    simp only [h.isRoot_iff hfind, h.mem_topLevelIds, childrenOf_initial, h.mem_childIds, hid,
      hlink, true_and, Option.some.injEq]
    cases link <;> simp
  · intro parent child hchild
    rw [childrenOf_initial] at hchild
    rw [ancestorsOf_initial]
    exact h.ancestorIds_child hchild
  · intro id r above hfind hroot habove hknown
    rw [ancestorsOf_initial] at habove
    exact h.not_mem_of_mem_ancestorIds_top ((h.isRoot_iff hfind).mp hroot) habove
      (h.contains_initial.mp hknown)

end

end TraceExplorer.TraceTree
