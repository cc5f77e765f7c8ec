import TraceExplorer.Proofs.Tree.Build

/-!
# The ids below and above a node

In a tree built from spans, a node is directly below the node its link leads to. The ids above it
are that node and the ids above that one.
-/

namespace TraceExplorer.TraceTree

open ParentMap (Ascent)

section

variable {spans : List Span} {t : TraceTree} {id parent : Text} {p : Placement}

theorem Built.placement?_eq_some (h : Built spans t) :
    t.placement? id = some p ↔ p ∈ t.placements ∧ p.id = id := by
  constructor
  · intro hp
    exact ⟨List.mem_of_find?_eq_some hp, by simpa using List.find?_some hp⟩
  · rintro ⟨hp, rfl⟩
    cases hfind : t.placement? p.id with
    | none => simpa using List.find?_eq_none.mp hfind p hp
    | some q =>
        have hq : q.id = p.id := by simpa using List.find?_some hfind
        exact congrArg some
          (List.inj_on_of_nodup_map h.ids_placements (List.mem_of_find?_eq_some hfind) hp hq)

theorem Built.exists_placement (h : Built spans t) (hid : id ∈ t.groups.map (·.id)) :
    ∃ p, t.placement? id = some p ∧ p.id = id := by
  rw [h.groups, ← (h.nodes_perm.map _).mem_iff] at hid
  obtain ⟨p, hp, rfl⟩ := mem_ids_nodes.mp hid
  exact ⟨p, h.placement?_eq_some.mpr ⟨hp, rfl⟩, rfl⟩

/-- An id is below the one that its link leads to. -/
theorem Built.mem_childIds (h : Built spans t) :
    id ∈ t.childIds parent ↔
      id ∈ t.groups.map (·.id) ∧ (treeLinks spans).lookup id = some (some parent) := by
  have hunder (p : Placement) (hp : p ∈ t.placements) :
      id ∈ p.childIds ↔
        id ∈ t.groups.map (·.id) ∧ (treeLinks spans).lookup id = some (some p.id) := by
    rw [(h.placement hp).1]
    exact h.linked.mem_ids_groupsUnder
  constructor
  · intro hid
    cases hfind : t.placement? parent with
    | none => simp [childIds, hfind] at hid
    | some p =>
        obtain ⟨hp, rfl⟩ := h.placement?_eq_some.mp hfind
        exact (hunder p hp).mp (by simpa [childIds, hfind] using hid)
  · rintro ⟨hid, hlink⟩
    obtain ⟨g, hg, rfl⟩ := List.mem_map.mp hid
    obtain ⟨p, hfind, rfl⟩ := h.exists_placement (h.linked.closed g hg parent hlink)
    have hmem := (hunder p (h.placement?_eq_some.mp hfind).1).mpr ⟨hid, hlink⟩
    simpa [childIds, hfind] using hmem

theorem Built.nodup_childIds (h : Built spans t) : (t.childIds parent).Nodup := by
  cases hfind : t.placement? parent with
  | none => simp [childIds, hfind]
  | some p =>
      simp only [childIds, hfind, Option.map_some, Option.getD_some]
      rw [(h.placement (h.placement?_eq_some.mp hfind).1).1]
      exact h.linked.nodup_groupsUnder _

theorem Built.mem_topLevelIds (h : Built spans t) :
    id ∈ t.topLevelIds ↔
      id ∈ t.groups.map (·.id) ∧ (treeLinks spans).lookup id = some none := by
  rw [h.topLevelIds_eq]
  exact h.linked.mem_ids_groupsUnder

/-- The ids above a node are the way up along the links, then the missing parent of the top. -/
theorem Built.ancestorIds_eq (h : Built spans t) (hid : id ∈ t.groups.map (·.id)) :
    ∃ way top, Ascent (treeLinks spans) (some id) (id :: way) ∧ [top] <:+ id :: way ∧
      t.ancestorIds id = way ++ (t.missingParents.lookup top).toList := by
  obtain ⟨p, hfind, rfl⟩ := h.exists_placement hid
  obtain ⟨-, hplace⟩ := h.placement (h.placement?_eq_some.mp hfind).1
  simpa [ancestorIds, hfind] using hplace

/-- Above a node are its parent and the ids above that. -/
theorem Built.ancestorIds_child (h : Built spans t) (hid : id ∈ t.childIds parent) :
    t.ancestorIds id = parent :: t.ancestorIds parent := by
  obtain ⟨hmem, hlink⟩ := h.mem_childIds.mp hid
  obtain ⟨g, hg, rfl⟩ := List.mem_map.mp hmem
  obtain ⟨way, top, hway, htop, heq⟩ := h.ancestorIds_eq hmem
  obtain ⟨way', top', hway', htop', heq'⟩ := h.ancestorIds_eq (h.linked.closed g hg parent hlink)
  obtain rfl := (List.cons.inj (hway.unique (.link hlink hway'))).2
  have hsuffix := List.suffix_of_suffix_length_le htop (htop'.trans (List.suffix_cons _ _))
    (Nat.le_refl _)
  have hsame : [top] = [top'] := hsuffix.eq_of_length rfl
  rw [heq, heq', (List.cons.inj hsame).1]
  rfl

/-- Above a top node is nothing in the tree. -/
theorem Built.ancestorIds_top (h : Built spans t) (hid : id ∈ t.topLevelIds) :
    t.ancestorIds id = (t.missingParents.lookup id).toList := by
  obtain ⟨hmem, hlink⟩ := h.mem_topLevelIds.mp hid
  obtain ⟨way, top, hway, htop, heq⟩ := h.ancestorIds_eq hmem
  obtain rfl := (List.cons.inj (hway.unique (.link hlink .top))).2
  have hsame := htop.eq_of_length rfl
  rw [heq, (List.cons.inj hsame).1]
  rfl

theorem Built.not_mem_of_mem_ancestorIds_top (h : Built spans t) (hid : id ∈ t.topLevelIds)
    {above : Text} (habove : above ∈ t.ancestorIds id) : above ∉ t.groups.map (·.id) := by
  rw [h.ancestorIds_top hid, Option.mem_toList] at habove
  exact h.missing_not_mem habove

end

end TraceExplorer.TraceTree
