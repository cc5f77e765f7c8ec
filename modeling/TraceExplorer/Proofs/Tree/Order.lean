import TraceExplorer.Proofs.Tree.Ancestry

/-!
# The order of a walk by depth

A walk by depth lists the nodes of a tree as an outline does. The children of a node come after it
in their order, and between a node and its child stand only nodes below it. How deep a node is
placed is the number of nodes above it.
-/

namespace TraceExplorer

/-- The child comes after the parent in the list, and only ids below the parent stand in between. -/
def StandsUnder (above : Text → List Text) (ids : List Text) (parent child : Text) : Prop :=
  ∃ front between back, ids = front ++ parent :: (between ++ child :: back) ∧
    ∀ id ∈ between, parent ∈ above id

section

variable {above : Text → List Text} {ids : List Text} {parent child : Text}

theorem StandsUnder.append (h : StandsUnder above ids parent child) (before after : List Text) :
    StandsUnder above (before ++ ids ++ after) parent child := by
  obtain ⟨front, between, back, rfl, hbetween⟩ := h
  exact ⟨before ++ front, between, back ++ after, by simp, hbetween⟩

theorem StandsUnder.cons (h : StandsUnder above ids parent child) (first : Text) :
    StandsUnder above (first :: ids) parent child := by
  simpa using h.append [first] []

theorem StandsUnder.flatMap {α : Type} {parts : List α} {part : α} {idsOf : α → List Text}
    (hpart : part ∈ parts) (h : StandsUnder above (idsOf part) parent child) :
    StandsUnder above (parts.flatMap idsOf) parent child := by
  obtain ⟨before, after, rfl⟩ := List.append_of_mem hpart
  rw [List.flatMap_append, List.flatMap_cons, ← List.append_assoc]
  exact h.append _ _

/-- Ids that are left out leave the others under their parents. -/
theorem StandsUnder.filter (h : StandsUnder above ids parent child) {test : Text → Bool}
    (hparent : test parent) (hchild : test child) :
    StandsUnder above (ids.filter test) parent child := by
  obtain ⟨front, between, back, rfl, hbetween⟩ := h
  refine ⟨front.filter test, between.filter test, back.filter test, ?_, fun id hid => ?_⟩
  · rw [List.filter_append, List.filter_cons_of_pos hparent, List.filter_append,
      List.filter_cons_of_pos hchild]
  · exact hbetween id (List.mem_filter.mp hid).1

end

namespace TraceTree

def levelOf (t : TraceTree) (id : Text) : Nat :=
  (t.ancestorIds id).countP fun above => above ∈ t.nodes.map (·.id)

section

variable {above : Text → List Text} {depth : Nat} {beyond : List Text} {p : Placement}
  {b : Tree SpanGroup}

/-! ## One tree -/

theorem map_id_place (b : Tree SpanGroup) (depth : Nat) (beyond : List Text) :
    (place depth beyond b).map (·.id) = b.preorder.map (·.id) := by
  rw [← map_group_place b depth beyond, List.map_map]
  rfl

/-- The ids above a placed node are ids of its tree, as many as it is deep, and those beyond. -/
theorem exists_way_of_mem_place (hp : p ∈ place depth beyond b) :
    ∃ way, p.ancestorIds = way ++ beyond ∧ p.depth = depth + way.length ∧
      way ⊆ b.preorder.map (·.id) := by
  induction b using Tree.childInduction generalizing depth beyond with
  | node g ts ih =>
      rw [place_node] at hp
      rcases List.mem_cons.mp hp with rfl | hp
      · exact ⟨[], rfl, rfl, List.nil_subset _⟩
      · obtain ⟨b, hb, hp⟩ := List.mem_flatMap.mp hp
        obtain ⟨way, habove, hdepth, hway⟩ := ih b hb hp
        refine ⟨way ++ [g.id], by simp [habove], ?_, ?_⟩
        · rw [hdepth, List.length_append, List.length_singleton]
          omega
        · rw [Tree.preorder_node, List.map_cons, List.map_flatMap]
          intro id hid
          rcases List.mem_append.mp hid with hid | hid
          · exact List.mem_cons_of_mem _ (List.mem_flatMap.mpr ⟨b, hb, hway hid⟩)
          · obtain rfl := List.mem_singleton.mp hid
            exact List.mem_cons_self

theorem children_sublist_place (hp : p ∈ place depth beyond b) :
    (p.id :: p.childIds).Sublist (b.preorder.map (·.id)) := by
  induction b using Tree.childInduction generalizing depth beyond with
  | node g ts ih =>
      rw [place_node] at hp
      rw [Tree.preorder_node, List.map_cons]
      rcases List.mem_cons.mp hp with rfl | hp
      · refine List.Sublist.cons_cons g.id ?_
        have hlabels := (Tree.map_label_sublist ts).map (·.id)
        rwa [List.map_map] at hlabels
      · obtain ⟨b, hb, hp⟩ := List.mem_flatMap.mp hp
        exact ((ih b hb hp).trans ((Tree.preorder_sublist hb).map _)).cons g.id

theorem standsUnder_label {g : SpanGroup} {ts : List (Tree SpanGroup)} (hb : b ∈ ts)
    (habove : ∀ b ∈ ts, ∀ q ∈ place depth (g.id :: beyond) b, above q.id = q.ancestorIds) :
    StandsUnder above ((Tree.node g ts).preorder.map (·.id)) g.id b.label.id := by
  -- Between a node and a child stand the trees of the earlier children.
  obtain ⟨front, back, rfl⟩ := List.append_of_mem hb
  obtain ⟨a, us⟩ := b
  refine ⟨[], (front.flatMap Tree.preorder).map (·.id),
    ((us ++ back).flatMap Tree.preorder).map (·.id), by simp [Tree.label], fun id hid => ?_⟩
  rw [List.map_flatMap] at hid
  obtain ⟨b, hb, hid⟩ := List.mem_flatMap.mp hid
  rw [← map_id_place b depth (g.id :: beyond)] at hid
  obtain ⟨q, hq, rfl⟩ := List.mem_map.mp hid
  obtain ⟨way, hway, -⟩ := exists_way_of_mem_place hq
  rw [habove b (List.mem_append_left _ hb) q hq, hway]
  exact List.mem_append_right _ List.mem_cons_self

/-- A node is at the top of its tree or stands under a parent. -/
theorem standsUnder_place (habove : ∀ q ∈ place depth beyond b, above q.id = q.ancestorIds)
    (hp : p ∈ place depth beyond b) :
    p.id = b.label.id ∨ ∃ q ∈ place depth beyond b, p.id ∈ q.childIds ∧
      StandsUnder above (b.preorder.map (·.id)) q.id p.id := by
  induction b using Tree.childInduction generalizing depth beyond with
  | node g ts ih =>
      rw [place_node] at hp habove
      obtain ⟨-, hbelow⟩ := List.forall_mem_cons.mp habove
      rcases List.mem_cons.mp hp with rfl | hp
      · exact .inl rfl
      · right
        obtain ⟨b, hb, hp⟩ := List.mem_flatMap.mp hp
        have hinside : ∀ q ∈ place (depth + 1) (g.id :: beyond) b, above q.id = q.ancestorIds :=
          fun q hq => hbelow q (List.mem_flatMap.mpr ⟨b, hb, hq⟩)
        rcases ih b hb hinside hp with htop | ⟨q, hq, hchild, hunder⟩
        · refine ⟨_, place_node depth beyond g ts ▸ List.mem_cons_self, ?_, ?_⟩
          · rw [htop]
            exact List.mem_map_of_mem hb
          · rw [htop]
            exact standsUnder_label hb fun b hb q hq => hbelow q (List.mem_flatMap.mpr ⟨b, hb, hq⟩)
        · refine ⟨q, place_node depth beyond g ts ▸ List.mem_cons_of_mem _
            (List.mem_flatMap.mpr ⟨b, hb, hq⟩), hchild, ?_⟩
          rw [Tree.preorder_node, List.map_cons, List.map_flatMap]
          apply StandsUnder.cons
          exact StandsUnder.flatMap hb hunder

end

/-! ## All trees -/

section

variable {spans : List Span} {t : TraceTree} {id : Text} {p : Placement}

theorem ids_nodes (t : TraceTree) :
    t.nodes.map (·.id) = t.branches.flatMap fun b => b.preorder.map (·.id) := by
  rw [nodes, Tree.depthFirst_eq_flatMap, List.map_flatMap]

theorem Built.ancestorIds_placement (h : Built spans t) (hp : p ∈ t.placements) :
    t.ancestorIds p.id = p.ancestorIds := by
  rw [ancestorIds, h.placement?_eq_some.mpr ⟨hp, rfl⟩]
  rfl

theorem Built.childIds_placement (h : Built spans t) (hp : p ∈ t.placements) :
    t.childIds p.id = p.childIds := by
  rw [childIds, h.placement?_eq_some.mpr ⟨hp, rfl⟩]
  rfl

/-- A node is placed as deep as there are nodes above it. The missing parent does not count. -/
theorem Built.depth_placement (h : Built spans t) (hp : p ∈ t.placements) :
    p.depth = t.levelOf p.id := by
  rw [levelOf, h.ancestorIds_placement hp]
  obtain ⟨b, hb, hp⟩ := List.mem_flatMap.mp hp
  obtain ⟨way, habove, hdepth, hway⟩ := exists_way_of_mem_place hp
  have hknown : way.countP (fun above => above ∈ t.nodes.map (·.id)) = way.length := by
    rw [List.countP_eq_length]
    intro id hid
    rw [decide_eq_true_eq, ids_nodes]
    exact List.mem_flatMap.mpr ⟨b, hb, hway hid⟩
  have hmissing : (t.missingParents.lookup b.label.id).toList.countP
      (fun above => above ∈ t.nodes.map (·.id)) = 0 := by
    rw [List.countP_eq_zero]
    intro id hid
    rw [decide_eq_true_eq, (h.nodes_perm.map _).mem_iff, ← h.groups]
    exact h.missing_not_mem (Option.mem_toList.mp hid)
  rw [hdepth, habove, List.countP_append, hknown, hmissing, Nat.zero_add, Nat.add_zero]

theorem Built.children_sublist (h : Built spans t) (hid : id ∈ t.nodes.map (·.id)) :
    (id :: t.childIds id).Sublist (t.nodes.map (·.id)) := by
  obtain ⟨p, hp, rfl⟩ := mem_ids_nodes.mp hid
  rw [h.childIds_placement hp]
  obtain ⟨b, hb, hp⟩ := List.mem_flatMap.mp hp
  refine (children_sublist_place hp).trans ?_
  rw [nodes, Tree.depthFirst_eq_flatMap]
  exact (Tree.preorder_sublist hb).map _

/-- A node that is no top node stands under its parent. -/
theorem Built.standsUnder (h : Built spans t) (hid : id ∈ t.nodes.map (·.id))
    (hnot : id ∉ t.topLevelIds) :
    ∃ parent, id ∈ t.childIds parent ∧
      StandsUnder t.ancestorIds (t.nodes.map (·.id)) parent id := by
  obtain ⟨p, hp, rfl⟩ := mem_ids_nodes.mp hid
  obtain ⟨b, hb, hplace⟩ := List.mem_flatMap.mp hp
  have hmem {q : Placement}
      (hq : q ∈ place 0 (t.missingParents.lookup b.label.id).toList b) : q ∈ t.placements :=
    List.mem_flatMap.mpr ⟨b, hb, hq⟩
  rcases standsUnder_place (fun q hq => h.ancestorIds_placement (hmem hq)) hplace with
    htop | ⟨q, hq, hchild, hunder⟩
  · exact absurd (htop ▸ List.mem_map_of_mem hb) hnot
  · refine ⟨q.id, (h.childIds_placement (hmem hq)).symm ▸ hchild, ?_⟩
    rw [ids_nodes]
    exact StandsUnder.flatMap hb hunder

end

end TraceTree

end TraceExplorer
