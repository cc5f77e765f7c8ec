import TraceExplorer.Proofs.Positions
import TraceExplorer.Proofs.Tree.Forest
import TraceExplorer.Proofs.Tree.Order

/-!
# Subtrees in a walk by depth

A walk by depth lists a node and all nodes below it in one piece: first the node, then the pieces
of its children in their order.
-/

namespace TraceExplorer.TraceTree

/-- The ids of a node and of all nodes below it, by depth. -/
def subtreeIds (t : TraceTree) (id : Text) : List Text :=
  (t.nodes.map (·.id)).filter fun x => x = id ∨ id ∈ t.ancestorIds x

/-- The walk by depth is made of the pieces of the top nodes, and the piece of a node of that node
and the pieces of its children. -/
structure WalksSubtrees (t : TraceTree) : Prop where
  once : (t.nodes.map (·.id)).Nodup
  whole : t.nodes.map (·.id) = t.topLevelIds.flatMap t.subtreeIds
  piece : ∀ id ∈ t.nodes.map (·.id),
    t.subtreeIds id = id :: (t.childIds id).flatMap t.subtreeIds
  contiguous : ∀ id ∈ t.nodes.map (·.id), t.subtreeIds id <:+: t.nodes.map (·.id)
  above_first : ∀ id ∈ t.nodes.map (·.id), ∀ below, id ∈ t.ancestorIds below →
    [id, below].Sublist (t.nodes.map (·.id))

section

variable {spans : List Span} {t : TraceTree} {b : Tree SpanGroup} {g : SpanGroup}
  {ts : List (Tree SpanGroup)} {p : Placement} {id x : Text} {depth : Nat} {beyond : List Text}

/-! ## Below a node -/

/-- What holds of a node and is handed down to children holds of all nodes below it. -/
theorem Built.below_induction (h : Built spans t) {P : Text → Prop}
    (hid : id ∈ t.groups.map (·.id)) (hP : P id)
    (hchild : ∀ parent, ∀ child ∈ t.childIds parent, P parent → P child)
    (hx : id ∈ t.ancestorIds x) : P x := by
  induction hway : t.ancestorIds x generalizing x with
  | nil => simp [hway] at hx
  | cons first rest ih =>
      have hknown : x ∈ t.groups.map (·.id) := by
        by_contra hunknown
        simp [h.ancestorIds_of_not_mem hunknown] at hway
      rcases h.top_or_child hknown with htop | ⟨parent, hparent⟩
      · exact absurd hid (h.not_mem_of_mem_ancestorIds_top htop hx)
      · have hsplit := h.ancestorIds_child hparent
        obtain ⟨-, rfl⟩ := List.cons.inj (hway.symm.trans hsplit)
        apply hchild parent x hparent
        rcases List.mem_cons.mp (hsplit ▸ hx) with rfl | habove
        · exact hP
        · exact ih habove rfl

theorem Built.not_mem_ancestorIds_self (h : Built spans t) (hid : id ∈ t.groups.map (·.id)) :
    id ∉ t.ancestorIds id := by
  obtain ⟨way, top, hway, -, heq⟩ := h.ancestorIds_eq hid
  rw [heq, List.mem_append, not_or]
  refine ⟨(List.nodup_cons.mp hway.nodup).1, fun hmissing => ?_⟩
  exact h.missing_not_mem (Option.mem_toList.mp hmissing) hid

/-! ## Pieces -/

theorem infix_place_child (hb : b ∈ ts) :
    place (depth + 1) (g.id :: beyond) b <:+: place depth beyond (.node g ts) := by
  rw [place_node]
  exact List.infix_cons (List.infix_of_mem_flatten (List.mem_map_of_mem hb))

theorem exists_part_of_mem_place (hp : p ∈ place depth beyond b) :
    ∃ ts, p.childIds = ts.map (·.label.id) ∧
      place p.depth p.ancestorIds (.node p.group ts) <:+: place depth beyond b := by
  induction b using Tree.childInduction generalizing depth beyond with
  | node g ts ih =>
      rw [place_node] at hp
      rcases List.mem_cons.mp hp with rfl | hp
      · exact ⟨ts, rfl, List.infix_rfl⟩
      · obtain ⟨b, hb, hp⟩ := List.mem_flatMap.mp hp
        obtain ⟨us, hchildren, hpart⟩ := ih b hb hp
        exact ⟨us, hchildren, hpart.trans (infix_place_child hb)⟩

/-- A part of the walk that is the walk of one tree has the node at its top and all below it. -/
theorem Built.subtreeIds_eq (h : Built spans t) (hpart : place depth beyond b <:+: t.placements) :
    t.subtreeIds b.label.id = b.preorder.map (·.id) := by
  have hmem {q : Placement} (hq : q ∈ place depth beyond b) : q ∈ t.placements := hpart.subset hq
  have hids := map_id_place b depth beyond
  have hpiece : b.preorder.map (·.id) <:+: t.nodes.map (·.id) := by
    rw [← hids, ← map_id_placements]
    exact hpart.map _
  have htop : b.label.id ∈ b.preorder.map (·.id) := List.mem_map_of_mem b.label_mem_preorder
  refine Positions.filter_eq_of_infix h.nodup_ids hpiece fun x _ => ?_
  rw [decide_eq_true_eq]
  constructor
  · rintro (rfl | habove)
    · exact htop
    · refine h.below_induction (h.mem_groups_iff.mpr (h.mem_ids.mp (hpiece.subset htop))) htop
        (fun parent child hchild hparent => ?_) habove
      rw [← hids] at hparent
      obtain ⟨q, hq, rfl⟩ := List.mem_map.mp hparent
      rw [h.childIds_placement (hmem hq)] at hchild
      exact (children_sublist_place hq).subset (List.mem_cons_of_mem _ hchild)
  · intro hx
    rw [← hids] at hx
    obtain ⟨q, hq, rfl⟩ := List.mem_map.mp hx
    rw [h.ancestorIds_placement (hmem hq)]
    obtain ⟨g, ts⟩ := b
    rw [place_node] at hq
    rcases List.mem_cons.mp hq with rfl | hq
    · exact .inl rfl
    · obtain ⟨c, -, hq⟩ := List.mem_flatMap.mp hq
      obtain ⟨way, hway, -⟩ := exists_way_of_mem_place hq
      rw [hway]
      exact .inr (List.mem_append_right _ List.mem_cons_self)

theorem exists_part_of_mem_placements (hp : p ∈ t.placements) :
    ∃ ts, p.childIds = ts.map (·.label.id) ∧
      place p.depth p.ancestorIds (.node p.group ts) <:+: t.placements := by
  obtain ⟨b, hb, hp⟩ := List.mem_flatMap.mp hp
  obtain ⟨ts, hchildren, hpart⟩ := exists_part_of_mem_place hp
  exact ⟨ts, hchildren, hpart.trans (List.infix_of_mem_flatten (List.mem_map_of_mem hb))⟩

theorem Built.subtreeIds_cons (h : Built spans t) (hid : id ∈ t.nodes.map (·.id)) :
    t.subtreeIds id = id :: (t.childIds id).flatMap t.subtreeIds := by
  obtain ⟨p, hp, rfl⟩ := mem_ids_nodes.mp hid
  obtain ⟨ts, hchildren, hpart⟩ := exists_part_of_mem_placements hp
  have hbelow : ∀ b ∈ ts, t.subtreeIds b.label.id = b.preorder.map (·.id) := fun b hb =>
    h.subtreeIds_eq ((infix_place_child hb).trans hpart)
  have hwhole := h.subtreeIds_eq hpart
  rw [Tree.preorder_node, List.map_cons, List.map_flatMap] at hwhole
  rw [h.childIds_placement hp, hchildren, List.flatMap_map, List.flatMap_congr hbelow]
  exact hwhole

theorem Built.flatMap_subtreeIds (h : Built spans t) :
    t.nodes.map (·.id) = t.topLevelIds.flatMap t.subtreeIds := by
  rw [ids_nodes, topLevelIds, List.flatMap_map]
  refine List.flatMap_congr fun b hb => ?_
  have hpart : place 0 (t.missingParents.lookup b.label.id).toList b <:+: t.placements :=
    List.infix_of_mem_flatten (List.mem_map_of_mem hb)
  exact (h.subtreeIds_eq hpart).symm

theorem Built.infix_subtreeIds (h : Built spans t) (hid : id ∈ t.nodes.map (·.id)) :
    t.subtreeIds id <:+: t.nodes.map (·.id) := by
  obtain ⟨p, hp, rfl⟩ := mem_ids_nodes.mp hid
  obtain ⟨ts, -, hpart⟩ := exists_part_of_mem_placements hp
  have hwhole := h.subtreeIds_eq hpart
  rw [← map_id_place _ p.depth p.ancestorIds] at hwhole
  rw [← map_id_placements]
  exact hwhole ▸ hpart.map _

theorem Built.mem_subtreeIds_of_above (h : Built spans t) (habove : id ∈ t.ancestorIds x) :
    x ∈ t.subtreeIds id := by
  have hx : x ∈ t.groups.map (·.id) := by
    by_contra hunknown
    simp [h.ancestorIds_of_not_mem hunknown] at habove
  refine List.mem_filter.mpr ⟨h.mem_ids.mpr (h.mem_groups_iff.mp hx), ?_⟩
  exact decide_eq_true (.inr habove)

theorem Built.walksSubtrees (h : Built spans t) : WalksSubtrees t where
  once := h.nodup_ids
  whole := h.flatMap_subtreeIds
  piece _ := h.subtreeIds_cons
  contiguous _ := h.infix_subtreeIds
  above_first := by
    intro id hid below habove
    have hmem := h.mem_subtreeIds_of_above habove
    have hne : below ≠ id := by
      rintro rfl
      exact h.not_mem_ancestorIds_self (h.mem_groups_iff.mpr (h.mem_ids.mp hid)) habove
    apply List.Sublist.trans ?_ (h.infix_subtreeIds hid).sublist
    rw [h.subtreeIds_cons hid] at hmem ⊢
    exact (List.singleton_sublist.mpr ((List.mem_cons.mp hmem).resolve_left hne)).cons_cons id

end

end TraceExplorer.TraceTree
