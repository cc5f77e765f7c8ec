import TraceExplorer.Proofs.Tree.GroupIndex
import TraceExplorer.Proofs.Tree.ParentLinks
import TraceExplorer.Proofs.Tree.Walk

/-!
# Growing a forest from parent links

Where every parent is a group and no links run in a circle, the trees grown from the groups
without a parent hold every group exactly once: the way up from a group tells in which subtree it
stands, and that way is never longer than the number of groups.
-/

namespace TraceExplorer.TraceTree

open ParentMap (Ascent Grounded)

/-- Groups with distinct ids and their parent links: a parent is a group, and all links end. -/
structure Linked (groups : List SpanGroup) (parents : ParentMap) : Prop where
  nodup : (groups.map (·.id)).Nodup
  keys : parents.map (·.1) = groups.map (·.id)
  closed : ∀ g ∈ groups, ∀ parent, parents.lookup g.id = some (some parent) →
    parent ∈ groups.map (·.id)
  grounded : ∀ g ∈ groups, Grounded parents (some g.id)

/-- The subtrees under every node are those of the groups linked to it, in order. -/
inductive Grown (links : List (SpanGroup × Option Text)) : Tree SpanGroup → Prop
  | node {g : SpanGroup} {ts : List (Tree SpanGroup)}
      (labels : ts.map (·.label) = groupsUnder links (some g.id))
      (below : ∀ t ∈ ts, Grown links t) : Grown links (.node g ts)

def forest (groups : List SpanGroup) (parents : ParentMap) : List (Tree SpanGroup) :=
  let links := linkGroups groups parents
  (groupsUnder links none).map (grow links groups.length)

section

variable {groups : List SpanGroup} {parents : ParentMap} {above : List Text}
  {node : Option Text} {g a b : SpanGroup} {t : Tree SpanGroup} {ts : List (Tree SpanGroup)}

/-! ## The groups under a node -/

theorem groupsUnder_linkGroups (groups : List SpanGroup) (parents : ParentMap)
    (node : Option Text) :
    groupsUnder (linkGroups groups parents) node =
      sortByTime (groups.filter fun g => (parents.lookup g.id).join == node) := by
  rw [groupsUnder, linkGroups, List.filter_map, List.map_map]
  exact congrArg sortByTime (List.map_id _)

theorem groupsUnder_perm (groups : List SpanGroup) (parents : ParentMap) (node : Option Text) :
    (groupsUnder (linkGroups groups parents) node).Perm
      (groups.filter fun g => (parents.lookup g.id).join == node) := by
  rw [groupsUnder_linkGroups]
  exact List.mergeSort_perm _ _

theorem Linked.isSome_lookup (h : Linked groups parents) (hg : g ∈ groups) :
    (parents.lookup g.id).isSome :=
  KeyedList.isSome_lookup_iff.mpr (h.keys ▸ List.mem_map_of_mem hg)

theorem Linked.mem_groupsUnder (h : Linked groups parents) :
    g ∈ groupsUnder (linkGroups groups parents) node ↔
      g ∈ groups ∧ parents.lookup g.id = some node := by
  rw [(groupsUnder_perm groups parents node).mem_iff, List.mem_filter, beq_iff_eq]
  refine and_congr_right fun hg => ?_
  obtain ⟨parent, hparent⟩ := Option.isSome_iff_exists.mp (h.isSome_lookup hg)
  simp [hparent]

theorem Linked.mem_ids_groupsUnder {id : Text} (h : Linked groups parents) :
    id ∈ (groupsUnder (linkGroups groups parents) node).map (·.id) ↔
      id ∈ groups.map (·.id) ∧ parents.lookup id = some node := by
  simp only [List.mem_map, h.mem_groupsUnder]
  constructor
  · rintro ⟨g, ⟨hg, hlink⟩, rfl⟩
    exact ⟨⟨g, hg, rfl⟩, hlink⟩
  · rintro ⟨⟨g, hg, rfl⟩, hlink⟩
    exact ⟨g, ⟨hg, hlink⟩, rfl⟩

theorem Linked.nodup_groupsUnder (h : Linked groups parents) (node : Option Text) :
    ((groupsUnder (linkGroups groups parents) node).map (·.id)).Nodup :=
  (((groupsUnder_perm groups parents node).map _).nodup_iff).mpr
    (h.nodup.sublist (List.filter_sublist.map _))

theorem Linked.ascent_under (h : Linked groups parents)
    (hg : g ∈ groupsUnder (linkGroups groups parents) node)
    (habove : Ascent parents node above) : Ascent parents (some g.id) (g.id :: above) :=
  .link (h.mem_groupsUnder.mp hg).2 habove

/-! ## Growing -/

@[simp] theorem label_grow (links : List (SpanGroup × Option Text)) (levels : Nat)
    (g : SpanGroup) : (grow links levels g).label = g := by
  cases levels <;> rfl

theorem map_label_grow (links : List (SpanGroup × Option Text)) (levels : Nat)
    (gs : List SpanGroup) : (gs.map (grow links levels)).map (·.label) = gs := by
  rw [List.map_map]
  exact (List.map_congr_left fun g _ => label_grow links levels g).trans (List.map_id gs)

/-- The number of levels suffices if it exceeds the nodes that are not above the group. -/
theorem Linked.grown_grow (h : Linked groups parents) {levels : Nat}
    (habove : Ascent parents (some g.id) above)
    (hlevels : groups.length < levels + above.length) :
    Grown (linkGroups groups parents) (grow (linkGroups groups parents) levels g) := by
  induction levels generalizing g above with
  | zero =>
      have hlen := habove.length_le
      have hkeys := congrArg List.length h.keys
      simp only [List.length_map] at hkeys
      omega
  | succ levels ih =>
      refine .node (map_label_grow _ _ _) fun t ht => ?_
      obtain ⟨child, hchild, rfl⟩ := List.mem_map.mp ht
      apply ih (h.ascent_under hchild habove)
      rw [List.length_cons]
      omega

theorem Linked.grown_forest (h : Linked groups parents) (ht : t ∈ forest groups parents) :
    Grown (linkGroups groups parents) t := by
  obtain ⟨g, hg, rfl⟩ := List.mem_map.mp ht
  exact h.grown_grow (h.ascent_under hg .top) (by simp)

theorem map_label_forest (groups : List SpanGroup) (parents : ParentMap) :
    (forest groups parents).map (·.label) = groupsUnder (linkGroups groups parents) none :=
  map_label_grow _ _ _

/-! ## Every group stands in one place -/

theorem Linked.label_mem (h : Linked groups parents)
    (hlabels : ts.map (·.label) = groupsUnder (linkGroups groups parents) node) (ht : t ∈ ts) :
    t.label ∈ groups :=
  (h.mem_groupsUnder.mp (hlabels ▸ List.mem_map_of_mem ht)).1

theorem Linked.ascent_label (h : Linked groups parents)
    (hlabels : ts.map (·.label) = groupsUnder (linkGroups groups parents) node)
    (habove : Ascent parents node above) (ht : t ∈ ts) :
    Ascent parents (some t.label.id) (t.label.id :: above) :=
  h.ascent_under (hlabels ▸ List.mem_map_of_mem ht) habove

theorem Grown.preorder_subset (ht : Grown (linkGroups groups parents) t)
    (h : Linked groups parents) (hlabel : t.label ∈ groups) : t.preorder ⊆ groups := by
  induction ht with
  | node labels _ ih =>
      rw [Tree.preorder_node]
      refine List.cons_subset.mpr ⟨hlabel, fun a ha => ?_⟩
      obtain ⟨t, ht, ha⟩ := List.mem_flatMap.mp ha
      exact ih t ht (h.label_mem labels ht) ha

/-- A group linked to a group of a tree is in that tree too. -/
theorem Grown.mem_preorder (ht : Grown (linkGroups groups parents) t) (ha : a ∈ t.preorder)
    (hb : b ∈ groupsUnder (linkGroups groups parents) (some a.id)) : b ∈ t.preorder := by
  induction ht with
  | node labels _ ih =>
      rw [Tree.preorder_node] at ha ⊢
      refine List.mem_cons_of_mem _ (List.mem_flatMap.mpr ?_)
      rcases List.mem_cons.mp ha with rfl | ha
      · obtain ⟨t, ht, rfl⟩ := List.mem_map.mp (labels ▸ hb)
        exact ⟨t, ht, t.label_mem_preorder⟩
      · obtain ⟨t, ht, ha⟩ := List.mem_flatMap.mp ha
        exact ⟨t, ht, ih t ht ha⟩

/-- The way up from a group of a tree leads through the top of that tree. -/
theorem Grown.ascent (ht : Grown (linkGroups groups parents) t) (h : Linked groups parents)
    (habove : Ascent parents (some t.label.id) above) (ha : a ∈ t.preorder) :
    ∃ way, Ascent parents (some a.id) way ∧ above <:+ way := by
  induction ht generalizing above with
  | node labels _ ih =>
      rw [Tree.preorder_node] at ha
      rcases List.mem_cons.mp ha with rfl | ha
      · exact ⟨above, habove, List.suffix_refl _⟩
      · obtain ⟨t, ht, ha⟩ := List.mem_flatMap.mp ha
        obtain ⟨way, hway, hsuffix⟩ := ih t ht (h.ascent_label labels habove ht) ha
        exact ⟨way, hway, (List.suffix_cons _ _).trans hsuffix⟩

/-- Trees side by side share no group. -/
theorem Linked.nodup_flatMap_preorder (h : Linked groups parents)
    (hlabels : ts.map (·.label) = groupsUnder (linkGroups groups parents) node)
    (habove : Ascent parents node above)
    (hts : ∀ t ∈ ts, Grown (linkGroups groups parents) t ∧ t.preorder.Nodup) :
    (ts.flatMap Tree.preorder).Nodup := by
  refine List.nodup_flatMap.mpr ⟨fun t ht => (hts t ht).2, ?_⟩
  have hne : ts.Pairwise fun t u => t.label.id ≠ u.label.id := by
    have hids := h.nodup_groupsUnder node
    rw [← hlabels, List.map_map] at hids
    exact List.pairwise_map.mp hids
  refine hne.imp_of_mem fun {t u} ht hu hid => ?_
  change List.Disjoint t.preorder u.preorder
  intro a hat hau
  -- The ways up through both trees would be one way with two different nodes at one place.
  obtain ⟨way, hway, hsuffix⟩ := (hts t ht).1.ascent h (h.ascent_label hlabels habove ht) hat
  obtain ⟨way', hway', hsuffix'⟩ := (hts u hu).1.ascent h (h.ascent_label hlabels habove hu) hau
  rw [← hway.unique hway'] at hsuffix'
  have heq := (List.suffix_of_suffix_length_le hsuffix hsuffix' (by simp)).eq_of_length (by simp)
  exact hid (List.cons.inj heq).1

theorem Grown.nodup_preorder (ht : Grown (linkGroups groups parents) t)
    (h : Linked groups parents) (habove : Ascent parents (some t.label.id) above) :
    t.preorder.Nodup := by
  induction ht generalizing above with
  | @node g ts labels below ih =>
      rw [Tree.preorder_node]
      refine List.nodup_cons.mpr ⟨fun hg => ?_, ?_⟩
      · obtain ⟨t, ht, hg⟩ := List.mem_flatMap.mp hg
        obtain ⟨way, hway, hsuffix⟩ := (below t ht).ascent h (h.ascent_label labels habove ht) hg
        have hlen := hsuffix.length_le
        rw [← habove.unique hway, List.length_cons] at hlen
        omega
      · exact h.nodup_flatMap_preorder labels habove fun t ht =>
          ⟨below t ht, ih t ht (h.ascent_label labels habove ht)⟩

theorem Linked.nodup_forest (h : Linked groups parents) :
    ((forest groups parents).flatMap Tree.preorder).Nodup :=
  h.nodup_flatMap_preorder (map_label_forest _ _) .top fun _ ht =>
    ⟨h.grown_forest ht, (h.grown_forest ht).nodup_preorder h
      (h.ascent_label (map_label_forest _ _) .top ht)⟩

/-- Going up from a group leads to a top node of the forest, and down again to the group. -/
theorem Linked.mem_forest (h : Linked groups parents) (hg : g ∈ groups) :
    g ∈ (forest groups parents).flatMap Tree.preorder := by
  obtain ⟨above, habove⟩ := h.grounded g hg
  generalize hnode : some g.id = node at habove
  induction habove generalizing g with
  | top => simp at hnode
  | outside unknown =>
      obtain rfl := Option.some.inj hnode
      simpa [unknown] using h.isSome_lookup hg
  | @link id parent _ found _ ih =>
      obtain rfl := Option.some.inj hnode
      cases parent with
      | none =>
          have htop := h.mem_groupsUnder.mpr ⟨hg, found⟩
          rw [← map_label_forest] at htop
          obtain ⟨t, ht, rfl⟩ := List.mem_map.mp htop
          exact List.mem_flatMap.mpr ⟨t, ht, t.label_mem_preorder⟩
      | some parent =>
          obtain ⟨p, hp, rfl⟩ := List.mem_map.mp (h.closed g hg parent found)
          obtain ⟨t, ht, hpt⟩ := List.mem_flatMap.mp (ih hp rfl)
          exact List.mem_flatMap.mpr ⟨t, ht,
            (h.grown_forest ht).mem_preorder hpt (h.mem_groupsUnder.mpr ⟨hg, found⟩)⟩

/-- The forest holds every group once and nothing else. -/
theorem Linked.forest_perm (h : Linked groups parents) :
    ((forest groups parents).flatMap Tree.preorder).Perm groups := by
  refine (List.perm_ext_iff_of_nodup h.nodup_forest (List.Nodup.of_map _ h.nodup)).mpr fun g =>
    ⟨fun hg => ?_, h.mem_forest⟩
  obtain ⟨t, ht, hg⟩ := List.mem_flatMap.mp hg
  exact (h.grown_forest ht).preorder_subset h (h.label_mem (map_label_forest _ _) ht) hg

/-! ## Places -/

/-- The place of a node lists the groups linked to it, and above it the way up to the top of its
tree, followed by what stands above the tree. -/
theorem Grown.place (ht : Grown (linkGroups groups parents) t) (h : Linked groups parents)
    (habove : Ascent parents (some t.label.id) (t.label.id :: above)) {depth : Nat}
    {beyond : List Text} {p : Placement} (hp : p ∈ place depth (above ++ beyond) t) :
    p.childIds = (groupsUnder (linkGroups groups parents) (some p.id)).map (·.id) ∧
      ∃ way, Ascent parents (some p.id) (p.id :: way) ∧ t.label.id :: above <:+ p.id :: way ∧
        p.ancestorIds = way ++ beyond := by
  induction ht generalizing above depth with
  | @node g ts labels _ ih =>
      rw [place_node] at hp
      rcases List.mem_cons.mp hp with rfl | hp
      · refine ⟨?_, above, habove, List.suffix_refl _, rfl⟩
        rw [Placement.id, ← labels, List.map_map]
        rfl
      · obtain ⟨t, ht, hp⟩ := List.mem_flatMap.mp hp
        have hchild := h.ascent_label labels habove ht
        obtain ⟨hbelow, way, hway, hsuffix, heq⟩ := ih t ht hchild hp
        exact ⟨hbelow, way, hway, (List.suffix_cons _ _).trans hsuffix, heq⟩

end

end TraceExplorer.TraceTree
