import TraceExplorer.Proofs.Tree.Growth

/-!
# The tree built from spans

Building fails only if a link leads to an id that no span has, which takes a span whose declared
parent is the empty id. The tree that is built holds every span once, and the place of a node is
that of its parent links.
-/

namespace TraceExplorer.TraceTree

open ParentMap (Ascent Pruned breakCycles)

def treeLinks (spans : List Span) : ParentMap := breakCycles (parentLinks (SpanGroup.index spans))

structure Built (spans : List Span) (t : TraceTree) : Prop where
  groups : t.groups = SpanGroup.index spans
  linked : Linked t.groups (treeLinks spans)
  branches : t.branches = forest t.groups (treeLinks spans)
  missing : t.missingParents =
    t.groups.filterMap fun g => (missingParent? t.groups g).map (g.id, ·)

section

variable {spans : List Span} {t : TraceTree} {g : SpanGroup} {groups : List SpanGroup}

/-! ## Links of a list of spans -/

theorem hasGroup_iff {id : Text} : hasGroup groups id = true ↔ id ∈ groups.map (·.id) := by
  simp [hasGroup]

theorem keys_parentLinks (groups : List SpanGroup) :
    (parentLinks groups).map (·.1) = groups.map (·.id) := by
  rw [parentLinks, List.map_map]
  rfl

theorem keys_treeLinks (spans : List Span) :
    (treeLinks spans).map (·.1) = (SpanGroup.index spans).map (·.id) :=
  (ParentMap.keys_breakCycles _).trans (keys_parentLinks _)

theorem lookup_parentLinks (hnodup : (groups.map (·.id)).Nodup) (hg : g ∈ groups) :
    (parentLinks groups).lookup g.id =
      some (if (missingParent? groups g).isSome then none else g.primary.parentId) := by
  apply KeyedList.lookup_of_mem
  · rwa [keys_parentLinks]
  · exact List.mem_map.mpr ⟨g, hg, rfl⟩

/-- A parent that is not empty is declared as it is given. -/
theorem declaredParent?_eq {s : Span} (h : s.parentId ≠ some Text.empty) :
    s.declaredParent? = s.parentId := by
  rw [Span.declaredParent?]
  cases hparent : s.parentId with
  | none => rfl
  | some parent =>
      have hne : parent.isEmpty = false := by
        rw [Bool.eq_false_iff]
        intro hempty
        obtain ⟨points⟩ := parent
        obtain rfl : points = [] := List.isEmpty_iff.mp hempty
        exact h hparent
      simp [hne]

/-- A link leads to the parent that is given. -/
theorem parentId_of_lookup_parentLinks (hnodup : (groups.map (·.id)).Nodup) (hg : g ∈ groups)
    {parent : Text} (hparent : (parentLinks groups).lookup g.id = some (some parent)) :
    g.primary.parentId = some parent ∧ missingParent? groups g = none := by
  rw [lookup_parentLinks hnodup hg] at hparent
  split at hparent
  · simp at hparent
  · rename_i hmissing
    exact ⟨Option.some.inj hparent, by simpa using hmissing⟩

/-- A link that is not to the empty id leads to a group. -/
theorem mem_ids_of_lookup_parentLinks (hnodup : (groups.map (·.id)).Nodup) (hg : g ∈ groups)
    {parent : Text} (hnamed : parent ≠ Text.empty)
    (hparent : (parentLinks groups).lookup g.id = some (some parent)) :
    parent ∈ groups.map (·.id) := by
  obtain ⟨hgiven, hmissing⟩ := parentId_of_lookup_parentLinks hnodup hg hparent
  have hdeclared : g.primary.parentId ≠ some Text.empty := by simpa [hgiven] using hnamed
  rw [← hasGroup_iff]
  simpa [missingParent?, declaredParent?_eq hdeclared, hgiven] using hmissing

theorem danglingLink?_eq_none_iff {parents : ParentMap} :
    danglingLink? groups parents = none ↔
      ∀ id parent, (id, some parent) ∈ parents → parent ∈ groups.map (·.id) := by
  simp only [danglingLink?, List.findSome?_eq_none_iff, Option.filter_eq_none_iff, Prod.forall]
  refine forall_congr' fun id => ⟨fun h parent hmem => ?_, fun h node hmem parent hparent => ?_⟩
  · have hgroup := h _ hmem parent rfl
    rw [← hasGroup_iff]
    simpa using hgroup
  · obtain rfl := hparent
    have hgroup := hasGroup_iff.mpr (h parent hmem)
    simp [hgroup]

theorem linked_treeLinks (h : danglingLink? (SpanGroup.index spans) (treeLinks spans) = none) :
    Linked (SpanGroup.index spans) (treeLinks spans) where
  nodup := SpanGroup.nodup_ids_index spans
  keys := keys_treeLinks spans
  closed := by
    intro g _ parent hparent
    exact danglingLink?_eq_none_iff.mp h g.id parent (KeyedList.mem_of_lookup hparent)
  grounded := by
    intro g hg
    apply ParentMap.grounded_breakCycles
    rw [keys_parentLinks]
    exact List.mem_map_of_mem hg

/-! ## Building -/

theorem Built.of_build (h : build spans = .ok t) : Built spans t := by
  dsimp only [build] at h
  split at h
  · simp at h
  · rename_i hdangling
    obtain rfl := Except.ok.inj h
    exact ⟨rfl, linked_treeLinks hdangling, rfl, rfl⟩

/-- There is a tree if some span has the empty id, or no primary span gives it as its parent. -/
theorem exists_build_of_empty (h : ∀ g ∈ SpanGroup.index spans,
    g.primary.parentId = some Text.empty → Text.empty ∈ spans.map (·.id)) :
    ∃ t, build spans = .ok t := by
  have hdangling : danglingLink? (SpanGroup.index spans) (treeLinks spans) = none := by
    refine danglingLink?_eq_none_iff.mpr fun id parent hmem => ?_
    have hnodup := SpanGroup.nodup_ids_index spans
    have hid : id ∈ (SpanGroup.index spans).map (·.id) :=
      keys_treeLinks spans ▸ List.mem_map_of_mem (f := (·.1)) hmem
    obtain ⟨g, hg, rfl⟩ := List.mem_map.mp hid
    have hlink : (treeLinks spans).lookup g.id = some (some parent) :=
      KeyedList.lookup_of_mem (keys_treeLinks spans ▸ hnodup) hmem
    have hgiven := (ParentMap.pruned_breakCycles _).lookup_eq hlink
    by_cases hempty : parent = Text.empty
    · rw [hempty, SpanGroup.mem_ids_index]
      exact h g hg (hempty ▸ (parentId_of_lookup_parentLinks hnodup hg hgiven).1)
    · exact mem_ids_of_lookup_parentLinks hnodup hg hempty hgiven
  dsimp only [build]
  split
  · rename_i hsome
    exact absurd (hdangling.symm.trans hsome) (by simp)
  · exact ⟨_, rfl⟩

/-- Without a span whose declared parent is the empty id there is a tree. -/
theorem exists_build (h : ∀ s ∈ spans, s.parentId ≠ some Text.empty) :
    ∃ t, build spans = .ok t :=
  exists_build_of_empty fun _ hg hempty =>
    absurd hempty (h _ (SpanGroup.primary_mem_of_mem_index hg))

theorem Built.nodes_perm (h : Built spans t) : t.nodes.Perm (SpanGroup.index spans) := by
  rw [nodes, Tree.depthFirst_eq_flatMap, h.branches, ← h.groups]
  exact h.linked.forest_perm

theorem Built.nodup_ids (h : Built spans t) : (t.nodes.map (·.id)).Nodup :=
  ((h.nodes_perm.map _).nodup_iff).mpr (SpanGroup.nodup_ids_index spans)

theorem Built.mem_ids (h : Built spans t) {id : Text} :
    id ∈ t.nodes.map (·.id) ↔ id ∈ spans.map (·.id) :=
  (h.nodes_perm.map _).mem_iff.trans SpanGroup.mem_ids_index

theorem Built.spans_perm (h : Built spans t) : t.spans.Perm spans :=
  (h.nodes_perm.flatMap_right _).trans (SpanGroup.spans_index_perm spans)

/-! ## Places in the tree -/

theorem Built.ids_placements (h : Built spans t) : (t.placements.map (·.id)).Nodup := by
  have hids := h.nodup_ids
  rwa [← map_group_placements, List.map_map] at hids

/-- The place of a node is that of its links. Above the top of its tree stands only the declared
parent of that top, if it is missing. -/
theorem Built.placement (h : Built spans t) {p : Placement} (hp : p ∈ t.placements) :
    p.childIds = (groupsUnder (linkGroups t.groups (treeLinks spans)) (some p.id)).map (·.id) ∧
      ∃ way top, Ascent (treeLinks spans) (some p.id) (p.id :: way) ∧ [top] <:+ p.id :: way ∧
        p.ancestorIds = way ++ (t.missingParents.lookup top).toList := by
  obtain ⟨branch, hbranch, hp⟩ := List.mem_flatMap.mp hp
  rw [h.branches] at hbranch
  have htop := h.linked.ascent_label (map_label_forest _ _) .top hbranch
  obtain ⟨hbelow, way, hway, hsuffix, heq⟩ :=
    (h.linked.grown_forest hbranch).place h.linked htop hp
  exact ⟨hbelow, way, branch.label.id, hway, hsuffix, heq⟩

/-- A missing parent is no node. -/
theorem Built.missing_not_mem (h : Built spans t) {id parent : Text}
    (hlookup : t.missingParents.lookup id = some parent) : parent ∉ t.groups.map (·.id) := by
  have hmem := KeyedList.mem_of_lookup hlookup
  rw [h.missing] at hmem
  obtain ⟨g, -, hg⟩ := List.mem_filterMap.mp hmem
  obtain ⟨_, hparent, ⟨⟩⟩ := Option.map_eq_some_iff.mp hg
  have habsent := (Option.filter_eq_some_iff.mp hparent).2
  rw [← hasGroup_iff]
  simpa using habsent

theorem Built.topLevelIds_eq (h : Built spans t) :
    t.topLevelIds = (groupsUnder (linkGroups t.groups (treeLinks spans)) none).map (·.id) := by
  rw [← map_label_forest, ← h.branches, List.map_map]
  rfl

end

/-- Spans in any order and with any parent links that are not empty make a tree. It has one node
for each id and holds every span once. -/
theorem build_holds_every_span {spans : List Span}
    (h : ∀ s ∈ spans, s.parentId ≠ some Text.empty) :
    ∃ t, build spans = .ok t ∧ (t.nodes.map (·.id)).Nodup ∧
      (∀ id, id ∈ t.nodes.map (·.id) ↔ id ∈ spans.map (·.id)) ∧ t.spans.Perm spans := by
  obtain ⟨t, ht⟩ := exists_build h
  have hbuilt := Built.of_build ht
  exact ⟨t, ht, hbuilt.nodup_ids, fun _ => hbuilt.mem_ids, hbuilt.spans_perm⟩

/-- Two legs of one id, a circle of two, a span that is its own parent, and an orphan. -/
theorem build_holds_every_span_of_tangle :
    let spans : List Span := [
      { traceId := "1", id := "a", parentId := some "b", shared := true },
      { traceId := "1", id := "b", parentId := some "a" },
      { traceId := "1", id := "a", parentId := some "b" },
      { traceId := "1", id := "c", parentId := some "c" },
      { traceId := "1", id := "d", parentId := some "x" }]
    (∀ s ∈ spans, s.parentId ≠ some Text.empty) ∧
      ∃ t, build spans = .ok t ∧ (t.nodes.map (·.id)).Nodup ∧
        (∀ id, id ∈ t.nodes.map (·.id) ↔ id ∈ spans.map (·.id)) ∧ t.spans.Perm spans := by
  intro spans
  have named : ∀ s ∈ spans, s.parentId ≠ some Text.empty := by decide
  exact ⟨named, build_holds_every_span named⟩

end TraceExplorer.TraceTree
