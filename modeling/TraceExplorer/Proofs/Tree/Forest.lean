import TraceExplorer.Proofs.Tree.Ancestry
import TraceExplorer.Proofs.Tree.Declared

/-!
# The forest that a list of spans describes

The ids below and above the nodes of a tree agree with each other and with the declared parents. A
tree has a root if the declared parents make one tree of all ids, and is headless otherwise.
-/

namespace TraceExplorer.TraceTree

open Relation

/-- The ids below and above the nodes of a tree describe one forest. Above a top node stands
nothing, or the parent that its primary span declares and no span has. -/
structure DescribesForest (spans : List Span) (t : TraceTree) : Prop where
  child_iff : ∀ {child parent}, child ∈ t.childIds parent ↔
    parent ∈ t.nodes.map (·.id) ∧ (t.ancestorIds child).head? = some parent
  above_child : ∀ {child parent}, child ∈ t.childIds parent →
    t.ancestorIds child = parent :: t.ancestorIds parent
  top_iff : ∀ {id}, id ∈ t.topLevelIds ↔
    id ∈ t.nodes.map (·.id) ∧ ∀ parent, id ∉ t.childIds parent
  above_top : ∀ {id}, id ∈ t.topLevelIds →
    t.ancestorIds id = [] ∨ ∃ parent, t.ancestorIds id = [parent]
  above_top_iff : ∀ {id parent}, id ∈ t.topLevelIds →
    (t.ancestorIds id = [parent] ↔ DeclaresParent spans id parent ∧ parent ∉ spans.map (·.id))
  nodup_above : ∀ id, (t.ancestorIds id).Nodup

/-- The declared parents make one tree of all ids: one id declares none, the others declare known
ones, and no chain of them closes. -/
structure IsOneTree (spans : List Span) (root : Text) : Prop where
  root_iff : ∀ {id}, DeclaresRoot spans id ↔ id = root
  known : ∀ {id parent}, DeclaresParent spans id parent → parent ∈ spans.map (·.id)
  noCircle : DeclaresNoCircle spans

section

variable {spans : List Span} {t : TraceTree} {g : SpanGroup} {id parent child root : Text}

/-! ## Below and above -/

theorem Built.mem_groups_iff (h : Built spans t) :
    id ∈ t.groups.map (·.id) ↔ id ∈ spans.map (·.id) := by
  rw [h.groups, SpanGroup.mem_ids_index]

theorem Built.ancestorIds_of_not_mem (h : Built spans t) (hid : id ∉ t.groups.map (·.id)) :
    t.ancestorIds id = [] := by
  have hnone : t.placement? id = none := by
    refine Option.eq_none_iff_forall_ne_some.mpr fun p hfind => hid ?_
    obtain ⟨hp, rfl⟩ := h.placement?_eq_some.mp hfind
    rw [h.mem_groups_iff, ← h.mem_ids]
    exact mem_ids_nodes.mpr ⟨p, hp, rfl⟩
  rw [ancestorIds, hnone]
  rfl

/-- A node is below another one or a top node. -/
theorem Built.top_or_child (h : Built spans t) (hid : id ∈ t.groups.map (·.id)) :
    id ∈ t.topLevelIds ∨ ∃ parent, id ∈ t.childIds parent := by
  obtain ⟨g, hg, rfl⟩ := List.mem_map.mp hid
  obtain ⟨link, hlink⟩ := Option.isSome_iff_exists.mp (h.linked.isSome_lookup hg)
  cases link with
  | none => exact .inl (h.mem_topLevelIds.mpr ⟨hid, hlink⟩)
  | some parent => exact .inr ⟨parent, h.mem_childIds.mpr ⟨hid, hlink⟩⟩

theorem Built.not_child_of_top (h : Built spans t) (hid : id ∈ t.topLevelIds) :
    id ∉ t.childIds parent := by
  intro hchild
  have hlink := (h.mem_childIds.mp hchild).2
  rw [(h.mem_topLevelIds.mp hid).2] at hlink
  cases hlink

theorem Built.parent_mem (h : Built spans t) (hchild : child ∈ t.childIds parent) :
    parent ∈ t.groups.map (·.id) := by
  obtain ⟨hmem, hlink⟩ := h.mem_childIds.mp hchild
  obtain ⟨g, hg, rfl⟩ := List.mem_map.mp hmem
  exact h.linked.closed g hg parent hlink

theorem Built.mem_childIds_iff_head (h : Built spans t) :
    child ∈ t.childIds parent ↔
      parent ∈ t.groups.map (·.id) ∧ (t.ancestorIds child).head? = some parent := by
  constructor
  · intro hchild
    exact ⟨h.parent_mem hchild, by rw [h.ancestorIds_child hchild, List.head?_cons]⟩
  · rintro ⟨hparent, hhead⟩
    by_cases hmem : child ∈ t.groups.map (·.id)
    · rcases h.top_or_child hmem with htop | ⟨other, hother⟩
      · -- What stands above a top node is no node.
        exact absurd hparent (h.not_mem_of_mem_ancestorIds_top htop (List.mem_of_mem_head? hhead))
      · rw [h.ancestorIds_child hother, List.head?_cons, Option.some_inj] at hhead
        exact hhead ▸ hother
    · simp [h.ancestorIds_of_not_mem hmem] at hhead

theorem Built.nodup_ancestorIds (h : Built spans t) (id : Text) : (t.ancestorIds id).Nodup := by
  by_cases hid : id ∈ t.groups.map (·.id)
  · obtain ⟨way, top, hway, -, heq⟩ := h.ancestorIds_eq hid
    rw [heq, List.nodup_append]
    refine ⟨(List.nodup_cons.mp hway.nodup).2, by cases t.missingParents.lookup top <;> simp, ?_⟩
    intro above habove missing hmissing hsame
    have hknown := hway.isSome_lookup (List.mem_cons_of_mem _ habove)
    rw [KeyedList.isSome_lookup_iff, h.linked.keys] at hknown
    exact h.missing_not_mem (Option.mem_toList.mp hmissing) (hsame ▸ hknown)
  · rw [h.ancestorIds_of_not_mem hid]
    exact List.nodup_nil

theorem Built.describesForest (h : Built spans t)
    (hnamed : ∀ s ∈ spans, s.parentId ≠ some Text.empty) : DescribesForest spans t where
  child_iff := by
    intro child parent
    rw [h.mem_childIds_iff_head, h.mem_groups_iff, h.mem_ids]
  above_child := h.ancestorIds_child
  top_iff := by
    intro id
    rw [h.mem_ids, ← h.mem_groups_iff]
    constructor
    · exact fun htop => ⟨(h.mem_topLevelIds.mp htop).1, fun parent => h.not_child_of_top htop⟩
    · rintro ⟨hid, hnone⟩
      exact (h.top_or_child hid).resolve_right fun ⟨parent, hchild⟩ => hnone parent hchild
  above_top := by
    intro id htop
    rw [h.ancestorIds_top htop]
    cases t.missingParents.lookup id with
    | none => exact .inl rfl
    | some parent => exact .inr ⟨parent, rfl⟩
  above_top_iff := by
    intro id parent htop
    rw [h.ancestorIds_top htop,
      ← h.lookup_missingParents_eq_some_iff hnamed (h.mem_topLevelIds.mp htop).1]
    cases t.missingParents.lookup id <;> simp
  nodup_above := h.nodup_ancestorIds

/-! ## The root -/

theorem headless_eq_false_iff (ht : build spans = .ok t) :
    t.headless = false ↔ t.missingParents = [] ∧
      ∃ g, groupsUnder (linkGroups t.groups (treeLinks spans)) none = [g] ∧ g.primary.isRoot := by
  dsimp only [build] at ht
  split at ht
  · simp at ht
  · obtain rfl := Except.ok.inj ht
    dsimp only
    rw [← ParentMap.breakCycles, ← treeLinks]
    generalize groupsUnder (linkGroups (SpanGroup.index spans) (treeLinks spans)) none = top
    split
    · simp
    · rename_i hnot
      simp only [Bool.true_eq_false, false_iff, not_and, not_exists]
      exact fun _ g htop => absurd htop (hnot g)

theorem Built.missingParents_eq_nil_iff (h : Built spans t)
    (hnamed : ∀ s ∈ spans, s.parentId ≠ some Text.empty) :
    t.missingParents = [] ↔ ∀ id parent, DeclaresParent spans id parent →
      parent ∈ spans.map (·.id) := by
  rw [h.missing, List.filterMap_eq_nil_iff]
  constructor
  · intro hnone id parent hparent
    obtain ⟨g, hg, rfl⟩ := hparent.exists_group
    by_contra habsent
    have hmissing := (missingParent?_eq_some_iff hnamed hg).mpr ⟨hparent, habsent⟩
    simpa [h.groups, hmissing] using hnone g (h.groups ▸ hg)
  · intro hknown g hg
    rw [Option.map_eq_none_iff, Option.eq_none_iff_forall_ne_some]
    intro parent hmissing
    rw [h.groups] at hg hmissing
    obtain ⟨hparent, habsent⟩ := (missingParent?_eq_some_iff hnamed hg).mp hmissing
    exact habsent (hknown _ _ hparent)

/-- In one tree the id without a declared parent is the only top node. -/
theorem IsOneTree.topLevelIds_eq (hone : IsOneTree spans root) (h : Built spans t)
    (hnamed : ∀ s ∈ spans, s.parentId ≠ some Text.empty) : t.topLevelIds = [root] := by
  have hmem (id : Text) : id ∈ t.topLevelIds ↔ id ∈ [root] := by
    rw [h.mem_topLevelIds, hone.noCircle.treeLinks_eq, List.mem_singleton, ← hone.root_iff]
    constructor
    · rintro ⟨hid, hlink⟩
      obtain ⟨g, hg, rfl⟩ := List.mem_map.mp (h.groups ▸ hid)
      rw [lookup_parentLinks_eq_none_iff hnamed hg] at hlink
      rw [declaresRoot_iff hg, Option.eq_none_iff_forall_ne_some]
      intro parent hparent
      have hdeclared := (declaresParent_iff hg).mpr hparent
      exact hlink parent hdeclared (hone.known hdeclared)
    · intro hroot
      obtain ⟨g, hg, rfl⟩ := hroot.exists_group
      exact ⟨h.groups ▸ List.mem_map_of_mem hg, hroot.lookup_parentLinks⟩
  have hnodup : t.topLevelIds.Nodup := by
    rw [h.topLevelIds_eq]
    exact h.linked.nodup_groupsUnder none
  exact List.perm_singleton.mp
    ((List.perm_ext_iff_of_nodup hnodup (List.nodup_singleton root)).mpr hmem)

theorem IsOneTree.headless_eq_false (hone : IsOneTree spans root) (ht : build spans = .ok t)
    (hnamed : ∀ s ∈ spans, s.parentId ≠ some Text.empty) : t.headless = false := by
  have h := Built.of_build ht
  have htop := hone.topLevelIds_eq h hnamed
  rw [h.topLevelIds_eq] at htop
  obtain ⟨g, hg, rfl⟩ := List.map_eq_singleton_iff.mp htop
  refine (headless_eq_false_iff ht).mpr
    ⟨(h.missingParents_eq_nil_iff hnamed).mpr fun _ _ => hone.known, g, hg, ?_⟩
  have hmem : g ∈ SpanGroup.index spans :=
    h.groups ▸ (h.linked.mem_groupsUnder.mp (hg ▸ List.mem_singleton_self g)).1
  have hroot := (declaresRoot_iff hmem).mp (hone.root_iff.mpr rfl)
  simp [Span.isRoot, Span.declaredParent?, hroot]

/-- If the only top node declares no parent, no link was cut: a node with a cut link is a top node
too. -/
theorem Built.lookup_treeLinks_of_top (h : Built spans t) (htop : t.topLevelIds = [root])
    (hroot : DeclaresRoot spans root) (id : Text) :
    (treeLinks spans).lookup id = (parentLinks (SpanGroup.index spans)).lookup id := by
  rcases ParentMap.pruned_breakCycles (parentLinks (SpanGroup.index spans)) id with
    hkept | ⟨hknown, hcut⟩
  · exact hkept
  · rw [KeyedList.isSome_lookup_iff, keys_parentLinks, ← h.groups] at hknown
    have hmem : id ∈ t.topLevelIds := h.mem_topLevelIds.mpr ⟨hknown, hcut⟩
    rw [htop, List.mem_singleton] at hmem
    rw [hmem, hroot.lookup_parentLinks, ← hmem]
    exact hcut

theorem exists_isOneTree (ht : build spans = .ok t)
    (hnamed : ∀ s ∈ spans, s.parentId ≠ some Text.empty) (hheaded : t.headless = false) :
    ∃ root, IsOneTree spans root := by
  have h := Built.of_build ht
  obtain ⟨hmissing, g, hg, hisRoot⟩ := (headless_eq_false_iff ht).mp hheaded
  have hknown := (h.missingParents_eq_nil_iff hnamed).mp hmissing
  have htop : t.topLevelIds = [g.id] := by rw [h.topLevelIds_eq, hg]; rfl
  have hmem : g ∈ SpanGroup.index spans :=
    h.groups ▸ (h.linked.mem_groupsUnder.mp (hg ▸ List.mem_singleton_self g)).1
  have hroot : DeclaresRoot spans g.id := by
    rw [Span.isRoot, declaredParent?_eq (hnamed _ (SpanGroup.primary_mem_of_mem_index hmem)),
      Option.isNone_iff_eq_none] at hisRoot
    exact (declaresRoot_iff hmem).mpr hisRoot
  have hsame := h.lookup_treeLinks_of_top htop hroot
  refine ⟨g.id, ⟨fun {id} => ⟨fun hid => ?_, fun heq => heq ▸ hroot⟩,
    fun {id parent} => hknown id parent, fun id hway => ?_⟩⟩
  · obtain ⟨other, hother, rfl⟩ := hid.exists_group
    have hother' : other.id ∈ t.topLevelIds :=
      h.mem_topLevelIds.mpr ⟨h.groups ▸ List.mem_map_of_mem hother,
        (hsame _).trans (hid.lookup_parentLinks)⟩
    simpa [htop] using hother'
  · refine ParentMap.acyclic_iff_lookup_breakCycles.mpr hsame id (TransGen.mono ?_ _ _ hway)
    exact fun _ _ hdeclared => hdeclared.linksTo hnamed (hknown _ _ hdeclared)

end

/-- The id maps of the tree of any spans without empty parent ids describe one forest. The tree has
a root exactly if one id declares no parent, all others declare the id of a span, and no chain of
declared parents closes; the root is that id. -/
theorem build_describes_forest {spans : List Span}
    (hnamed : ∀ s ∈ spans, s.parentId ≠ some Text.empty) :
    ∃ t, build spans = .ok t ∧ DescribesForest spans t ∧
      (t.headless = false ↔ ∃ root, IsOneTree spans root) ∧
      ∀ root, IsOneTree spans root → t.topLevelIds = [root] := by
  obtain ⟨t, ht⟩ := exists_build hnamed
  have h := Built.of_build ht
  exact ⟨t, ht, h.describesForest hnamed,
    ⟨exists_isOneTree ht hnamed, fun ⟨_, hone⟩ => hone.headless_eq_false ht hnamed⟩,
    fun _ hone => hone.topLevelIds_eq h hnamed⟩

/-- A root with a child that two spans report, a circle of two with one below it, and an orphan. -/
theorem build_describes_forest_of_thicket :
    let spans : List Span := [
      { traceId := "1", id := "b", parentId := some "c", shared := true },
      { traceId := "1", id := "a" },
      { traceId := "1", id := "b", parentId := some "a" },
      { traceId := "1", id := "d", parentId := some "e" },
      { traceId := "1", id := "e", parentId := some "d" },
      { traceId := "1", id := "f", parentId := some "e" },
      { traceId := "1", id := "g", parentId := some "x" }]
    (∀ s ∈ spans, s.parentId ≠ some Text.empty) ∧
      ∃ t, build spans = .ok t ∧ DescribesForest spans t ∧
        (t.headless = false ↔ ∃ root, IsOneTree spans root) ∧
        ∀ root, IsOneTree spans root → t.topLevelIds = [root] := by
  intro spans
  have named : ∀ s ∈ spans, s.parentId ≠ some Text.empty := by decide
  exact ⟨named, build_describes_forest named⟩

end TraceExplorer.TraceTree
