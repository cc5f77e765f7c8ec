import TraceExplorer.Proofs.Tree.Ancestry
import TraceExplorer.Proofs.Tree.Circles
import TraceExplorer.Proofs.Tree.Declared

/-!
# Parents with the empty id

A span whose parent is the empty id counts as a root wherever it is looked at on its own, yet its
link is kept. Building a tree fails if no span has the empty id; otherwise the span stands under
the node of that id, as under any other parent. Spans without a parent are always top nodes.
-/

namespace TraceExplorer.TraceTree

open ParentMap (LinksTo cutOnCircles_repair)
open Relation

/-- Some primary span gives the empty id as its parent, and no span has that id. -/
def HasDanglingParent (spans : List Span) : Prop :=
  (∃ id, DeclaresParent spans id Text.empty) ∧ Text.empty ∉ spans.map (·.id)

section

variable {spans : List Span} {t : TraceTree} {id : Text}

/-! ## Links to the empty id -/

/-- The empty id is never missing, so a link to it is kept. -/
theorem DeclaresParent.lookup_empty (h : DeclaresParent spans id Text.empty) :
    (parentLinks (SpanGroup.index spans)).lookup id = some (some Text.empty) := by
  obtain ⟨g, hg, rfl⟩ := h.exists_group
  have hparent := (declaresParent_iff hg).mp h
  have hempty : Text.empty.isEmpty = true := rfl
  have hkept : missingParent? (SpanGroup.index spans) g = none := by
    simp [missingParent?, Span.declaredParent?, hparent, hempty]
  rw [lookup_parentLinks (SpanGroup.nodup_ids_index spans) hg, hkept, hparent]
  rfl

/-- A link to an id that no span has is not on a circle, so that it is never cut. -/
theorem lookup_treeLinks_of_dangling (hempty : Text.empty ∉ spans.map (·.id))
    (h : DeclaresParent spans id Text.empty) :
    (treeLinks spans).lookup id = some (some Text.empty) := by
  have hgiven := h.lookup_empty
  by_contra hcut
  have hadopted := (cutOnCircles_repair (parentLinks (SpanGroup.index spans))).mem_iff.mpr
    (hgiven ▸ hcut)
  have hcircle := (cutOnCircles_repair _).circle id hadopted
  -- The way round such a circle would lead on from the empty id.
  obtain ⟨next, hnext, -⟩ := TransGen.head'_iff.mp
    (ParentMap.transGen_back hcircle (TransGen.single hgiven))
  obtain ⟨g, hg, hid⟩ := (declaresParent_of_linksTo hnext).exists_group
  rw [← SpanGroup.mem_ids_index, ← hid] at hempty
  exact hempty (List.mem_map_of_mem hg)

theorem eq_empty_of_danglingLink? {parent : Text}
    (h : danglingLink? (SpanGroup.index spans) (treeLinks spans) = some parent) :
    parent = Text.empty := by
  have hnodup := SpanGroup.nodup_ids_index spans
  obtain ⟨⟨id, link⟩, hmem, hlink⟩ := List.exists_of_findSome?_eq_some h
  obtain ⟨rfl, habsent⟩ := Option.filter_eq_some_iff.mp hlink
  have hid : id ∈ (SpanGroup.index spans).map (·.id) :=
    keys_treeLinks spans ▸ List.mem_map_of_mem (f := (·.1)) hmem
  obtain ⟨g, hg, rfl⟩ := List.mem_map.mp hid
  have hgiven := (ParentMap.pruned_breakCycles _).lookup_eq
    (KeyedList.lookup_of_mem (keys_treeLinks spans ▸ hnodup) hmem)
  by_contra hnamed
  have hknown := hasGroup_iff.mpr (mem_ids_of_lookup_parentLinks hnodup hg hnamed hgiven)
  simp [hknown] at habsent

theorem HasDanglingParent.build_eq (h : HasDanglingParent spans) :
    build spans = .error (.absentKey Text.empty) := by
  obtain ⟨⟨id, hid⟩, hempty⟩ := h
  have hlink := KeyedList.mem_of_lookup (lookup_treeLinks_of_dangling hempty hid)
  dsimp only [build]
  split
  · rename_i parent hdangling
    rw [eq_empty_of_danglingLink? hdangling]
  · rename_i hnone
    have hknown := danglingLink?_eq_none_iff.mp hnone _ _ hlink
    exact absurd (SpanGroup.mem_ids_index.mp hknown) hempty

theorem exists_build_of_not_dangling (h : ¬ HasDanglingParent spans) :
    ∃ t, build spans = .ok t := by
  refine exists_build_of_empty fun g hg hempty => ?_
  by_contra habsent
  exact h ⟨⟨g.id, (declaresParent_iff hg).mpr hempty⟩, habsent⟩

/-! ## Places -/

theorem adopted_of_build (h : build spans = .ok t) :
    t.adopted = (ParentMap.repair (parentLinks (SpanGroup.index spans))).adopted := by
  dsimp only [build] at h
  split at h
  · cases h
  · rw [← Except.ok.inj h]

theorem mem_adopted_iff (h : build spans = .ok t) :
    id ∈ t.adopted ↔
      (treeLinks spans).lookup id ≠ (parentLinks (SpanGroup.index spans)).lookup id := by
  rw [adopted_of_build h]
  exact (cutOnCircles_repair _).mem_iff

theorem circle_of_mem_adopted (h : build spans = .ok t) (hid : id ∈ t.adopted) :
    TransGen (DeclaresParent spans) id id := by
  rw [adopted_of_build h] at hid
  exact TransGen.mono (fun _ _ => declaresParent_of_linksTo) _ _
    ((cutOnCircles_repair _).circle id hid)

theorem DeclaresRoot.mem_topLevelIds (hid : DeclaresRoot spans id) (h : Built spans t) :
    id ∈ t.topLevelIds := by
  obtain ⟨g, hg, rfl⟩ := hid.exists_group
  refine h.mem_topLevelIds.mpr ⟨h.groups ▸ List.mem_map_of_mem hg, ?_⟩
  rcases ParentMap.pruned_breakCycles (parentLinks (SpanGroup.index spans)) g.id with
    hkept | ⟨-, hcut⟩
  · exact hkept.trans hid.lookup_parentLinks
  · exact hcut

theorem DeclaresParent.place_of_empty (hid : DeclaresParent spans id Text.empty)
    (h : build spans = .ok t) :
    if id ∈ t.adopted then id ∈ t.topLevelIds else id ∈ t.childIds Text.empty := by
  have hbuilt := Built.of_build h
  obtain ⟨g, hg, rfl⟩ := hid.exists_group
  have hmem : g.id ∈ t.groups.map (·.id) := hbuilt.groups ▸ List.mem_map_of_mem hg
  split
  · rename_i hadopted
    have hchanged := (mem_adopted_iff h).mp hadopted
    have hcut := (ParentMap.pruned_breakCycles _ g.id).resolve_left hchanged
    exact hbuilt.mem_topLevelIds.mpr ⟨hmem, hcut.2⟩
  · rename_i hadopted
    have hkept := not_not.mp (mt (mem_adopted_iff h).mpr hadopted)
    exact hbuilt.mem_childIds.mpr ⟨hmem, hkept.trans hid.lookup_empty⟩

end

/-- Spans make a tree unless one of them has the empty id as its parent and none has it as its id.
In the tree every id without a parent is a top node; one whose parent is the empty id is below the
node of that id, or its declared parents run in a circle that was cut there. -/
theorem build_places_roots (spans : List Span) :
    HasDanglingParent spans ∧ build spans = .error (.absentKey Text.empty) ∨
      ¬ HasDanglingParent spans ∧ ∃ t, build spans = .ok t ∧
        (∀ id, DeclaresRoot spans id → id ∈ t.topLevelIds) ∧
        (∀ id, DeclaresParent spans id Text.empty →
          if id ∈ t.adopted then id ∈ t.topLevelIds else id ∈ t.childIds Text.empty) ∧
        ∀ id ∈ t.adopted, TransGen (DeclaresParent spans) id id := by
  by_cases hdangling : HasDanglingParent spans
  · exact .inl ⟨hdangling, hdangling.build_eq⟩
  · obtain ⟨t, ht⟩ := exists_build_of_not_dangling hdangling
    exact .inr ⟨hdangling, t, ht, fun id hid => hid.mem_topLevelIds (.of_build ht),
      fun id hid => hid.place_of_empty ht, fun id hid => circle_of_mem_adopted ht hid⟩

/-- A single span whose parent is the empty id is a root, yet it makes no tree. -/
theorem build_error_of_empty_parent :
    let spans : List Span := [{ traceId := "1", id := "a", parentId := some "" }]
    (∃ s, primary? spans "a" = some s ∧ s.isRoot) ∧
      build spans = .error (.absentKey Text.empty) := by
  intro spans
  have hprimary : primary? spans "a" =
      some { traceId := "1", id := "a", parentId := some "" } := rfl
  refine ⟨⟨_, hprimary, by decide⟩, HasDanglingParent.build_eq ⟨⟨"a", _, hprimary, rfl⟩, ?_⟩⟩
  decide

end TraceExplorer.TraceTree
