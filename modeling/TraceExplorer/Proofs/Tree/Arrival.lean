import TraceExplorer.Proofs.Positions
import TraceExplorer.Proofs.Tree.Forest

/-!
# Spans that come in another order

Spans may come in any order. As long as those that share an id keep theirs, the tree has the same
nodes in the same places, and siblings change places only if they have the same time.
-/

namespace TraceExplorer

section

variable {a b c : Option Int}

theorem timeLe_trans (hab : timeLe a b) (hbc : timeLe b c) : timeLe a c := by
  cases a <;> cases b <;> cases c <;> simp_all [timeLe]
  omega

theorem timeLe_total (a b : Option Int) : timeLe a b || timeLe b a := by
  cases a <;> cases b <;> simp [timeLe]
  omega

theorem timeLe_antisymm (hab : timeLe a b) (hba : timeLe b a) : a = b := by
  cases a <;> cases b <;> simp_all [timeLe]
  omega

end

namespace TraceTree

/-- Two lists have the same spans, and those that share an id come in the same order in both. -/
def SameReports (spans spans' : List Span) : Prop := ∀ id, reportsOf spans id = reportsOf spans' id

/-- Two nodes stand side by side: both are top nodes, or both are directly below one node. -/
def AreSiblings (t : TraceTree) (id id' : Text) : Prop :=
  (id ∈ t.topLevelIds ∧ id' ∈ t.topLevelIds) ∨
    ∃ parent, id ∈ t.childIds parent ∧ id' ∈ t.childIds parent

def HasDistinctTimes (t : TraceTree) : Prop :=
  ∀ g ∈ t.nodes, ∀ g' ∈ t.nodes, AreSiblings t g.id g'.id → g.timestamp = g'.timestamp → g = g'

structure Matching (spans spans' : List Span) (t t' : TraceTree) : Prop where
  left : Built spans t
  right : Built spans' t'
  groups : t.groups.Perm t'.groups
  links : ∀ id, (treeLinks spans).lookup id = (treeLinks spans').lookup id
  missing : t.missingParents.Perm t'.missingParents

section

variable {spans spans' : List Span} {t t' : TraceTree} {id parent : Text}
  {groups groups' : List SpanGroup}

/-! ## The same reports -/

/-- Neighbours with different ids may change places. -/
theorem sameReports_swap (front rest : List Span) {s s' : Span} (hne : s.id ≠ s'.id) :
    SameReports (front ++ s :: s' :: rest) (front ++ s' :: s :: rest) := by
  intro id
  simp only [reportsOf, List.filter_append, List.filter_cons]
  by_cases hid : s.id = id
  · have hid' : ¬ s'.id = id := fun heq => hne (hid.trans heq.symm)
    simp [hid, hid']
  · simp [hid]

theorem SameReports.index_perm (h : SameReports spans spans') :
    (SpanGroup.index spans).Perm (SpanGroup.index spans') := by
  refine (List.perm_ext_iff_of_nodup (.of_map _ (SpanGroup.nodup_ids_index spans))
    (.of_map _ (SpanGroup.nodup_ids_index spans'))).mpr fun g => ?_
  rw [SpanGroup.mem_index_iff, SpanGroup.mem_index_iff, h]

theorem SameReports.perm (h : SameReports spans spans') : spans.Perm spans' :=
  (SpanGroup.spans_index_perm spans).symm.trans
    ((h.index_perm.flatMap_right _).trans (SpanGroup.spans_index_perm spans'))

theorem SameReports.declaresNoCircle (h : SameReports spans spans')
    (hcircle : DeclaresNoCircle spans) : DeclaresNoCircle spans' := by
  have hsame : DeclaresParent spans' = DeclaresParent spans := by
    funext id parent
    rw [DeclaresParent, DeclaresParent, primary?, primary?, h]
  rwa [DeclaresNoCircle, hsame]

theorem missingParent?_perm (h : groups.Perm groups') :
    missingParent? groups = missingParent? groups' := by
  funext g
  simp only [missingParent?, hasGroup, h.any_eq]

theorem parentLinks_perm (h : groups.Perm groups') :
    (parentLinks groups).Perm (parentLinks groups') := by
  rw [parentLinks, parentLinks, missingParent?_perm h]
  exact h.map _

theorem SameReports.matching (h : SameReports spans spans') (hcircle : DeclaresNoCircle spans)
    (ht : Built spans t) (ht' : Built spans' t') : Matching spans spans' t t' := by
  have hindex := h.index_perm
  have hgroups : t.groups.Perm t'.groups := by rwa [ht.groups, ht'.groups]
  refine ⟨ht, ht', hgroups, fun id => ?_, ?_⟩
  · rw [hcircle.treeLinks_eq, (h.declaresNoCircle hcircle).treeLinks_eq]
    refine KeyedList.lookup_perm ?_ (parentLinks_perm hindex)
    rw [keys_parentLinks]
    exact SpanGroup.nodup_ids_index spans
  · rw [ht.missing, ht'.missing, missingParent?_perm hgroups]
    exact hgroups.filterMap _

/-! ## The same places -/

theorem Matching.mem_ids_iff (h : Matching spans spans' t t') :
    id ∈ t.groups.map (·.id) ↔ id ∈ t'.groups.map (·.id) :=
  (h.groups.map _).mem_iff

theorem Matching.nodes_perm (h : Matching spans spans' t t') : t.nodes.Perm t'.nodes := by
  have hright := h.right.nodes_perm
  rw [← h.right.groups] at hright
  have hleft := h.left.nodes_perm
  rw [← h.left.groups] at hleft
  exact hleft.trans (h.groups.trans hright.symm)

theorem Matching.mem_childIds_iff (h : Matching spans spans' t t') :
    id ∈ t.childIds parent ↔ id ∈ t'.childIds parent := by
  rw [h.left.mem_childIds, h.right.mem_childIds, h.mem_ids_iff, h.links]

theorem Matching.childIds_perm (h : Matching spans spans' t t') (parent : Text) :
    (t.childIds parent).Perm (t'.childIds parent) :=
  (List.perm_ext_iff_of_nodup h.left.nodup_childIds h.right.nodup_childIds).mpr fun _ =>
    h.mem_childIds_iff

theorem Matching.lookup_missingParents (h : Matching spans spans' t t') (id : Text) :
    t.missingParents.lookup id = t'.missingParents.lookup id := by
  refine KeyedList.lookup_perm ?_ h.missing
  rw [h.left.missing]
  exact KeyedList.nodup_filterMap h.left.linked.nodup

theorem Matching.ancestorIds_eq (h : Matching spans spans' t t') (id : Text) :
    t.ancestorIds id = t'.ancestorIds id := by
  by_cases hid : id ∈ t.groups.map (·.id)
  · obtain ⟨way, top, hway, htop, heq⟩ := h.left.ancestorIds_eq hid
    obtain ⟨way', top', hway', htop', heq'⟩ := h.right.ancestorIds_eq (h.mem_ids_iff.mp hid)
    have hways := (hway.congr h.links).unique hway'
    obtain rfl : way = way' := (List.cons.inj hways).2
    have hsame : [top] = [top'] :=
      (List.suffix_of_suffix_length_le htop htop' (Nat.le_refl _)).eq_of_length rfl
    rw [heq, heq', (List.cons.inj hsame).1, h.lookup_missingParents]
  · rw [h.left.ancestorIds_of_not_mem hid,
      h.right.ancestorIds_of_not_mem fun hid' => hid (h.mem_ids_iff.mpr hid')]

theorem Matching.linkGroups_perm (h : Matching spans spans' t t') :
    (linkGroups t.groups (treeLinks spans)).Perm (linkGroups t'.groups (treeLinks spans')) := by
  simp only [linkGroups, h.links]
  exact h.groups.map _

theorem Matching.groupsUnder_perm (h : Matching spans spans' t t') (node : Option Text) :
    (groupsUnder (linkGroups t.groups (treeLinks spans)) node).Perm
      (groupsUnder (linkGroups t'.groups (treeLinks spans')) node) :=
  (List.mergeSort_perm _ _).trans
    (((h.linkGroups_perm.filter _).map _).trans (List.mergeSort_perm _ _).symm)

theorem Matching.headless_eq (h : Matching spans spans' t t') (ht : build spans = .ok t)
    (ht' : build spans' = .ok t') : t.headless = t'.headless := by
  have hiff : t.headless = false ↔ t'.headless = false := by
    rw [headless_eq_false_iff ht, headless_eq_false_iff ht']
    have hunder := h.groupsUnder_perm none
    refine and_congr ⟨fun hnil => ?_, fun hnil => ?_⟩ (exists_congr fun g => and_congr_left fun _ =>
      ⟨fun hone => ?_, fun hone => ?_⟩)
    · exact (hnil ▸ h.missing).nil_eq.symm
    · exact (hnil ▸ h.missing).eq_nil
    · exact List.perm_singleton.mp (hone ▸ hunder).symm
    · exact List.perm_singleton.mp (hone ▸ hunder)
  cases hhead : t.headless <;> cases hhead' : t'.headless <;> simp_all

/-! ## The same order -/

theorem pairwise_sortByTime {R : SpanGroup → SpanGroup → Prop} (h : groups.Pairwise R) :
    (sortByTime groups).Pairwise fun g g' =>
      timeLe g.timestamp g'.timestamp ∧ (timeLe g'.timestamp g.timestamp → R g g') := by
  refine Positions.pairwise_mergeSort ?_ ?_ h
  · intro a b c
    exact timeLe_trans
  · intro a b
    exact timeLe_total a.timestamp b.timestamp

theorem pairwise_groupsUnder (links : List (SpanGroup × Option Text)) (node : Option Text) :
    (groupsUnder links node).Pairwise fun g g' => timeLe g.timestamp g'.timestamp :=
  (pairwise_sortByTime (List.pairwise_of_forall fun _ _ => trivial)).imp And.left

theorem Built.mem_nodes_iff (h : Built spans t) {g : SpanGroup} : g ∈ t.nodes ↔ g ∈ t.groups := by
  rw [h.nodes_perm.mem_iff, h.groups]

theorem Matching.groupsUnder_eq (h : Matching spans spans' t t') (hdistinct : HasDistinctTimes t)
    (node : Option Text) :
    groupsUnder (linkGroups t.groups (treeLinks spans)) node =
      groupsUnder (linkGroups t'.groups (treeLinks spans')) node := by
  refine (h.groupsUnder_perm node).eq_of_pairwise (fun g g' hg hg' hle hle' => ?_)
    (pairwise_groupsUnder _ node) (pairwise_groupsUnder _ node)
  have htime : g.timestamp = g'.timestamp := timeLe_antisymm hle hle'
  rw [(h.groupsUnder_perm node).symm.mem_iff] at hg'
  have hmem := h.left.linked.mem_groupsUnder.mp hg
  have hmem' := h.left.linked.mem_groupsUnder.mp hg'
  refine hdistinct g (h.left.mem_nodes_iff.mpr hmem.1) g' (h.left.mem_nodes_iff.mpr hmem'.1)
    ?_ htime
  cases node with
  | none =>
      exact .inl ⟨h.left.mem_topLevelIds.mpr ⟨List.mem_map_of_mem hmem.1, hmem.2⟩,
        h.left.mem_topLevelIds.mpr ⟨List.mem_map_of_mem hmem'.1, hmem'.2⟩⟩
  | some parent =>
      exact .inr ⟨parent, h.left.mem_childIds.mpr ⟨List.mem_map_of_mem hmem.1, hmem.2⟩,
        h.left.mem_childIds.mpr ⟨List.mem_map_of_mem hmem'.1, hmem'.2⟩⟩

theorem Built.hasDistinctTimes (h : Built spans t)
    (hdistinct : ((SpanGroup.index spans).map (·.timestamp)).Nodup) : HasDistinctTimes t := by
  intro g hg g' hg' _ htime
  rw [h.nodes_perm.mem_iff] at hg hg'
  exact List.inj_on_of_nodup_map hdistinct hg hg' htime

theorem grow_congr {links links' : List (SpanGroup × Option Text)}
    (hunder : ∀ node, groupsUnder links node = groupsUnder links' node) (levels : Nat)
    (g : SpanGroup) : grow links levels g = grow links' levels g := by
  induction levels generalizing g with
  | zero => rfl
  | succ levels ih =>
      rw [grow, grow, hunder]
      exact congrArg _ (List.map_congr_left fun child _ => ih child)

theorem Matching.branches_eq (h : Matching spans spans' t t') (hdistinct : HasDistinctTimes t) :
    t.branches = t'.branches := by
  have hunder := h.groupsUnder_eq hdistinct
  rw [h.left.branches, h.right.branches, forest, forest, hunder, h.groups.length_eq]
  exact List.map_congr_left fun g _ => grow_congr hunder _ g

theorem Matching.placements_eq (h : Matching spans spans' t t') (hdistinct : HasDistinctTimes t) :
    t.placements = t'.placements := by
  simp only [placements, h.branches_eq hdistinct, h.lookup_missingParents]

end

/-- Spans in another order have the same tree, as long as those that share an id keep their order
and no chain of declared parents closes. If no siblings have the same time, nothing in the tree
changes its place. -/
theorem build_reordered {spans spans' : List Span} (h : SameReports spans spans')
    (hnamed : ∀ s ∈ spans, s.parentId ≠ some Text.empty) (hcircle : DeclaresNoCircle spans) :
    ∃ t t', build spans = .ok t ∧ build spans' = .ok t' ∧ t.nodes.Perm t'.nodes ∧
      (∀ id, t.ancestorIds id = t'.ancestorIds id) ∧ t.headless = t'.headless ∧
      (∀ id, (t.childIds id).Perm (t'.childIds id)) ∧
      (HasDistinctTimes t →
        (∀ id, t.childIds id = t'.childIds id) ∧ t.nodes = t'.nodes ∧
          t.spansByService = t'.spansByService) := by
  obtain ⟨t, ht⟩ := exists_build hnamed
  obtain ⟨t', ht'⟩ := exists_build fun s hs => hnamed s (h.perm.mem_iff.mpr hs)
  have hmatch := h.matching hcircle (.of_build ht) (.of_build ht')
  refine ⟨t, t', ht, ht', hmatch.nodes_perm, hmatch.ancestorIds_eq, hmatch.headless_eq ht ht',
    hmatch.childIds_perm, fun hdistinct => ?_⟩
  have hnodes : t.nodes = t'.nodes := by rw [nodes, nodes, hmatch.branches_eq hdistinct]
  refine ⟨fun id => ?_, hnodes, by rw [spansByService, spansByService, hnodes]⟩
  rw [childIds, childIds, placement?, placement?, hmatch.placements_eq hdistinct]

/-- The server leg of `b` comes after its parent, and the client leg of `b` before its sibling. -/
theorem build_reordered_of_legs :
    let first : Span :=
      { traceId := "1", id := "b", parentId := some "a", timestamp := some 6, shared := true }
    let root : Span := { traceId := "1", id := "a", timestamp := some 1 }
    let sibling : Span := { traceId := "1", id := "c", parentId := some "a", timestamp := some 4 }
    let second : Span := { traceId := "1", id := "b", parentId := some "a", timestamp := some 5 }
    let spans := [first, root, sibling, second]
    let spans' := [root, first, second, sibling]
    SameReports spans spans' ∧ (∀ s ∈ spans, s.parentId ≠ some Text.empty) ∧
      DeclaresNoCircle spans ∧
      ∃ t t', build spans = .ok t ∧ build spans' = .ok t' ∧ t.nodes.Perm t'.nodes ∧
        (∀ id, t.ancestorIds id = t'.ancestorIds id) ∧ t.headless = t'.headless ∧
        (∀ id, (t.childIds id).Perm (t'.childIds id)) ∧ HasDistinctTimes t ∧
        (∀ id, t.childIds id = t'.childIds id) ∧ t.nodes = t'.nodes ∧
        t.spansByService = t'.spansByService := by
  intro first root sibling second spans spans'
  have hroot : SameReports [first, root, sibling, second] [root, first, sibling, second] :=
    sameReports_swap [] _ (by decide)
  have hlegs : SameReports [root, first, sibling, second] [root, first, second, sibling] :=
    sameReports_swap [root, first] [] (by decide)
  have hsame : SameReports spans spans' := fun id => (hroot id).trans (hlegs id)
  have hnamed : ∀ s ∈ spans, s.parentId ≠ some Text.empty := by decide
  have hcircle : DeclaresNoCircle spans :=
    declaresNoCircle_of_rank (fun id => if id = "a" then 0 else 1) (by decide)
  obtain ⟨t, t', ht, ht', hnodes, habove, hheadless, hchildren, hplaces⟩ :=
    build_reordered hsame hnamed hcircle
  have hdistinct : HasDistinctTimes t := (Built.of_build ht).hasDistinctTimes (by decide)
  exact ⟨hsame, hnamed, hcircle, t, t', ht, ht', hnodes, habove, hheadless, hchildren, hdistinct,
    hplaces hdistinct⟩

end TraceTree

end TraceExplorer
