import TraceExplorer.Cli.Commands
import TraceExplorer.Proofs.Reordering
import TraceExplorer.Proofs.Span.WellFormed
import TraceExplorer.Proofs.Tree.Order
import TraceExplorer.Proofs.Tree.Services
import TraceExplorer.Proofs.Visibility.Change
import TraceExplorer.Proofs.Visibility.Unfolded

/-!
# The lines of a shown tree

Whatever is expanded, the lines of a tree form an outline. Each visible node has one line, indented
by its depth; the line of a node stands under that of its parent, and under the line of an expanded
node stand those of all its children.
-/

namespace TraceExplorer.Cli

open VisibilityState (Action Reached UnfoldAction Unfolded)

def shownIds (t : TraceTree) (view : VisibilityState) : List Text :=
  (t.nodes.map (·.id)).filter fun id => view.visible? id == some true

def markOf (t : TraceTree) (view : VisibilityState) (id : Text) : String :=
  if t.childIds id = [] then "   "
  else if view.expanded? id = some true then "[-]"
  else "[+]"

/-- The line of a node: two spaces for each node above it, the mark, the id, and what its primary
span is called and how long it took. -/
def IsLineOf (t : TraceTree) (view : VisibilityState) (id : Text) (line : String) : Prop :=
  ∃ g ∈ t.nodes, g.id = id ∧ ∃ duration,
    optionalDurationText (g.primary.duration.map .whole) = .ok duration ∧
    line = String.join (List.replicate (t.levelOf id) "  ") ++ markOf t view id ++ " " ++
      id.shown ++ " " ++ spanLabel g.primary ++ (if duration = "" then "" else " " ++ duration)

structure IsOutlineText (t : TraceTree) (view : VisibilityState) (lines : List String) :
    Prop where
  lines : List.Forall₂ (IsLineOf t view) (shownIds t view) lines
  once : (shownIds t view).Nodup
  under_parent : ∀ id ∈ shownIds t view, id ∉ t.topLevelIds →
    ∃ parent, id ∈ t.childIds parent ∧
      StandsUnder t.ancestorIds (shownIds t view) parent id
  over_children : ∀ id ∈ shownIds t view, markOf t view id = "[-]" →
    (id :: t.childIds id).Sublist (shownIds t view)

/-- The operations that the options ask for: the nodes of a service are shown, then all nodes, then
one node after the other. -/
def askedActions (t : TraceTree) (service : Option Text) (expandAll : Bool) (ids : List Text) :
    List Action :=
  (service.map fun name => .showNodes (t.idsOfService name.lower)).toList ++
    (if expandAll then [.expandAll] else []) ++ ids.map fun id => .showNodes [id]

section

variable {spans : List Span} {t : TraceTree} {view : VisibilityState} {id : Text}
  {ids : List Text} {p : Placement} {r : VisibilityRecord} {line : String} {lines : List String}
  {expand : List String}

/-! ## Expanding as asked -/

theorem foldlM_showNodes
    (hids : List.Forall₂ (fun (given : String) id => canonicalId given = some id) expand ids)
    (view : VisibilityState) :
    expand.foldlM (fun (view : VisibilityState) (given : String) =>
        match canonicalId given with
        | some id => do return (← view.showNodes [id]).state
        | none => throw (TraceError.spanUnknown none)) view =
      view.run (ids.map fun id => .showNodes [id]) := by
  induction hids generalizing view with
  | nil => rfl
  | cons hgiven _ ih =>
      rw [List.foldlM_cons, List.map_cons, VisibilityState.run, hgiven]
      simp only [bind_assoc, pure_bind, ih]
      rfl

/-- The options are carried out as a run of operations that show nodes. -/
theorem expandAsAsked_eq_run {service : Option Text} {expandAll : Bool}
    (hids : List.Forall₂ (fun (given : String) id => canonicalId given = some id) expand ids) :
    expandAsAsked t service expandAll expand =
      (VisibilityState.initial t).run (askedActions t service expandAll ids) := by
  have hgiven := foldlM_showNodes hids
  cases service <;> cases expandAll <;>
    simp only [expandAsAsked, askedActions, Option.map_none, Option.map_some, Option.toList_none,
      Option.toList_some, Bool.false_eq_true, if_true, if_false, List.nil_append, List.cons_append,
      VisibilityState.run, VisibilityState.step, pure_bind]
  · exact hgiven _
  · exact bind_congr fun _ => hgiven _
  · exact bind_congr fun _ => hgiven _
  · exact bind_congr fun _ => bind_congr fun _ => hgiven _

/-- The options expand all nodes or show nodes of the tree. -/
theorem asked_of_mem (service : Option Text) (expandAll : Bool) {a : Action}
    (hids : ids ⊆ t.nodes.map (·.id)) (ha : a ∈ askedActions t service expandAll ids) :
    a = .expandAll ∨ ∃ ids, a = .showNodes ids ∧ ids ⊆ t.nodes.map (·.id) := by
  rw [askedActions, List.mem_append, List.mem_append, Option.mem_toList, List.mem_map] at ha
  rcases ha with (hservice | hall) | ⟨id, hid, rfl⟩
  · obtain ⟨name, -, rfl⟩ := Option.map_eq_some_iff.mp hservice
    exact .inr ⟨_, rfl, t.idsOfService_subset _⟩
  · refine .inl ?_
    split at hall
    · exact List.mem_singleton.mp hall
    · cases hall
  · exact .inr ⟨[id], rfl, List.cons_subset.mpr ⟨hids hid, List.nil_subset _⟩⟩

/-! ## Lines -/

theorem mem_shownIds :
    id ∈ shownIds t view ↔ id ∈ t.nodes.map (·.id) ∧ view.visible? id = some true := by
  rw [shownIds, List.mem_filter, beq_iff_eq]

def shownRow? (view : VisibilityState) (p : Placement) : Option (Placement × VisibilityRecord) :=
  ((view.find? p.id).filter (·.visible)).map fun r => (p, r)

def shownRows (t : TraceTree) (view : VisibilityState) : List (Placement × VisibilityRecord) :=
  t.placements.filterMap (shownRow? view)

theorem shownRow?_eq_some_iff {row : Placement × VisibilityRecord} :
    shownRow? view p = some row ↔
      view.find? p.id = some row.2 ∧ row.2.visible ∧ p = row.1 := by
  obtain ⟨q, r⟩ := row
  simp only [shownRow?, Option.map_eq_some_iff, Option.filter_eq_some_iff, Prod.mk.injEq]
  constructor
  · rintro ⟨_, ⟨hfind, hvisible⟩, rfl, rfl⟩
    exact ⟨hfind, hvisible, rfl⟩
  · rintro ⟨hfind, hvisible, rfl⟩
    exact ⟨r, ⟨hfind, hvisible⟩, rfl, rfl⟩

theorem mem_shownRows :
    (p, r) ∈ shownRows t view ↔ p ∈ t.placements ∧ view.find? p.id = some r ∧ r.visible := by
  rw [shownRows, List.mem_filterMap]
  simp only [shownRow?_eq_some_iff]
  constructor
  · rintro ⟨_, hp, hfind, hvisible, rfl⟩
    exact ⟨hp, hfind, hvisible⟩
  · rintro ⟨hp, hfind, hvisible⟩
    exact ⟨p, hp, hfind, hvisible, rfl⟩

theorem map_id_shownRows (t : TraceTree) (view : VisibilityState) :
    (shownRows t view).map (·.1.id) = shownIds t view := by
  rw [shownIds, ← TraceTree.map_id_placements, shownRows]
  induction t.placements with
  | nil => rfl
  | cons p rest ih =>
      rw [List.map_cons, List.filter_cons]
      by_cases hshown : view.visible? p.id = some true
      · obtain ⟨r, hfind, hvisible⟩ := Option.map_eq_some_iff.mp hshown
        have hrow : shownRow? view p = some (p, r) :=
          shownRow?_eq_some_iff.mpr ⟨hfind, hvisible, rfl⟩
        rw [List.filterMap_cons_some hrow, if_pos (beq_iff_eq.mpr hshown), List.map_cons, ih]
      · have hrow : shownRow? view p = none := by
          refine Option.eq_none_iff_forall_ne_some.mpr fun row hrow => hshown ?_
          obtain ⟨hfind, hvisible, -⟩ := shownRow?_eq_some_iff.mp hrow
          exact Option.map_eq_some_iff.mpr ⟨row.2, hfind, hvisible⟩
        rw [List.filterMap_cons_none hrow, if_neg (mt beq_iff_eq.mp hshown), ih]

theorem rowText_eq_ok_iff :
    rowText p r = .ok line ↔ ∃ duration,
      optionalDurationText (p.group.primary.duration.map .whole) = .ok duration ∧
      line = String.join (List.replicate p.depth "  ") ++ rowMark r ++ " " ++ p.id.shown ++ " " ++
        spanLabel p.group.primary ++ (if duration = "" then "" else " " ++ duration) := by
  rw [rowText, bind_eq_ok_iff]
  exact exists_congr fun duration => and_congr_right fun _ =>
    ⟨fun h => (Except.ok.inj h).symm, fun h => congrArg Except.ok h.symm⟩

theorem rowMark_eq (hlayout : view.fresh = .initial t) (hfind : view.find? id = some r) :
    rowMark r = markOf t view id := by
  have hchildren : r.childIds = t.childIds id := by
    rw [VisibilityState.childIds_eq hlayout hfind, VisibilityState.childrenOf_initial]
  simp [rowMark, markOf, hchildren, VisibilityState.expanded?, hfind]

theorem lines_of_treeRows (h : TraceTree.Built spans t) (hlayout : view.fresh = .initial t)
    (hlines : treeRows t view = .ok lines) :
    List.Forall₂ (IsLineOf t view) (shownIds t view) lines := by
  have hrows : List.Forall₂
      (fun row line => row ∈ shownRows t view ∧ rowText row.1 row.2 = .ok line)
      (shownRows t view) lines :=
    (List.forall₂_and_left _ _).mpr ⟨fun _ hrow => hrow, Reordering.mapM_eq_ok_iff.mp hlines⟩
  rw [← map_id_shownRows, List.forall₂_map_left_iff]
  refine hrows.imp ?_
  rintro ⟨p, r⟩ line ⟨hrow, hline⟩
  obtain ⟨hp, hfind, -⟩ := mem_shownRows.mp hrow
  obtain ⟨duration, hduration, rfl⟩ := rowText_eq_ok_iff.mp hline
  refine ⟨p.group, ?_, rfl, duration, hduration, ?_⟩
  · rw [← TraceTree.map_group_placements]
    exact List.mem_map_of_mem hp
  · rw [h.depth_placement hp, rowMark_eq hlayout hfind]

/-- There are lines if how long each visible node took has a text. -/
theorem exists_treeRows_iff :
    (∃ lines, treeRows t view = .ok lines) ↔
      ∀ g ∈ t.nodes, view.visible? g.id = some true →
        ∃ text, optionalDurationText (g.primary.duration.map .whole) = .ok text := by
  have hrows : (∃ lines, treeRows t view = .ok lines) ↔
      ∀ row ∈ shownRows t view, ∃ line, rowText row.1 row.2 = .ok line := exists_mapM_iff
  rw [hrows, ← TraceTree.map_group_placements]
  constructor
  · intro h g hg hvisible
    obtain ⟨p, hp, rfl⟩ := List.mem_map.mp hg
    obtain ⟨r, hr, hshown⟩ := Option.map_eq_some_iff.mp hvisible
    obtain ⟨line, hline⟩ := h (p, r) (mem_shownRows.mpr ⟨hp, hr, hshown⟩)
    obtain ⟨text, htext, -⟩ := rowText_eq_ok_iff.mp hline
    exact ⟨text, htext⟩
  · rintro h ⟨p, r⟩ hrow
    obtain ⟨hp, hr, hshown⟩ := mem_shownRows.mp hrow
    have hvisible : view.visible? p.id = some true := Option.map_eq_some_iff.mpr ⟨r, hr, hshown⟩
    obtain ⟨text, htext⟩ := h p.group (List.mem_map_of_mem hp) hvisible
    exact ⟨_, rowText_eq_ok_iff.mpr ⟨text, htext, rfl⟩⟩

theorem IsOutlineText.of_treeRows (h : TraceTree.Built spans t) (hview : Unfolded (.initial t) view)
    (hlines : treeRows t view = .ok lines) : IsOutlineText t view lines where
  lines := lines_of_treeRows h hview.layout hlines
  once := h.nodup_ids.filter _
  under_parent := by
    intro id hid hnot
    obtain ⟨hnode, hvisible⟩ := mem_shownIds.mp hid
    obtain ⟨parent, hchild, hunder⟩ := h.standsUnder hnode hnot
    refine ⟨parent, hchild, hunder.filter ?_ (beq_iff_eq.mpr hvisible)⟩
    exact beq_iff_eq.mpr (hview.above (VisibilityState.childrenOf_initial t ▸ hchild) hvisible)
  over_children := by
    intro id hid hmark
    obtain ⟨hnode, hvisible⟩ := mem_shownIds.mp hid
    have hopen : view.expanded? id = some true := by
      by_contra hshut
      simp only [markOf, hshut, if_false] at hmark
      split at hmark <;> simp at hmark
    have hall : (id :: t.childIds id).filter (fun id => view.visible? id == some true) =
        id :: t.childIds id := by
      refine List.filter_eq_self.mpr (List.forall_mem_cons.mpr ⟨beq_iff_eq.mpr hvisible, ?_⟩)
      exact fun child hchild => beq_iff_eq.mpr
        (hview.below (VisibilityState.childrenOf_initial t ▸ hchild) hopen)
    rw [← hall]
    exact (h.children_sublist hnode).filter _

end

/-- Whatever nodes are expanded, by a service, all at once or one after the other, the lines of the
tree of any spans that were read form an outline. There are lines unless a visible span took so long
that it has no text. -/
theorem treeRows_of_expandAsAsked {spans : List Span} {service : Option Text} {expandAll : Bool}
    {expand : List String} {ids : List Text}
    (hread : ∀ s ∈ spans, ∃ v, Span.ofJson v = .ok s)
    (hids : List.Forall₂ (fun (given : String) id => canonicalId given = some id) expand ids)
    (hknown : ids ⊆ spans.map (·.id)) :
    ∃ t view, TraceTree.build spans = .ok t ∧
      expandAsAsked t service expandAll expand = .ok view ∧
      ((∃ lines, treeRows t view = .ok lines) ↔
        ∀ g ∈ t.nodes, view.visible? g.id = some true →
          ∃ text, optionalDurationText (g.primary.duration.map .whole) = .ok text) ∧
      ∀ lines, treeRows t view = .ok lines → IsOutlineText t view lines := by
  have hnamed : ∀ s ∈ spans, s.parentId ≠ some Text.empty := by
    intro s hs
    obtain ⟨v, hv⟩ := hread s hs
    exact Span.parentId_ne_empty_of_ofJson hv
  obtain ⟨t, ht⟩ := TraceTree.exists_build hnamed
  have h := TraceTree.Built.of_build ht
  have hnodes : ids ⊆ t.nodes.map (·.id) := fun _ hid => h.mem_ids.mpr (hknown hid)
  obtain ⟨view, hview, hreached⟩ :=
    Reached.start.exists_run fun _ => asked_of_mem service expandAll hnodes
  exact ⟨t, view, ht, (expandAsAsked_eq_run hids).trans hview, exists_treeRows_iff,
    fun _ => .of_treeRows h (Unfolded.of_reached h.isForest_initial hreached)⟩

/-- A chain of three, of which the first is shown by its service and the second by its id, and an
orphan. -/
theorem treeRows_of_expandAsAsked_of_chain :
    let spans : List Span := [
      { traceId := "0000000000000001", id := "0000000000000001"
        localEndpoint := some { serviceName := some "web" } },
      { traceId := "0000000000000001", id := "0000000000000002"
        parentId := some "0000000000000001", duration := some 1500 },
      { traceId := "0000000000000001", id := "0000000000000003"
        parentId := some "0000000000000002" },
      { traceId := "0000000000000001", id := "0000000000000004"
        parentId := some "0000000000000009" }]
    let ids : List Text := ["0000000000000002"]
    (∀ s ∈ spans, ∃ v, Span.ofJson v = .ok s) ∧
      List.Forall₂ (fun (given : String) id => canonicalId given = some id) ["2"] ids ∧
      ids ⊆ spans.map (·.id) ∧
      ∃ t view, TraceTree.build spans = .ok t ∧
        expandAsAsked t (some "WEB") false ["2"] = .ok view ∧
        ((∃ lines, treeRows t view = .ok lines) ↔
          ∀ g ∈ t.nodes, view.visible? g.id = some true →
            ∃ text, optionalDurationText (g.primary.duration.map .whole) = .ok text) ∧
        ∀ lines, treeRows t view = .ok lines → IsOutlineText t view lines := by
  intro spans ids
  have hread : ∀ s ∈ spans, ∃ v, Span.ofJson v = .ok s := by
    simp only [spans, List.forall_mem_cons]
    refine ⟨⟨.object [("traceId", .text "1"), ("id", .text "1"),
        ("localEndpoint", .object [("serviceName", .text "web")])], rfl⟩,
      ⟨.object [("traceId", .text "1"), ("id", .text "2"), ("parentId", .text "1"),
        ("duration", .whole 1500)], rfl⟩,
      ⟨.object [("traceId", .text "1"), ("id", .text "3"), ("parentId", .text "2")], rfl⟩,
      ⟨.object [("traceId", .text "1"), ("id", .text "4"), ("parentId", .text "9")], rfl⟩, ?_⟩
    exact List.forall_mem_nil _
  have hids : List.Forall₂ (fun (given : String) id => canonicalId given = some id) ["2"]
      ids := .cons (by decide +kernel) .nil
  have hknown : ids ⊆ spans.map (·.id) := by decide
  exact ⟨hread, hids, hknown, treeRows_of_expandAsAsked hread hids hknown⟩

-- The mark of a node without children is blank, so that a leaf stands further to the right.
example :
    (TraceTree.build [
      { traceId := "1", id := "a", name := .text "get" },
      { traceId := "1", id := "b", parentId := some "a", duration := some 1500 }]).toOption.bind
      (fun t => (expandAsAsked t none true []).toOption.bind fun view =>
        (treeRows t view).toOption) =
      some ["[-] a unknown: get", "      b unknown 1.500ms"] := by
  decide +kernel

end TraceExplorer.Cli
