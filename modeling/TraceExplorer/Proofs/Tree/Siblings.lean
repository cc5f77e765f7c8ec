import TraceExplorer.Proofs.Tree.Arrival
import TraceExplorer.Proofs.Tree.Legs
import TraceExplorer.Proofs.Tree.Subtrees

/-!
# The order of siblings

Siblings come in the order of the earliest times that are reported for them, and those without a
time come last. At the same time they come in the order in which their ids are first reported.
-/

namespace TraceExplorer

/-- An id has a time, and another one has a later time or none. -/
def StartsBefore (spans : List Span) (id id' : Text) : Prop :=
  ∃ time, startOf? spans id = some time ∧
    ∀ time', startOf? spans id' = some time' → time < time'

def ComesBefore (spans : List Span) (id id' : Text) : Prop :=
  StartsBefore spans id id' ∨ startOf? spans id = startOf? spans id' ∧
    (spans.map (·.id)).idxOf id < (spans.map (·.id)).idxOf id'

def InOrderOfTime (spans : List Span) (ids : List Text) : Prop :=
  ∀ id ∈ ids, ∀ id' ∈ ids, ids.idxOf id < ids.idxOf id' ↔ ComesBefore spans id id'

section

variable {spans : List Span} {id id' : Text} {g g' : SpanGroup}

theorem timeLe_eq_false_iff {a b : Option Int} :
    timeLe b a = false ↔ ∃ time, a = some time ∧ ∀ time', b = some time' → time < time' := by
  cases a <;> cases b <;> simp [timeLe]

theorem StartsBefore.ne (h : StartsBefore spans id id') :
    startOf? spans id ≠ startOf? spans id' := by
  obtain ⟨time, htime, hlater⟩ := h
  intro heq
  exact absurd (hlater time (heq ▸ htime)) (Int.lt_irrefl time)

theorem StartsBefore.asymm (h : StartsBefore spans id id') : ¬ StartsBefore spans id' id := by
  obtain ⟨time, htime, hlater⟩ := h
  rintro ⟨time', htime', hlater'⟩
  exact absurd (hlater time' htime') (Int.lt_asymm (hlater' time htime))

theorem ComesBefore.asymm (h : ComesBefore spans id id') : ¬ ComesBefore spans id' id := by
  rcases h with hstarts | ⟨hsame, hfirst⟩ <;> rintro (hstarts' | ⟨hsame', hfirst'⟩)
  · exact hstarts.asymm hstarts'
  · exact hstarts.ne hsame'.symm
  · exact hstarts'.ne hsame.symm
  · exact absurd hfirst (Nat.lt_asymm hfirst')

theorem comesBefore_of_timeLe (hg : g ∈ SpanGroup.index spans) (hg' : g' ∈ SpanGroup.index spans)
    (hle : timeLe g.timestamp g'.timestamp)
    (hfirst : timeLe g'.timestamp g.timestamp →
      (spans.map (·.id)).idxOf g.id < (spans.map (·.id)).idxOf g'.id) :
    ComesBefore spans g.id g'.id := by
  rw [ComesBefore, StartsBefore, ← SpanGroup.timestamp_of_mem_index hg,
    ← SpanGroup.timestamp_of_mem_index hg']
  cases hback : timeLe g'.timestamp g.timestamp with
  | false => exact .inl (timeLe_eq_false_iff.mp hback)
  | true => exact .inr ⟨timeLe_antisymm hle hback, hfirst hback⟩

end

namespace TraceTree

section

variable {spans : List Span} {t : TraceTree}

theorem Built.pairwise_ids_groupsUnder (h : Built spans t) (node : Option Text) :
    ((groupsUnder (linkGroups t.groups (treeLinks spans)) node).map (·.id)).Pairwise
      (ComesBefore spans) := by
  have hfirst := h.groups ▸ SpanGroup.pairwise_index spans
  rw [groupsUnder_linkGroups, List.pairwise_map]
  refine (pairwise_sortByTime (hfirst.filter _)).imp_of_mem fun {g g'} hg hg' hle => ?_
  rw [← groupsUnder_linkGroups] at hg hg'
  have hmem {g : SpanGroup} (hg : g ∈ groupsUnder (linkGroups t.groups (treeLinks spans)) node) :
      g ∈ SpanGroup.index spans := h.groups ▸ (h.linked.mem_groupsUnder.mp hg).1
  exact comesBefore_of_timeLe (hmem hg) (hmem hg') hle.1 hle.2

theorem inOrderOfTime_of_pairwise {ids : List Text} (h : ids.Pairwise (ComesBefore spans)) :
    InOrderOfTime spans ids := by
  intro id hid id' hid'
  exact Positions.idxOf_lt_iff h (fun _ _ => ComesBefore.asymm) hid hid'

theorem Built.inOrderOfTime_topLevelIds (h : Built spans t) :
    InOrderOfTime spans t.topLevelIds := by
  apply inOrderOfTime_of_pairwise
  rw [h.topLevelIds_eq]
  exact h.pairwise_ids_groupsUnder none

theorem Built.inOrderOfTime_childIds (h : Built spans t) (parent : Text) :
    InOrderOfTime spans (t.childIds parent) := by
  apply inOrderOfTime_of_pairwise
  rw [childIds]
  cases hfind : t.placement? parent with
  | none => exact List.Pairwise.nil
  | some p =>
      obtain ⟨hp, rfl⟩ := h.placement?_eq_some.mp hfind
      rw [Option.map_some, Option.getD_some, (h.placement hp).1]
      exact h.pairwise_ids_groupsUnder (some p.id)

end

/-- In the tree of any spans without empty parent ids siblings come in the order of their times,
and a walk by depth lists each node before those below it, each subtree in one piece, with the
pieces of siblings in their order. -/
theorem build_orders_siblings {spans : List Span}
    (hnamed : ∀ s ∈ spans, s.parentId ≠ some Text.empty) :
    ∃ t, build spans = .ok t ∧ InOrderOfTime spans t.topLevelIds ∧
      (∀ parent, InOrderOfTime spans (t.childIds parent)) ∧ WalksSubtrees t := by
  obtain ⟨t, ht⟩ := exists_build hnamed
  have h := Built.of_build ht
  exact ⟨t, ht, h.inOrderOfTime_topLevelIds, h.inOrderOfTime_childIds, h.walksSubtrees⟩

/-- Children at no time, at two equal times, at zero and below it, one with an earlier leg, and
an orphan beside the root. -/
theorem build_orders_siblings_of_mixed_times :
    let spans : List Span := [
      { traceId := "1", id := "b", parentId := some "a" },
      { traceId := "1", id := "c", parentId := some "a", timestamp := some 7 },
      { traceId := "1", id := "d", parentId := some "a", timestamp := some 0 },
      { traceId := "1", id := "e", parentId := some "a", timestamp := some 7 },
      { traceId := "1", id := "a" },
      { traceId := "1", id := "f", parentId := some "a", timestamp := some (-3) },
      { traceId := "1", id := "e", parentId := some "a", timestamp := some (-5), shared := true },
      { traceId := "1", id := "g", parentId := some "x", timestamp := some 7 },
      { traceId := "1", id := "h", parentId := some "c", timestamp := some 7 }]
    (∀ s ∈ spans, s.parentId ≠ some Text.empty) ∧
      ∃ t, build spans = .ok t ∧ InOrderOfTime spans t.topLevelIds ∧
        (∀ parent, InOrderOfTime spans (t.childIds parent)) ∧ WalksSubtrees t := by
  intro spans
  have named : ∀ s ∈ spans, s.parentId ≠ some Text.empty := by decide
  exact ⟨named, build_orders_siblings named⟩

end TraceTree

end TraceExplorer
