import Mathlib.Data.List.Induction
import Mathlib.Data.List.Nodup
import Mathlib.Data.List.Perm.Basic
import TraceExplorer.Tree.Group

/-!
# The groups of a list of spans

Grouping keeps every span once, and there is one group for each id that occurs.
-/

namespace TraceExplorer.SpanGroup

@[simp] theorem id_add {g : SpanGroup} {s : Span} (h : g.id = s.id) : (g.add s).id = g.id := by
  unfold add
  split
  · exact h.symm
  · rfl

theorem spans_add_perm (g : SpanGroup) (s : Span) : (g.add s).spans.Perm (s :: g.spans) := by
  unfold add
  split
  · exact List.Perm.refl _
  · show (g.primary :: (g.legs ++ [s])).Perm (s :: g.primary :: g.legs)
    exact ((List.perm_append_singleton s g.legs).cons _).trans (List.Perm.swap _ _ _)

theorem ids_insert (gs : List SpanGroup) (s : Span) :
    (insert gs s).map (·.id) =
      if s.id ∈ gs.map (·.id) then gs.map (·.id) else gs.map (·.id) ++ [s.id] := by
  induction gs with
  | nil => rfl
  | cons g rest ih =>
      by_cases h : g.id = s.id
      · simp [insert, h]
      · have h' : ¬ s.id = g.id := fun e => h e.symm
        simp only [insert, h, ↓reduceIte, List.map_cons, ih, List.mem_cons, h', false_or]
        split <;> rfl

theorem spans_insert_perm (gs : List SpanGroup) (s : Span) :
    ((insert gs s).flatMap (·.spans)).Perm (s :: gs.flatMap (·.spans)) := by
  induction gs with
  | nil => exact List.Perm.refl _
  | cons g rest ih =>
      simp only [insert]
      split
      · simpa only [List.flatMap_cons, List.cons_append] using
          (spans_add_perm g s).append_right (rest.flatMap (·.spans))
      · rw [List.flatMap_cons, List.flatMap_cons]
        exact (ih.append_left g.spans).trans List.perm_middle

theorem index_concat (spans : List Span) (s : Span) :
    index (spans ++ [s]) = insert (index spans) s := by
  simp [index, List.foldl_append]

theorem nodup_ids_index (spans : List Span) : ((index spans).map (·.id)).Nodup := by
  induction spans using List.reverseRecOn with
  | nil => exact List.nodup_nil
  | append_singleton spans s ih =>
      rw [index_concat, ids_insert]
      split
      · exact ih
      · rename_i h
        exact List.nodup_append.mpr ⟨ih, List.nodup_singleton _, fun a ha b hb e =>
          h (by rw [← List.mem_singleton.mp hb, ← e]; exact ha)⟩

theorem mem_ids_index {spans : List Span} {id : Text} :
    id ∈ (index spans).map (·.id) ↔ id ∈ spans.map (·.id) := by
  induction spans using List.reverseRecOn with
  | nil => simp [index]
  | append_singleton spans s ih =>
      rw [index_concat, ids_insert, List.map_append, List.mem_append, ← ih]
      split
      · rename_i h
        refine ⟨Or.inl, ?_⟩
        rintro (h' | h')
        · exact h'
        · exact List.mem_singleton.mp h' ▸ h
      · simp

/-- No span is lost and none is doubled. -/
theorem spans_index_perm (spans : List Span) :
    ((index spans).flatMap (·.spans)).Perm spans := by
  induction spans using List.reverseRecOn with
  | nil => exact List.Perm.refl _
  | append_singleton spans s ih =>
      rw [index_concat]
      exact ((spans_insert_perm _ s).trans (ih.cons s)).trans
        (List.perm_append_singleton s spans).symm

theorem primary_mem_of_mem_index {spans : List Span} {g : SpanGroup} (h : g ∈ index spans) :
    g.primary ∈ spans :=
  (spans_index_perm spans).subset (List.mem_flatMap.mpr ⟨g, h, List.mem_cons_self⟩)

end TraceExplorer.SpanGroup
