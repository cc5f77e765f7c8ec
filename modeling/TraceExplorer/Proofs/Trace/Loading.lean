import TraceExplorer.Proofs.Schema.Documents
import TraceExplorer.Proofs.Span.Admitted
import TraceExplorer.Proofs.Trace.Grouping

/-!
# Loading what was validated

A document that passes validation holds spans only, but validation looks at the items of a list one
by one while loading takes either spans or lists of spans. What is loaded are all the spans that
were counted, unless the document mixes the two.
-/

namespace TraceExplorer.Trace

open Json (Value)
open Reordering Schema

/-- A list that holds both lists and other values. -/
def IsMixed (v : Value) : Prop :=
  ∃ items, v = .list items ∧ (∃ spans, .list spans ∈ items) ∧ ∃ item ∈ items, items? item = none

def spanTotal (traces : List (List Span)) : Nat := (traces.map (·.length)).sum

section

variable {items trace : List Value} {lists : List (List Value)} {spans : List Span}
  {traces : List (List Span)} {v : Value} {span : Span}

/-! ## Reading spans -/

theorem exists_readSpan (h : Passes spanSchema v) : ∃ span, readSpan v = .ok span := by
  obtain ⟨fields, rfl⟩ := Span.exists_fields_of_passes h
  obtain ⟨span, hspan, -⟩ := Span.exists_given_of_passes h
  exact ⟨span, readSpan_eq_ok_iff.mpr hspan⟩

theorem exists_mapM_readSpan (h : ∀ v ∈ items, Passes spanSchema v) :
    ∃ spans, items.mapM readSpan = .ok spans ∧ spans.length = items.length := by
  obtain ⟨spans, hspans⟩ := exists_mapM_iff.mpr fun v hv => exists_readSpan (h v hv)
  exact ⟨spans, hspans, (mapM_eq_ok_iff.mp hspans).length_eq.symm⟩

theorem spanTotal_groupByTraceId (spans : List Span) :
    spanTotal (groupByTraceId spans) = spans.length := by
  rw [spanTotal, ← List.length_flatten]
  exact (groupByTraceId_perm spans).length_eq

/-! ## Reading items -/

theorem exists_mapM_lists (h : ∀ trace ∈ lists, ∀ v ∈ trace, Passes spanSchema v) :
    ∃ traces, lists.mapM (fun trace => trace.mapM readSpan) = .ok traces ∧
      spanTotal traces = (lists.map (·.length)).sum := by
  obtain ⟨traces, htraces⟩ := exists_mapM_iff.mpr fun trace htrace =>
    (exists_mapM_readSpan (h trace htrace)).imp fun _ hspans => hspans.1
  refine ⟨traces, htraces, ?_⟩
  have hlengths : List.Forall₂ (· = ·) (lists.map (·.length)) (traces.map (·.length)) := by
    rw [List.forall₂_map_left_iff, List.forall₂_map_right_iff]
    exact (mapM_eq_ok_iff.mp htraces).imp fun _ _ hread => (mapM_eq_ok_iff.mp hread).length_eq
  rw [List.forall₂_eq_eq_eq] at hlengths
  rw [spanTotal, hlengths]

theorem flatMap_spansOfItem_lists (lists : List (List Value)) :
    (lists.map Value.list).flatMap Validation.spansOfItem = lists.flatten := by
  rw [List.flatMap_map]
  exact List.flatMap_id

theorem spansOfItem_of_none (h : items? v = none) : Validation.spansOfItem v = [v] := by
  cases v <;> first | rfl | cases h

theorem flatMap_spansOfItem_single (h : ∀ v ∈ items, items? v = none) :
    items.flatMap Validation.spansOfItem = items := by
  rw [List.flatMap_congr fun v hv => spansOfItem_of_none (h v hv), List.flatMap_singleton']

/-- If each span among the items passes the schema, reading the items yields as many. -/
theorem exists_ofItems (h : ∀ v ∈ items.flatMap Validation.spansOfItem, Passes spanSchema v)
    (hmixed : ¬ IsMixed (.list items)) :
    ∃ traces, ofItems items = .ok traces ∧
      spanTotal traces = (items.flatMap Validation.spansOfItem).length := by
  rw [ofItems]
  cases hlists : items.mapM items? with
  | some lists =>
      obtain rfl := mapM_items?_eq_some_iff.mp hlists
      rw [flatMap_spansOfItem_lists] at h ⊢
      rw [List.length_flatten]
      exact exists_mapM_lists fun trace htrace v hv => h v (List.mem_flatten_of_mem htrace hv)
  | none =>
      have hsingle : ∀ v ∈ items, items? v = none := by
        intro v hv
        cases hv' : items? v with
        | none => rfl
        | some spans =>
            obtain rfl := items?_eq_some_iff.mp hv'
            exact absurd ⟨items, rfl, ⟨spans, hv⟩, mapM_items?_eq_none_iff.mp hlists⟩ hmixed
      rw [flatMap_spansOfItem_single hsingle] at h ⊢
      obtain ⟨spans, hspans, hlength⟩ := exists_mapM_readSpan h
      refine ⟨groupByTraceId spans, ?_, (spanTotal_groupByTraceId spans).trans hlength⟩
      simp only [hspans]
      rfl

/-- The first list among spans is refused. -/
theorem mapM_readSpan_of_list (h : ∀ v ∈ items.flatMap Validation.spansOfItem, Passes spanSchema v)
    (hlist : ∃ spans, .list spans ∈ items) :
    items.mapM readSpan = .error (.badSpan (.notAnObject "list")) := by
  induction items with
  | nil => simp at hlist
  | cons v rest ih =>
      rw [List.flatMap_cons, List.forall_mem_append] at h
      obtain ⟨hfirst, hrest⟩ := h
      rw [List.mapM_cons]
      cases hv : items? v with
      | some spans =>
          obtain rfl := items?_eq_some_iff.mp hv
          rfl
      | none =>
          obtain ⟨span, hspan⟩ := exists_readSpan (v := v)
            (hfirst v (by rw [spansOfItem_of_none hv]; exact List.mem_singleton_self v))
          obtain ⟨spans, hspans⟩ := hlist
          have hmem : .list spans ∈ rest := by
            refine (List.mem_cons.mp hspans).resolve_left ?_
            rintro rfl
            cases hv
          rw [hspan, ih hrest ⟨spans, hmem⟩]
          rfl

theorem ofItems_mixed (h : ∀ v ∈ items.flatMap Validation.spansOfItem, Passes spanSchema v)
    (hmixed : IsMixed (.list items)) :
    ofItems items = .error (.badSpan (.notAnObject "list")) := by
  obtain ⟨items', heq, hlist, hother⟩ := hmixed
  obtain rfl := Value.list.inj heq
  rw [ofItems, mapM_items?_eq_none_iff.mpr hother, mapM_readSpan_of_list h hlist]
  rfl

end

/-- A document that passes validation yields as many spans as were counted, unless it mixes spans
with lists of spans: then a list is refused where a span is expected. -/
theorem ofJson_of_isValid_document {filePath : String} {v : Value}
    (h : (Validation.ofJson filePath v).isValid) :
    (¬ IsMixed v → ∃ traces, ofJson v = .ok traces ∧
      spanTotal traces = (Validation.ofJson filePath v).spanCount) ∧
    (IsMixed v → ofJson v = .error (.badSpan (.notAnObject "list"))) := by
  have hnever {fields : List (Text × Value)} : ¬ IsMixed (.object fields) := by
    rintro ⟨items, heq, -⟩
    cases heq
  cases v with
  | object fields =>
      have hchecked := Validation.checked_addSpan { filePath } [] none (.object fields)
      have hpasses : ∀ v ∈ [Value.object fields].flatMap Validation.spansOfItem,
          Passes spanSchema v := (hchecked.isValid.mp h).2
      have hsingle : ¬ IsMixed (.list [.object fields]) := by
        rintro ⟨items, heq, ⟨spans, hspans⟩, -⟩
        obtain rfl := Value.list.inj heq
        cases List.mem_singleton.mp hspans
      exact ⟨fun _ => exists_ofItems hpasses hsingle, fun hmixed => absurd hmixed hnever⟩
  | list items =>
      have hchecked := Validation.checked_ofItems filePath items
      have hpasses := (hchecked.isValid.mp h).2
      refine ⟨fun hmixed => ?_, fun hmixed => ofItems_mixed hpasses hmixed⟩
      rw [hchecked.spanCount, Nat.zero_add]
      exact exists_ofItems hpasses hmixed
  | _ => cases h

/-- Two lists of spans, of which the second one is empty. -/
theorem ofJson_of_isValid_document_of_lists :
    ∃ v : Value, (Validation.ofJson "" v).isValid ∧ (Validation.ofJson "" v).spanCount = 2 ∧
      ∃ traces, ofJson v = .ok traces ∧ spanTotal traces = 2 := by
  have hvalid : (Validation.ofJson "" (.list [
      .list [.object [("traceId", .text "1"), ("id", .text "1")],
        .object [("traceId", .text "1"), ("id", .text "2"), ("parentId", .text "1")]],
      .list []])).isValid := by decide +kernel
  have hmixed : ¬ IsMixed (.list [
      .list [.object [("traceId", .text "1"), ("id", .text "1")],
        .object [("traceId", .text "1"), ("id", .text "2"), ("parentId", .text "1")]],
      .list []]) := by
    rintro ⟨items, heq, -, item, hitem, hnone⟩
    obtain rfl := Value.list.inj heq
    simp only [List.mem_cons, List.not_mem_nil, or_false] at hitem
    rcases hitem with rfl | rfl <;> cases hnone
  obtain ⟨traces, htraces, htotal⟩ := (ofJson_of_isValid_document hvalid).1 hmixed
  exact ⟨_, hvalid, rfl, traces, htraces, htotal⟩

/-- A list of spans beside a span passes validation, but is not loaded. -/
theorem ofJson_error_of_mixed_document :
    (Validation.ofJson "" (.list [
      .list [.object [("traceId", .text "1"), ("id", .text "1")]],
      .object [("traceId", .text "2"), ("id", .text "2")]])).isValid ∧
    ∀ traces, ofJson (.list [
      .list [.object [("traceId", .text "1"), ("id", .text "1")]],
      .object [("traceId", .text "2"), ("id", .text "2")]]) ≠ .ok traces := by
  refine ⟨by decide +kernel, fun traces htraces => ?_⟩
  cases htraces

end TraceExplorer.Trace
