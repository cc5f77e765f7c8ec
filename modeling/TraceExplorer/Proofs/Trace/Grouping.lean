import TraceExplorer.Proofs.Positions
import TraceExplorer.Proofs.Reordering
import TraceExplorer.Proofs.Span.Reading
import TraceExplorer.Proofs.Success
import TraceExplorer.Trace.Loader

/-!
# Grouping spans by trace id

A list that is not made of lists only holds spans, and its traces are the groups of its spans by
trace id. The grouping takes one span after the other, and what comes of it is said without that
order of work: the trace of an id is what passes the test for that id.
-/

namespace TraceExplorer.Trace

open Json (Value)
open Reordering

def ofTraceId (spans : List Span) (id : Text) : List Span := spans.filter (·.traceId = id)

/-- The traces part the spans by trace id, and the ids come in the order in which the spans first
have them. -/
structure PartsByTraceId (spans : List Span) (traces : List (List Span)) : Prop where
  perm : traces.flatten.Perm spans
  nonempty : ∀ trace ∈ traces, trace ≠ []
  whole : ∀ trace ∈ traces, ∀ s ∈ trace, trace = ofTraceId spans s.traceId
  distinct : traces.Pairwise fun earlier later =>
    ∀ s ∈ earlier, ∀ s' ∈ later, s.traceId ≠ s'.traceId
  inOrder : traces.Pairwise fun earlier later =>
    ∀ s ∈ earlier, ∀ s' ∈ later,
      (spans.map (·.traceId)).idxOf s.traceId < (spans.map (·.traceId)).idxOf s'.traceId

def spelledTraceId? : Value → Option Text
  | .object fields => normalizeId (Span.fieldOf fields "traceId")
  | _ => none

section

variable {items trace : List Value} {lists : List (List Value)} {spans : List Span}
  {traces : List (List Span)} {v : Value} {s : Span} {id : Text} {ids : List Text}

/-! ## Lists of lists -/

theorem items?_eq_some_iff : items? v = some trace ↔ v = .list trace := by
  cases v <;> simp [items?]

theorem mapM_items?_eq_some_iff : items.mapM items? = some lists ↔ items = lists.map .list := by
  induction items generalizing lists with
  | nil => cases lists <;> simp
  | cons v rest ih =>
      rw [List.mapM_cons]
      simp only [Option.bind_eq_some_iff, items?_eq_some_iff, ih, bind, pure, Option.some.injEq]
      cases lists with
      | nil => simp
      | cons list lists =>
          simp only [List.map_cons, List.cons.injEq]
          constructor
          · rintro ⟨_, rfl, _, rfl, rfl, rfl⟩
            exact ⟨rfl, rfl⟩
          · rintro ⟨rfl, rfl⟩
            exact ⟨_, rfl, _, rfl, rfl, rfl⟩

theorem mapM_items?_eq_none_iff :
    items.mapM items? = none ↔ ∃ item ∈ items, items? item = none := by
  induction items with
  | nil => simp
  | cons v rest ih =>
      rw [List.exists_mem_cons_iff, ← ih, List.mapM_cons]
      cases items? v <;> cases rest.mapM items? <;> simp

/-! ## No span is lost -/

theorem flatten_addToTrace_perm (traces : List (List Span)) (s : Span) :
    (addToTrace traces s).flatten.Perm (s :: traces.flatten) := by
  induction traces with
  | nil => rfl
  | cons trace rest ih =>
      unfold addToTrace
      split
      · rw [List.flatten_cons, List.flatten_cons, List.append_assoc]
        exact List.perm_middle
      · rw [List.flatten_cons, List.flatten_cons]
        exact (ih.append_left trace).trans List.perm_middle

theorem groupByTraceId_perm (spans : List Span) : (groupByTraceId spans).flatten.Perm spans := by
  induction spans using List.reverseRecOn with
  | nil => rfl
  | append_singleton spans s ih =>
      rw [groupByTraceId, List.foldl_concat]
      refine (flatten_addToTrace_perm _ s).trans ?_
      exact (ih.cons s).trans (List.perm_append_singleton s spans).symm

/-! ## The trace of an id -/

theorem mem_ofTraceId_iff : s ∈ ofTraceId spans id ↔ s ∈ spans ∧ s.traceId = id := by
  rw [ofTraceId, List.mem_filter, decide_eq_true_iff]

theorem ofTraceId_concat (spans : List Span) (s : Span) (id : Text) :
    ofTraceId (spans ++ [s]) id =
      if s.traceId = id then ofTraceId spans id ++ [s] else ofTraceId spans id := by
  rw [ofTraceId, List.filter_append, List.filter_singleton, ofTraceId]
  split <;> simp_all

theorem ofTraceId_ne_nil (h : id ∈ spans.map (·.traceId)) : ofTraceId spans id ≠ [] := by
  obtain ⟨s, hs, rfl⟩ := List.mem_map.mp h
  exact List.ne_nil_of_mem (mem_ofTraceId_iff.mpr ⟨hs, rfl⟩)

theorem traceId_head?_ofTraceId (h : id ∈ spans.map (·.traceId)) :
    (ofTraceId spans id).head?.map (·.traceId) = some id := by
  obtain ⟨first, rest, hcons⟩ := List.exists_cons_of_ne_nil (ofTraceId_ne_nil h)
  have hfirst : first ∈ ofTraceId spans id := hcons ▸ List.mem_cons_self
  rw [hcons, List.head?_cons, Option.map_some, (mem_ofTraceId_iff.mp hfirst).2]

/-- A span goes to the trace of its id. -/
theorem addToTrace_ofTraceId (hids : ∀ id ∈ ids, id ∈ spans.map (·.traceId)) (hnodup : ids.Nodup)
    (s : Span) :
    addToTrace (ids.map (ofTraceId spans)) s =
      if s.traceId ∈ ids then ids.map (ofTraceId (spans ++ [s]))
      else ids.map (ofTraceId (spans ++ [s])) ++ [[s]] := by
  induction ids with
  | nil => rfl
  | cons id rest ih =>
      obtain ⟨hid, hids⟩ := List.forall_mem_cons.mp hids
      obtain ⟨hnew, hnodup⟩ := List.nodup_cons.mp hnodup
      rw [List.map_cons, addToTrace, traceId_head?_ofTraceId hid, List.map_cons, ofTraceId_concat,
        ih hids hnodup]
      by_cases hs : s.traceId = id
      · subst hs
        have hrest : rest.map (ofTraceId spans) = rest.map (ofTraceId (spans ++ [s])) := by
          refine List.map_congr_left fun id hid => ?_
          have hne : s.traceId ≠ id := by
            rintro rfl
            exact hnew hid
          rw [ofTraceId_concat, if_neg hne]
        rw [if_pos rfl, if_pos rfl, if_pos List.mem_cons_self, hrest]
      · have hs' : some id ≠ some s.traceId := fun heq => hs (Option.some.inj heq).symm
        rw [if_neg hs', if_neg hs]
        simp only [List.mem_cons, hs, false_or]
        split <;> rfl

/-- The traces are those of the different ids, in the order in which the spans first have them. -/
theorem groupByTraceId_eq (spans : List Span) :
    groupByTraceId spans = (spans.map (·.traceId)).eraseDups.map (ofTraceId spans) := by
  induction spans using List.reverseRecOn with
  | nil => rfl
  | append_singleton spans s ih =>
      rw [groupByTraceId, List.foldl_concat, ← groupByTraceId, ih, addToTrace_ofTraceId
        (fun id hid => List.mem_eraseDups.mp hid) (Positions.nodup_eraseDups _),
        List.map_append, List.map_singleton, Positions.eraseDups_concat]
      simp only [List.mem_eraseDups]
      split
      · rfl
      · rename_i hnew
        have hnone : ofTraceId spans s.traceId = [] := by
          rw [ofTraceId, List.filter_eq_nil_iff]
          intro s' hs' heq
          exact hnew (List.mem_map.mpr ⟨s', hs', of_decide_eq_true heq⟩)
        rw [List.map_append, List.map_singleton, ofTraceId_concat spans s s.traceId, if_pos rfl,
          hnone, List.nil_append]

theorem partsByTraceId_groupByTraceId (spans : List Span) :
    PartsByTraceId spans (groupByTraceId spans) := by
  have hinOrder : (groupByTraceId spans).Pairwise fun earlier later =>
      ∀ s ∈ earlier, ∀ s' ∈ later,
        (spans.map (·.traceId)).idxOf s.traceId < (spans.map (·.traceId)).idxOf s'.traceId := by
    rw [groupByTraceId_eq, List.pairwise_map]
    refine (Positions.pairwise_eraseDups _).imp fun hlt s hs s' hs' => ?_
    rwa [(mem_ofTraceId_iff.mp hs).2, (mem_ofTraceId_iff.mp hs').2]
  have htrace {trace : List Span} (h : trace ∈ groupByTraceId spans) :
      ∃ id ∈ spans.map (·.traceId), ofTraceId spans id = trace := by
    rw [groupByTraceId_eq] at h
    obtain ⟨id, hid, heq⟩ := List.mem_map.mp h
    exact ⟨id, List.mem_eraseDups.mp hid, heq⟩
  refine ⟨groupByTraceId_perm spans, fun trace h => ?_, fun trace h s hs => ?_, ?_, hinOrder⟩
  · obtain ⟨id, hid, rfl⟩ := htrace h
    exact ofTraceId_ne_nil hid
  · obtain ⟨id, -, rfl⟩ := htrace h
    rw [(mem_ofTraceId_iff.mp hs).2]
  · refine hinOrder.imp fun hlt s hs s' hs' heq => ?_
    exact Nat.lt_irrefl _ (heq ▸ hlt s hs s' hs')

/-! ## Flat lists -/

theorem readSpan_eq_ok_iff : readSpan v = .ok s ↔ Span.ofJson v = .ok s := mapError_eq_ok_iff

theorem spelledTraceId?_of_ofJson (h : Span.ofJson v = .ok s) :
    spelledTraceId? v = some s.traceId := by
  cases v with
  | object fields => exact (Span.ofFields_eq_ok_iff.mp h).traceId
  | _ => cases h

/-- The trace of an id is read from the items that spell it. -/
theorem forall₂_ofTraceId (h : List.Forall₂ (fun v s => Span.ofJson v = .ok s) items spans)
    (id : Text) :
    List.Forall₂ (fun v s => Span.ofJson v = .ok s)
      (items.filter (spelledTraceId? · = some id)) (ofTraceId spans id) := by
  refine List.rel_filter (fun v s hs => ?_) h
  simp only [decide_eq_true_iff, spelledTraceId?_of_ofJson hs, Option.some.injEq]

end

/-- A flat list of spans that can be read holds the groups of its spans by trace id, each in the
order of the list, in the order in which the ids first appear. The trace of an id is read from all
items that spell that id, in whatever way. -/
theorem ofJson_of_flat_list {items : List Value} (hflat : ∃ v ∈ items, ∀ inner, v ≠ .list inner)
    (hread : ∀ v ∈ items, ∃ s, Span.ofJson v = .ok s) :
    ∃ spans traces, List.Forall₂ (fun v s => Span.ofJson v = .ok s) items spans ∧
      ofJson (.list items) = .ok traces ∧ PartsByTraceId spans traces ∧
      ∀ trace ∈ traces, ∃ id, List.Forall₂ (fun v s => Span.ofJson v = .ok s)
        (items.filter (spelledTraceId? · = some id)) trace := by
  obtain ⟨v, hv, hsingle⟩ := hflat
  have hnone : items? v = none := by
    cases hlist : items? v with
    | none => rfl
    | some inner => exact absurd (items?_eq_some_iff.mp hlist) (hsingle inner)
  have hreads : ∀ v ∈ items, ∃ s, readSpan v = .ok s := fun v hv =>
    (hread v hv).imp fun _ => readSpan_eq_ok_iff.mpr
  obtain ⟨spans, hspans⟩ := exists_mapM_iff.mpr hreads
  have heach : List.Forall₂ (fun v s => Span.ofJson v = .ok s) items spans :=
    (mapM_eq_ok_iff.mp hspans).imp fun _ _ => readSpan_eq_ok_iff.mp
  refine ⟨spans, groupByTraceId spans, heach, ?_, partsByTraceId_groupByTraceId spans, ?_⟩
  · rw [ofJson, ofItems, mapM_items?_eq_none_iff.mpr ⟨v, hv, hnone⟩, hspans]
    rfl
  · intro trace htrace
    rw [groupByTraceId_eq] at htrace
    obtain ⟨id, -, rfl⟩ := List.mem_map.mp htrace
    exact ⟨id, forall₂_ofTraceId heach id⟩

/-- Two spellings of one trace id, with a span of another trace between them. -/
theorem ofJson_of_flat_list_of_spellings :
    ∃ items : List Value, (∃ v ∈ items, ∀ inner, v ≠ .list inner) ∧
      (∀ v ∈ items, ∃ s, Span.ofJson v = .ok s) ∧
      ∃ spans traces, ofJson (.list items) = .ok traces ∧ PartsByTraceId spans traces ∧
        traces.map (·.length) = [2, 1] := by
  let items : List Value := [
    .object [("traceId", .text " AB"), ("id", .text "1")],
    .object [("traceId", .whole 2), ("id", .text "2")],
    .object [("traceId", .text "00ab"), ("id", .text "3")]]
  have hflat : ∃ v ∈ items, ∀ inner, v ≠ .list inner :=
    ⟨_, List.mem_cons_self, fun inner heq => Value.noConfusion heq⟩
  have hread : ∀ v ∈ items, ∃ s, Span.ofJson v = .ok s := by
    simp only [items, List.forall_mem_cons, List.not_mem_nil, false_implies, implies_true, and_true]
    exact ⟨⟨_, rfl⟩, ⟨_, rfl⟩, ⟨_, rfl⟩⟩
  obtain ⟨spans, traces, -, htraces, hparts, -⟩ := ofJson_of_flat_list hflat hread
  have hlengths : (ofJson (.list items)).toOption.map (·.map (·.length)) = some [2, 1] := by
    decide +kernel
  rw [htraces] at hlengths
  exact ⟨items, hflat, hread, spans, traces, htraces, hparts, Option.some.inj hlengths⟩

end TraceExplorer.Trace
