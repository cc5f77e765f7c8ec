import TraceExplorer.Proofs.Summary.Trace
import TraceExplorer.Proofs.Tree.Build
import TraceExplorer.Summary.Batch

/-!
# The order of a batch

The list of a batch does not depend on the order of its traces, nor on the order of the spans of a
trace, but for rows of the same length and trace id.
-/

namespace TraceExplorer.Batch

/-- Two batches have the same traces, each with the same spans, in some order. -/
def Reordered (traces traces' : List (List Span)) : Prop :=
  ∃ between, traces.Perm between ∧ List.Forall₂ List.Perm between traces'

def rankKey (item : TraceListItem) : Int × Text := (item.duration, item.traceId)

def summaryOf? (spans : List Span) : Option TraceSummary :=
  ((Outcome.ofSpans Except.ok (Classifier.standard (σ := Unit)) spans).run ()).1.summary?

/-- The summary of the spans of a trace as they are listed, without a tree. -/
def plainSummary? (spans : List Span) : Option TraceSummary :=
  (TraceSummary.ofSpans spans (.worst spans)).toOption

open TraceListItem
open TraceSummary (Alike)

section

variable {options : ListOptions} {spans spans' : List Span} {traces traces' : List (List Span)}
  {summaries summaries' : List TraceSummary} {items : List TraceListItem} {t : TraceTree}

/-! ## Summaries -/

theorem run_mapM {α β : Type} (f : α → StateM Unit β) (l : List α) :
    (l.mapM f).run () = (l.map fun a => ((f a).run ()).1, ()) := by
  induction l with
  | nil => rfl
  | cons a rest ih =>
      simp [List.mapM_cons, ih]
      rfl

theorem items_ofTraces :
    (ofTraces options traces).items = rank options (traces.filterMap summaryOf?) := by
  change rank options (((traces.mapM
    (Outcome.ofSpans Except.ok (Classifier.standard (σ := Unit)))).run ()).1.filterMap
      (·.summary?)) = _
  rw [run_mapM, List.filterMap_map]
  rfl

theorem summaryOf?_eq (ht : TraceTree.build spans = .ok t) (hne : spans ≠ []) :
    summaryOf? spans = plainSummary? t.spans := by
  have htree : Outcome.treeOf Except.ok spans = .ok t := by
    simp [Outcome.treeOf, hne, bind, Except.bind, ht]
  simp only [summaryOf?, Outcome.ofSpans, htree, TraceSummary.ofTree, Classifier.judge_standard,
    pure_bind]
  rw [plainSummary?, ← ErrorType.worst]
  cases TraceSummary.ofSpans t.spans (.worst t.spans) with
  | error e => rfl
  | ok s => rfl

theorem plainSummary?_perm (h : Regular spans) (hperm : spans.Perm spans') :
    Option.Rel Alike (plainSummary? spans) (plainSummary? spans') := by
  rw [plainSummary?, plainSummary?, ErrorType.worst_perm hperm]
  exact TraceSummary.ofSpans_perm h hperm _

theorem summaryOf?_alike (h : Regular spans) :
    Option.Rel Alike (summaryOf? spans) (plainSummary? spans) := by
  by_cases hne : spans = []
  · subst hne
    exact .none
  · obtain ⟨t, ht⟩ := TraceTree.exists_build h.parent
    have hspans := (TraceTree.Built.of_build ht).spans_perm
    rw [summaryOf?_eq ht hne]
    exact plainSummary?_perm (h.perm hspans.symm) hspans

/-! ## Rows -/

theorem rank_eq_ok_iff :
    rank options summaries = .ok items ↔
      ∃ rows, summaries.mapM (ofSummary options ((summaries.map (·.duration)).max?.getD 0)) =
          .ok rows ∧ items = rows.mergeSort le := by
  rw [rank]
  cases summaries.mapM (ofSummary options ((summaries.map (·.duration)).max?.getD 0)) with
  | error e => simp [bind, Except.bind]
  | ok rows => simp [bind, Except.bind, pure, Except.pure, eq_comm]

theorem rank_congr (h : List.Forall₂ Alike summaries summaries') :
    rank options summaries = rank options summaries' := by
  have hdurations := Reordering.map_forall₂ (fun _ _ h => Alike.duration h) h
  rw [rank, rank, hdurations, Reordering.mapM_forall₂ (fun _ _ h => h.ofSummary _) h]

/-- Summaries in another order have the same rows, but for the order of those of one key. -/
theorem rank_perm (h : summaries.Perm summaries') (hitems : rank options summaries = .ok items) :
    ∃ items', rank options summaries' = .ok items' ∧ items'.Perm items ∧
      items'.map rankKey = items.map rankKey ∧ ((items.map rankKey).Nodup → items' = items) := by
  obtain ⟨rows, hrows, rfl⟩ := rank_eq_ok_iff.mp hitems
  obtain ⟨rows', hrows', hperm⟩ := Reordering.mapM_perm h hrows
  rw [Reordering.max?_perm (h.map _)] at hrows'
  refine ⟨_, rank_eq_ok_iff.mpr ⟨rows', hrows', rfl⟩, ranked_perm rankKey hperm,
    map_key_ranked rankKey hperm, fun hnodup => ranked_eq rankKey hperm ?_⟩
  have hkeys : (rows'.map rankKey).Nodup :=
    (((List.mergeSort_perm rows _).trans hperm.symm).map rankKey).nodup_iff.mp hnodup
  exact fun a ha b hb => List.inj_on_of_nodup_map hkeys ha hb

/-- The list of a batch can be made without the trees of its traces. -/
theorem items_eq_rank (h : ∀ spans ∈ traces, Regular spans) :
    (ofTraces options traces).items = rank options (traces.filterMap plainSummary?) := by
  rw [items_ofTraces]
  have hsame : List.Forall₂ (fun spans spans' => spans = spans' ∧ Regular spans) traces traces :=
    List.forall₂_same.mpr fun spans hspans => ⟨rfl, h spans hspans⟩
  refine rank_congr (List.rel_filterMap ?_ hsame)
  rintro spans _ ⟨rfl, hspans⟩
  exact summaryOf?_alike hspans

theorem rank_forall₂ (h : ∀ spans ∈ traces, Regular spans)
    (hspans : List.Forall₂ List.Perm traces traces') :
    rank options (traces.filterMap plainSummary?) =
      rank options (traces'.filterMap plainSummary?) := by
  refine rank_congr (List.rel_filterMap ?_ ((List.forall₂_and_left _ _).mpr ⟨h, hspans⟩))
  rintro spans spans' ⟨hregular, hperm⟩
  exact plainSummary?_perm hregular hperm

theorem regular_forall₂ (h : ∀ spans ∈ traces, Regular spans)
    (hspans : List.Forall₂ List.Perm traces traces') : ∀ spans ∈ traces', Regular spans := by
  have hboth : List.Forall₂ (fun spans spans' => Regular spans ∧ spans'.Perm spans)
      traces' traces :=
    (((List.forall₂_and_left _ _).mpr ⟨h, hspans⟩).imp
      fun _ _ hab => ⟨hab.1.perm hab.2, hab.2⟩).flip
  exact ((List.forall₂_and_left _ _).mp hboth).1

end

/-- A batch in another order has the same list, but for the order of rows of one length and trace
id. -/
theorem items_reordered {options : ListOptions} {traces traces' : List (List Span)}
    {items : List TraceListItem} (hregular : ∀ spans ∈ traces, Regular spans)
    (h : Reordered traces traces') (hitems : (ofTraces options traces).items = .ok items) :
    ∃ items', (ofTraces options traces').items = .ok items' ∧ items'.Perm items ∧
      items'.map rankKey = items.map rankKey ∧ ((items.map rankKey).Nodup → items' = items) := by
  obtain ⟨between, hperm, hspans⟩ := h
  have hbetween : ∀ spans ∈ between, Regular spans :=
    fun spans hmem => hregular spans (hperm.mem_iff.mpr hmem)
  rw [items_eq_rank hregular] at hitems
  rw [items_eq_rank (regular_forall₂ hbetween hspans), ← rank_forall₂ hbetween hspans]
  exact rank_perm (hperm.filterMap _) hitems

/-- Two traces change places, and so do the spans of the longer one. -/
theorem items_reordered_of_pair :
    let first : Span := {
      traceId := "1", id := "a", timestamp := some 10, duration := some 30
      localEndpoint := some { serviceName := some "web" } }
    let second : Span := {
      traceId := "1", id := "b", parentId := some "a", timestamp := some 20, duration := some 5
      localEndpoint := some { serviceName := some "db" }, tags := [("error", "")] }
    let other : Span := { traceId := "2", id := "c", timestamp := some 7 }
    let options : ListOptions := { serviceName := some "db", utc := true }
    (∀ spans ∈ [[first, second], [other]], Regular spans) ∧
      Reordered [[first, second], [other]] [[other], [second, first]] ∧
      ∃ items items', (ofTraces options [[first, second], [other]]).items = .ok items ∧
        (ofTraces options [[other], [second, first]]).items = .ok items' ∧ items'.Perm items ∧
        items'.map rankKey = items.map rankKey ∧
        ((items.map rankKey).Nodup → items' = items) := by
  intro first second other options
  have hregular : ∀ spans ∈ [[first, second], [other]], Regular spans := by
    intro spans hspans
    simp only [List.mem_cons, List.not_mem_nil, or_false] at hspans
    rcases hspans with rfl | rfl <;> exact ⟨by decide, by decide, by decide⟩
  have hreordered : Reordered [[first, second], [other]] [[other], [second, first]] :=
    ⟨[[other], [first, second]], .swap _ _ _, .cons (.refl _) (.cons (.swap _ _ _) .nil)⟩
  have hsome : (rank options
      ([[first, second], [other]].filterMap plainSummary?)).toOption.isSome := by decide +kernel
  rw [← items_eq_rank hregular] at hsome
  cases hitems : (ofTraces options [[first, second], [other]]).items with
  | error e => simp [hitems, Except.toOption] at hsome
  | ok items =>
      obtain ⟨items', hitems', hrest⟩ := items_reordered hregular hreordered hitems
      exact ⟨hregular, hreordered, items, items', rfl, hitems', hrest⟩

end TraceExplorer.Batch
