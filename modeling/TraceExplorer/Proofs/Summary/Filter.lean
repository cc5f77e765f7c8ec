import TraceExplorer.Proofs.Summary.Share
import TraceExplorer.Proofs.Span.WellFormed
import TraceExplorer.Proofs.Trace.Origin

/-!
# The chosen service of a list

The services of a trace are in lower case, and the list looks the chosen service up as it is. A
service in another case is found in no trace, so that it adds nothing to the list.
-/

namespace TraceExplorer

def TraceListItem.unshared (item : TraceListItem) : TraceListItem :=
  { item with servicePercentage := none }

namespace TraceListItem

section

variable {options : ListOptions} {service : Text} {longest : Int} {s : TraceSummary}
  {summaries : List TraceSummary} {item : TraceListItem} {items : List TraceListItem}

/-! ## Rows -/

theorem ofSummary_of_absent (h : s.grouped.lookup service = none) :
    ofSummary { options with serviceName := some service } longest s =
      ofSummary { options with serviceName := none } longest s := by
  have hnone : chosenIntervals? { options with serviceName := some service } s =
      chosenIntervals? { options with serviceName := none } s := by
    simp only [chosenIntervals?, Option.filter_some]
    cases service.isEmpty
    · change Option.filter _ (s.grouped.lookup service) = none
      rw [h, Option.filter_none]
    · rfl
  have hshare : shareOfService { options with serviceName := some service } s =
      shareOfService { options with serviceName := none } s := by
    rw [shareOfService, shareOfService, hnone]
  rw [ofSummary, ofSummary, hshare]

theorem ofSummary_unshared (h : ofSummary options longest s = .ok item) :
    ofSummary { options with serviceName := none } longest s = .ok item.unshared := by
  obtain ⟨startText, timed, share, hstart, htimed, -, rfl⟩ := ofSummary_eq_ok_iff.mp h
  exact ofSummary_eq_ok_iff.mpr ⟨startText, timed, none, hstart, htimed, rfl, rfl⟩

/-! ## Lists -/

theorem rank_of_absent (h : ∀ s ∈ summaries, s.grouped.lookup service = none) :
    rank { options with serviceName := some service } summaries =
      rank { options with serviceName := none } summaries := by
  rw [rank, rank, Reordering.mapM_congr fun s hs => ofSummary_of_absent (h s hs)]

theorem rank_unshared (h : rank options summaries = .ok items) :
    rank { options with serviceName := none } summaries = .ok (items.map (·.unshared)) := by
  obtain ⟨rows, hrows, rfl⟩ := Batch.rank_eq_ok_iff.mp h
  refine Batch.rank_eq_ok_iff.mpr ⟨rows.map (·.unshared), ?_, ?_⟩
  · rw [Reordering.mapM_eq_ok_iff] at hrows ⊢
    rw [List.forall₂_map_right_iff]
    exact hrows.imp fun _ _ hrow => ofSummary_unshared hrow
  · exact List.map_mergeSort fun a _ b _ => rfl

end

end TraceListItem

namespace Batch

section

variable {options : ListOptions} {service : Text} {spans : List Span} {traces : List (List Span)}
  {s : TraceSummary} {items : List TraceListItem}

theorem lookup_of_unlowered (hread : ∀ s ∈ spans, ∃ v, Span.ofJson v = .ok s)
    (hs : summaryOf? spans = some s) (hcase : service.lower ≠ service) :
    s.grouped.lookup service = none := by
  obtain ⟨t, errorType, htree, hsummary⟩ := exists_tree_of_summary hs
  rw [(grouped_and_duration hsummary).1, ServiceIntervals.lookup_ofSpans, if_pos]
  apply List.eq_nil_iff_forall_not_mem.mpr
  intro i hi
  obtain ⟨span, hspan, hservice, -⟩ := exists_span_of_intervalsFor hi
  obtain ⟨v, hv⟩ := hread span ((TraceTree.Built.of_build htree).spans_perm.mem_iff.mp hspan)
  exact hcase (Span.lower_of_mem_serviceNames hv hservice)

/-- A service that is not in lower case is as good as none. -/
theorem ofTraces_of_unlowered (hread : Trace.AllRead traces) (hcase : service.lower ≠ service) :
    ofTraces { options with serviceName := some service } traces =
      ofTraces { options with serviceName := none } traces := by
  -- The notes and the skipped traces are the same whatever is chosen.
  have hitems : (ofTraces { options with serviceName := some service } traces).items =
      (ofTraces { options with serviceName := none } traces).items := by
    rw [items_ofTraces, items_ofTraces]
    apply TraceListItem.rank_of_absent
    intro s hs
    obtain ⟨spans, hspans, hsummary⟩ := List.mem_filterMap.mp hs
    exact lookup_of_unlowered (hread spans hspans) hsummary hcase
  exact congrArg (fun items =>
    { ofTraces { options with serviceName := none } traces with items }) hitems

/-- Without a service the rows are the same but for the shares. -/
theorem items_unshared (h : (ofTraces options traces).items = .ok items) :
    (ofTraces { options with serviceName := none } traces).items =
      .ok (items.map (·.unshared)) := by
  rw [items_ofTraces] at h ⊢
  exact TraceListItem.rank_unshared h

end

end Batch

end TraceExplorer
