import TraceExplorer.Proofs.Trace.Grouping

/-!
# Where the spans of a trace come from

Every span of a trace that was loaded was read from a JSON value.
-/

namespace TraceExplorer

open Json (Value)
open Reordering

namespace Trace

def AllRead (traces : List (List Span)) : Prop :=
  ∀ spans ∈ traces, ∀ s ∈ spans, ∃ v, Span.ofJson v = .ok s

section

variable {items : List Value} {spans : List Span} {traces : List (List Span)} {s : Span}

theorem exists_json_of_mapM (h : items.mapM readSpan = .ok spans) (hs : s ∈ spans) :
    ∃ v, Span.ofJson v = .ok s := by
  obtain ⟨v, -, hv⟩ := exists_mem_of_mapM h hs
  exact ⟨v, mapError_eq_ok_iff.mp hv⟩

theorem allRead_ofItems (h : ofItems items = .ok traces) : AllRead traces := by
  intro trace htrace s hs
  rw [ofItems] at h
  split at h
  · obtain ⟨values, -, hvalues⟩ := exists_mem_of_mapM h htrace
    exact exists_json_of_mapM hvalues hs
  · obtain ⟨spans, hspans, rfl⟩ := map_eq_ok_iff.mp h
    exact exists_json_of_mapM hspans
      ((groupByTraceId_perm spans).mem_iff.mp (List.mem_flatten_of_mem htrace hs))

theorem allRead_ofJson {v : Value} (h : ofJson v = .ok traces) : AllRead traces := by
  cases v with
  | object fields =>
      have hitem : ofItems [.object fields] = .ok traces := h
      exact allRead_ofItems hitem
  | list items => exact allRead_ofItems h
  | _ => cases h

theorem allRead_ofText {path : Host.Path} {text : String} (h : ofText path text = .ok traces) :
    AllRead traces := by
  rw [ofText] at h
  split at h
  · obtain ⟨items, -, hitems⟩ := bind_eq_ok_iff.mp h
    exact allRead_ofJson hitems
  · split at h
    · cases h
    · exact allRead_ofJson h

/-- Every span of the traces in a file was read from a JSON value. -/
theorem allRead_of_loadAll {h : Host} {path : Host.Path} (hload : loadAll h path = .ok traces) :
    AllRead traces := by
  obtain ⟨text, -, htraces⟩ := bind_eq_ok_iff.mp hload
  exact allRead_ofText (mapError_eq_ok_iff.mp htraces)

end

end Trace

end TraceExplorer
