import TraceExplorer.Proofs.Reordering
import TraceExplorer.Proofs.Success
import TraceExplorer.Proofs.Summary.Service
import TraceExplorer.Proofs.Summary.Severity
import TraceExplorer.Summary.Ranking

/-!
# Summaries of the same spans

Two summaries of the same spans, looked at in different orders, differ at most in the order of the
services and of their intervals. A row of the list shows neither.
-/

namespace TraceExplorer

/-- The spans of a trace as they are read: they have one trace id, no duration is negative and no
parent is the empty id. -/
structure Regular (spans : List Span) : Prop where
  traceId : ∀ s ∈ spans, ∀ s' ∈ spans, s.traceId = s'.traceId
  length : ∀ s ∈ spans, 0 ≤ s.length
  parent : ∀ s ∈ spans, s.parentId ≠ some Text.empty

namespace TraceSummary

structure Alike (s s' : TraceSummary) : Prop where
  traceId : s.traceId = s'.traceId
  timestamp : s.timestamp = s'.timestamp
  duration : s.duration = s'.duration
  spanCount : s.spanCount = s'.spanCount
  errorType : s.errorType = s'.errorType
  grouped : ∃ spans spans', Regular spans ∧ spans.Perm spans' ∧
    s.grouped = .ofSpans spans ∧ s'.grouped = .ofSpans spans'

end TraceSummary

section

variable {spans spans' : List Span} {s s' : TraceSummary} {options : ListOptions}

theorem Regular.perm (h : Regular spans) (hperm : spans.Perm spans') : Regular spans' where
  traceId s hs s' hs' := h.traceId s (hperm.mem_iff.mpr hs) s' (hperm.mem_iff.mpr hs')
  length s hs := h.length s (hperm.mem_iff.mpr hs)
  parent s hs := h.parent s (hperm.mem_iff.mpr hs)

theorem Span.filter_duration (x : Span) :
    x.duration.filter (· != 0) = if x.length = 0 then none else some x.length := by
  rw [Span.length]
  cases x.duration with
  | none => rfl
  | some d => by_cases hzero : d = 0 <;> simp [hzero]

/-- A span starts at an instant and ends at one, perhaps the same. -/
theorem Span.mem_instants_iff {x : Span} {u : Int} :
    u ∈ x.instants ↔ ∃ start, x.startTime? = some start ∧ (u = start ∨ u = start + x.length) := by
  rw [Span.instants, Span.filter_duration]
  cases x.startTime? with
  | none => simp
  | some start => by_cases hzero : x.length = 0 <;> simp [hzero]

theorem instantsOf_perm (h : spans.Perm spans') : (instantsOf spans).Perm (instantsOf spans') :=
  h.flatMap_right _

theorem extentLength_perm {instants instants' : List Int} (h : instants.Perm instants') :
    extentLength instants = extentLength instants' := by
  rw [extentLength, extentLength, Reordering.max?_perm h, Reordering.min?_perm h]

theorem Regular.traceId_getLast? (h : Regular spans) (hperm : spans.Perm spans') :
    spans.getLast?.map (·.traceId) = spans'.getLast?.map (·.traceId) := by
  cases hlast : spans.getLast? with
  | none =>
      obtain rfl := List.getLast?_eq_none_iff.mp hlast
      simp [hperm.nil_eq]
  | some s =>
      cases hlast' : spans'.getLast? with
      | none =>
          obtain rfl := List.getLast?_eq_none_iff.mp hlast'
          simp [hperm.eq_nil] at hlast
      | some s' =>
          have hs' := hperm.mem_iff.mpr (List.mem_of_getLast? hlast')
          exact congrArg some (h.traceId s (List.mem_of_getLast? hlast) s' hs')

structure TraceSummary.Summarizes (s : TraceSummary) (spans : List Span) (errorType : ErrorType) :
    Prop where
  first : (instantsOf spans).min? = some s.timestamp
  duration : s.duration = extentLength (instantsOf spans)
  spanCount : s.spanCount = spans.length
  errorType : s.errorType = errorType
  grouped : s.grouped = .ofSpans spans

theorem TraceSummary.summarizes_of_ofSpans {errorType : ErrorType}
    (h : ofSpans spans errorType = .ok s) : s.Summarizes spans errorType := by
  rw [ofSpans] at h
  split at h
  · cases h
  · rename_i first hfirst
    obtain rfl := Except.ok.inj h
    exact ⟨hfirst, rfl, rfl, rfl, rfl⟩

/-- A tree is summarized after its spans are judged; the state is what the classifier leaves. -/
theorem TraceSummary.run_ofTree_of_judge {σ : Type} {classify : Classifier σ} {t : TraceTree}
    {st st' : σ} {verdict : Except Failure ErrorType}
    (h : (classify.judge .none t.spans).run.run st = (verdict, st')) :
    (ofTree classify t).run.run st =
      (verdict >>= fun worst => (ofSpans t.spans worst).mapError .reported, st') := by
  rw [ofTree, ExceptT.run_bind, StateT.run_bind, h]
  cases verdict with
  | error e => rfl
  | ok worst =>
      simp only [bind, Except.bind]
      cases ofSpans t.spans worst <;> rfl

theorem TraceSummary.summarizes_of_ofTree {σ : Type} {classify : Classifier σ} {t : TraceTree}
    {st : σ} (h : ((ofTree classify t).run.run st).1 = .ok s) :
    ∃ errorType, s.Summarizes t.spans errorType := by
  obtain ⟨verdict, st', hverdict⟩ :
      ∃ verdict st', (classify.judge .none t.spans).run.run st = (verdict, st') := ⟨_, _, rfl⟩
  rw [run_ofTree_of_judge hverdict] at h
  obtain ⟨worst, -, hworst⟩ := bind_eq_ok_iff.mp h
  exact ⟨worst, summarizes_of_ofSpans (mapError_eq_ok_iff.mp hworst)⟩

/-- Spans in another order have a summary if they have one, and an alike one. -/
theorem TraceSummary.ofSpans_perm (h : Regular spans) (hperm : spans.Perm spans')
    (errorType : ErrorType) :
    Option.Rel Alike (ofSpans spans errorType).toOption (ofSpans spans' errorType).toOption := by
  have hinstants := instantsOf_perm hperm
  rw [ofSpans, ofSpans, ← Reordering.min?_perm hinstants]
  cases (instantsOf spans).min? with
  | none => exact .none
  | some first =>
      exact .some ⟨h.traceId_getLast? hperm, rfl, extentLength_perm hinstants, hperm.length_eq, rfl,
        spans, spans', h, hperm, rfl, rfl⟩

/-- The share of a service is that of the time it covers, whatever the order of its intervals. -/
theorem TraceSummary.Alike.shareOfService (h : Alike s s') :
    TraceListItem.shareOfService options s = TraceListItem.shareOfService options s' := by
  obtain ⟨spans, spans', hregular, hperm, hs, hs'⟩ := h.grouped
  unfold TraceListItem.shareOfService TraceListItem.chosenIntervals?
  rw [← h.duration, hs, hs']
  cases options.serviceName.filter (!·.isEmpty) with
  | none => rfl
  | some service =>
      have hintervals := ServiceIntervals.intervalsFor_perm hperm service
      have htotal := Interval.totalDuration_perm
        (fun i hi => ServiceIntervals.duration_nonneg hregular.length hi) hintervals
      simp only [bind, Option.bind, ServiceIntervals.lookup_ofSpans]
      by_cases hnil : intervalsFor service (spans.flatMap (·.entries)) = []
      · have hnil' := List.nil_perm.mp (hnil ▸ hintervals)
        simp only [hnil, hnil']
      · have hnil' : intervalsFor service (spans'.flatMap (·.entries)) ≠ [] :=
          fun heq => hnil (List.perm_nil.mp (heq ▸ hintervals))
        simp [hnil, hnil', htotal, Option.filter]

theorem TraceSummary.Alike.ofSummary (h : Alike s s') (longest : Int) :
    TraceListItem.ofSummary options longest s = TraceListItem.ofSummary options longest s' := by
  obtain ⟨spans, spans', -, hperm, hs, hs'⟩ := h.grouped
  unfold TraceListItem.ofSummary
  rw [h.shareOfService, h.traceId, h.timestamp, h.duration, h.spanCount, h.errorType, hs, hs',
    ServiceSummary.all_perm hperm]

end

end TraceExplorer
