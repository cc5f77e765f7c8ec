import Mathlib.Order.Bounds.Basic
import TraceExplorer.Proofs.Summary.Reporting

/-!
# The extent of a summarized trace

A summary reaches from the first start to the last end of the spans that have a start. The other
spans are counted, but they neither widen the extent nor give one.
-/

namespace TraceExplorer

/-- The classifier has a verdict on each of the spans, in every state and after every verdict. -/
def Classifier.NeverFails {σ : Type} (classify : Classifier σ) (spans : List Span) : Prop :=
  ∀ s ∈ spans, ∀ current st, ∃ verdict st', (classify s current).run.run st = (.ok verdict, st')

def startsOf (spans : List Span) : Set Int := {u | ∃ s ∈ spans, s.startTime? = some u}

def finishesOf (spans : List Span) : Set Int :=
  {u | ∃ s ∈ spans, ∃ start, s.startTime? = some start ∧ u = start + s.length}

/-- A summary counts all spans, and it reaches exactly from the first start to the last end. -/
structure TraceSummary.Covers (s : TraceSummary) (spans : List Span) : Prop where
  spanCount : s.spanCount = spans.length
  first : IsLeast (startsOf spans) s.timestamp
  last : IsGreatest (finishesOf spans) (s.timestamp + s.duration)
  within : ∀ x ∈ spans, ∀ start, x.startTime? = some start →
    s.timestamp ≤ start ∧ start + x.length ≤ s.timestamp + s.duration

open Reordering

section

variable {σ : Type} {classify : Classifier σ} {spans spans' : List Span}
  {summary : TraceSummary} {errorType : ErrorType} {u first last : Int} {t : TraceTree}

/-! ## Instants -/

theorem mem_instantsOf_iff : u ∈ instantsOf spans ↔ u ∈ startsOf spans ∨ u ∈ finishesOf spans := by
  rw [instantsOf, List.mem_flatMap]
  constructor
  · rintro ⟨s, hs, hu⟩
    obtain ⟨start, hstart, rfl | rfl⟩ := Span.mem_instants_iff.mp hu
    · exact .inl ⟨s, hs, hstart⟩
    · exact .inr ⟨s, hs, start, hstart, rfl⟩
  · rintro (⟨s, hs, hstart⟩ | ⟨s, hs, start, hstart, rfl⟩)
    · exact ⟨s, hs, Span.mem_instants_iff.mpr ⟨u, hstart, .inl rfl⟩⟩
    · exact ⟨s, hs, Span.mem_instants_iff.mpr ⟨start, hstart, .inr rfl⟩⟩

theorem instantsOf_eq_nil_iff : instantsOf spans = [] ↔ ∀ s ∈ spans, s.startTime? = none := by
  rw [List.eq_nil_iff_forall_not_mem]
  constructor
  · intro h s hs
    apply Option.eq_none_iff_forall_ne_some.mpr
    intro start hstart
    exact h start (mem_instantsOf_iff.mpr (.inl ⟨s, hs, hstart⟩))
  · intro h u hu
    rcases mem_instantsOf_iff.mp hu with ⟨s, hs, hstart⟩ | ⟨s, hs, start, hstart, -⟩
    · simp [h s hs] at hstart
    · simp [h s hs] at hstart

/-- The first instant is a start, as no span ends before it starts. -/
theorem isLeast_startsOf (hlengths : ∀ s ∈ spans, 0 ≤ s.length)
    (hfirst : (instantsOf spans).min? = some first) : IsLeast (startsOf spans) first := by
  obtain ⟨hmem, hlow⟩ := List.min?_eq_some_iff.mp hfirst
  refine ⟨?_, fun u hu => hlow u (mem_instantsOf_iff.mpr (.inl hu))⟩
  rcases mem_instantsOf_iff.mp hmem with hstart | ⟨s, hs, start, hstart, rfl⟩
  · exact hstart
  · have hle := hlow start (mem_instantsOf_iff.mpr (.inl ⟨s, hs, hstart⟩))
    have hlength := hlengths s hs
    have hzero : s.length = 0 := by omega
    rw [hzero, Int.add_zero]
    exact ⟨s, hs, hstart⟩

/-- The last instant is an end, since a span that is never over ends where it starts. -/
theorem isGreatest_finishesOf (hlengths : ∀ s ∈ spans, 0 ≤ s.length)
    (hlast : (instantsOf spans).max? = some last) : IsGreatest (finishesOf spans) last := by
  obtain ⟨hmem, hhigh⟩ := List.max?_eq_some_iff.mp hlast
  refine ⟨?_, fun u hu => hhigh u (mem_instantsOf_iff.mpr (.inr hu))⟩
  rcases mem_instantsOf_iff.mp hmem with ⟨s, hs, hstart⟩ | hfinish
  · have hle := hhigh (last + s.length) (mem_instantsOf_iff.mpr (.inr ⟨s, hs, last, hstart, rfl⟩))
    have hlength := hlengths s hs
    exact ⟨s, hs, last, hstart, by omega⟩
  · exact hfinish

/-! ## Summaries -/

theorem startsOf_perm (h : spans.Perm spans') : startsOf spans = startsOf spans' := by
  ext u
  exact exists_congr fun s => and_congr_left fun _ => h.mem_iff

theorem finishesOf_perm (h : spans.Perm spans') : finishesOf spans = finishesOf spans' := by
  ext u
  exact exists_congr fun s => and_congr_left fun _ => h.mem_iff

theorem TraceSummary.covers_of_ofSpans (hlengths : ∀ s ∈ spans, 0 ≤ s.length)
    (h : TraceSummary.ofSpans spans errorType = .ok summary) : summary.Covers spans := by
  have hsummary := TraceSummary.summarizes_of_ofSpans h
  have hne : instantsOf spans ≠ [] := by
    intro hnil
    simpa [hnil] using hsummary.first
  obtain ⟨last, hlast⟩ := Option.ne_none_iff_exists'.mp (mt List.max?_eq_none_iff.mp hne)
  have hextent : summary.timestamp + summary.duration = last := by
    rw [hsummary.duration, extentLength, hlast, hsummary.first]
    exact add_sub_cancel _ _
  have hleast := isLeast_startsOf hlengths hsummary.first
  have hgreatest := isGreatest_finishesOf hlengths hlast
  refine ⟨hsummary.spanCount, hleast, hextent ▸ hgreatest, fun x hx start hstart => ⟨?_, ?_⟩⟩
  · apply hleast.2
    exact ⟨x, hx, hstart⟩
  · rw [hextent]
    apply hgreatest.2
    exact ⟨x, hx, start, hstart, rfl⟩

theorem TraceSummary.Covers.perm (h : summary.Covers spans) (hperm : spans.Perm spans') :
    summary.Covers spans' where
  spanCount := h.spanCount.trans hperm.length_eq
  first := startsOf_perm hperm ▸ h.first
  last := finishesOf_perm hperm ▸ h.last
  within x hx := h.within x (hperm.mem_iff.mpr hx)

theorem exists_run_judge (h : classify.NeverFails spans) (current : ErrorType) (st : σ) :
    ∃ worst st', (classify.judge current spans).run.run st = (.ok worst, st') := by
  induction spans generalizing current st with
  | nil => exact ⟨current, st, rfl⟩
  | cons s rest ih =>
      obtain ⟨hfirst, hrest⟩ := List.forall_mem_cons.mp h
      obtain ⟨verdict, st', hverdict⟩ := hfirst current st
      obtain ⟨worst, st'', hworst⟩ := ih hrest (current.worse verdict) st'
      refine ⟨worst, st'', ?_⟩
      rw [Classifier.judge, ExceptT.run_bind, StateT.run_bind, hverdict]
      exact hworst

theorem exists_run_ofTree (h : classify.NeverFails t.spans) (st : σ) :
    ∃ errorType st', (TraceSummary.ofTree classify t).run.run st =
      ((TraceSummary.ofSpans t.spans errorType).mapError .reported, st') := by
  obtain ⟨worst, st', hworst⟩ := exists_run_judge h .none st
  exact ⟨worst, st', TraceSummary.run_ofTree_of_judge hworst⟩

end

/-- However the spans of a tree are judged, the tree has a summary exactly if one of them has a
start. The summary covers the time of those that do, and no more. -/
theorem ofTree_covers {σ : Type} {classify : Classifier σ} {spans : List Span} {t : TraceTree}
    (htree : TraceTree.build spans = .ok t) (hlengths : ∀ s ∈ spans, 0 ≤ s.length)
    (hclassify : classify.NeverFails spans) (st : σ) :
    ∃ result st', (TraceSummary.ofTree classify t).run.run st = (result, st') ∧
      (∀ summary, result = .ok summary → summary.Covers spans) ∧
      ((∃ id, result = .error (.reported (.timestampMissing id))) ↔
        ∀ s ∈ spans, s.startTime? = none) ∧
      ((∃ s ∈ spans, s.startTime? ≠ none) → ∃ summary, result = .ok summary) := by
  have hperm : t.spans.Perm spans := (TraceTree.Built.of_build htree).spans_perm
  have hlengths' : ∀ s ∈ t.spans, 0 ≤ s.length := fun s hs => hlengths s (hperm.mem_iff.mp hs)
  have hnone : instantsOf t.spans = [] ↔ ∀ s ∈ spans, s.startTime? = none := by
    rw [instantsOf_eq_nil_iff]
    exact forall_congr' fun s => imp_congr_left hperm.mem_iff
  obtain ⟨errorType, st', hrun⟩ := exists_run_ofTree (t := t)
    (fun s hs => hclassify s (hperm.mem_iff.mp hs)) st
  refine ⟨_, st', hrun, ?_, ?_, ?_⟩
  · intro summary hsummary
    have hok := mapError_eq_ok_iff.mp hsummary
    exact (TraceSummary.covers_of_ofSpans hlengths' hok).perm hperm
  · rw [← hnone]
    constructor
    · rintro ⟨id, hfailed⟩
      obtain ⟨e, he, -⟩ := mapError_eq_error_iff.mp hfailed
      exact (summary_eq_error_iff.mp he).1
    · intro hnil
      refine ⟨_, mapError_eq_error_iff.mpr ⟨_, summary_eq_error_iff.mpr ⟨hnil, rfl⟩, rfl⟩⟩
  · rintro ⟨s, hs, hstart⟩
    cases hsummary : TraceSummary.ofSpans t.spans errorType with
    | ok summary => exact ⟨summary, rfl⟩
    | error e =>
        have hnil := (summary_eq_error_iff.mp hsummary).1
        exact absurd (hnone.mp hnil s hs) hstart

/-- A span without a timestamp, one that starts at zero, and an id that two spans report, one of
them from before time zero. -/
theorem ofTree_covers_of_legs :
    let spans : List Span := [
      { traceId := "1", id := "a", duration := some 70 },
      { traceId := "1", id := "b", parentId := some "a", timestamp := some 0,
        duration := some 900 },
      { traceId := "1", id := "c", parentId := some "b", timestamp := some 10,
        duration := some 20 },
      { traceId := "1", id := "c", parentId := some "b", timestamp := some (-5),
        duration := some 0, shared := true }]
    ∃ t summary, TraceTree.build spans = .ok t ∧
      (TraceSummary.ofTree .standard t).run.run () = (.ok summary, ()) ∧
      summary.Covers spans ∧ summary.timestamp = -5 ∧ summary.duration = 35 := by
  intro spans
  have hnever : (Classifier.standard (σ := Unit)).NeverFails spans := fun _ _ _ _ => ⟨_, _, rfl⟩
  have hview : (TraceTree.build spans).toOption.map (fun t =>
      ((TraceSummary.ofTree .standard t).run.run ()).1.toOption.map fun summary =>
        (summary.timestamp, summary.duration)) = some (some (-5, 35)) := by decide +kernel
  obtain ⟨t, htree, hview⟩ := Option.map_eq_some_iff.mp hview
  obtain ⟨summary, hsummary, hextent⟩ := Option.map_eq_some_iff.mp hview
  rw [toOption_eq_some_iff] at htree hsummary
  obtain ⟨hfirst, hduration⟩ := Prod.mk.inj hextent
  obtain ⟨result, st', hrun, hcovers, -, -⟩ := ofTree_covers htree (by decide) hnever ()
  have hresult : result = .ok summary := by rw [← hsummary, hrun]
  subst hresult
  exact ⟨t, summary, htree, hrun, hcovers summary rfl, hfirst, hduration⟩

end TraceExplorer
