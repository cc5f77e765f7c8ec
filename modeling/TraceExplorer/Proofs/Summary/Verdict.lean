import TraceExplorer.Proofs.Success
import TraceExplorer.Proofs.Summary.Trace

/-!
# The verdict on a trace

A classifier may answer whatever it likes, less than it was told included, and it may keep a state.
The error type of a summary is the worst of its answers. The usual classifier finds the worst mark
on a span, in whatever order the spans are judged.
-/

namespace TraceExplorer

structure ClassifierCall where
  span : Span
  current : ErrorType
  answer : Except Failure ErrorType

/-- The same classifier, with a record of its calls beside its state. -/
def Classifier.recorded {σ : Type} (classify : Classifier σ) :
    Classifier (σ × List ClassifierCall) := fun s current =>
  ExceptT.mk fun (st, calls) =>
    let (answer, st') := (classify s current).run.run st
    (answer, st', calls ++ [⟨s, current, answer⟩])

def verdictsOf (calls : List ClassifierCall) : List ErrorType :=
  calls.filterMap (·.answer.toOption)

namespace ErrorType

/-- The most severe of some verdicts. Without a verdict there is no error. -/
structure IsWorstOf (worst : ErrorType) (verdicts : List ErrorType) : Prop where
  nothing : verdicts = [] → worst = none
  given : verdicts ≠ [] → worst ∈ verdicts
  bound : ∀ verdict ∈ verdicts, verdict.severity ≤ worst.severity

end ErrorType

def Span.HasErrorTag (s : Span) : Prop := ∃ tag ∈ s.tags, tag.1 = "error"

def Span.HasErrorAnnotation (s : Span) : Prop := ∃ a ∈ s.annotations, a.value = "error"

/-- The error type that the marks on some spans tell: a tag counts for more than an annotation. -/
structure ErrorType.IsMarkedOn (errorType : ErrorType) (spans : List Span) : Prop where
  critical : errorType = .critical ↔ ∃ s ∈ spans, s.HasErrorTag
  transient : errorType = .transient ↔
    (¬ ∃ s ∈ spans, s.HasErrorTag) ∧ ∃ s ∈ spans, s.HasErrorAnnotation
  none : errorType = .none ↔
    (¬ ∃ s ∈ spans, s.HasErrorTag) ∧ ¬ ∃ s ∈ spans, s.HasErrorAnnotation

/-! ## The worst verdict -/

namespace ErrorType

variable {worst : ErrorType} {verdicts : List ErrorType} {spans : List Span} {s : Span}

theorem none_worse (verdict : ErrorType) : none.worse verdict = verdict := by
  cases verdict <;> rfl

theorem worse_eq_or (a b : ErrorType) : a.worse b = a ∨ a.worse b = b := by
  rw [worse]
  split
  · exact .inr rfl
  · exact .inl rfl

theorem severity_worse (a b : ErrorType) :
    (a.worse b).severity = max a.severity b.severity := by
  cases a <;> cases b <;> rfl

theorem IsWorstOf.concat (h : worst.IsWorstOf verdicts) (verdict : ErrorType) :
    (worst.worse verdict).IsWorstOf (verdicts ++ [verdict]) where
  nothing := by simp
  given := by
    intro _
    rw [List.mem_append, List.mem_singleton]
    by_cases hnil : verdicts = []
    · rw [h.nothing hnil, none_worse]
      exact .inr rfl
    · rcases worse_eq_or worst verdict with hold | hnew
      · rw [hold]
        exact .inl (h.given hnil)
      · exact .inr hnew
  bound := by
    intro other hother
    rw [severity_worse]
    rcases List.mem_append.mp hother with hold | hnew
    · exact le_max_of_le_left (h.bound other hold)
    · rw [List.mem_singleton.mp hnew]
      exact le_max_right _ _

/-- Keeping the worse of two verdicts, one verdict after the other, leaves the worst of all. -/
theorem isWorstOf_foldl (verdicts : List ErrorType) :
    (verdicts.foldl worse none).IsWorstOf verdicts := by
  induction verdicts using List.reverseRecOn with
  | nil => exact ⟨fun _ => rfl, fun h => absurd rfl h, fun _ h => absurd h List.not_mem_nil⟩
  | append_singleton verdicts verdict ih =>
      rw [List.foldl_concat]
      exact ih.concat verdict

theorem IsWorstOf.eq_critical_iff (h : worst.IsWorstOf verdicts) :
    worst = critical ↔ critical ∈ verdicts := by
  constructor
  · rintro rfl
    apply h.given
    intro hnil
    cases h.nothing hnil
  · intro hmem
    have hbound := h.bound critical hmem
    cases worst <;> simp_all [severity]

theorem IsWorstOf.eq_none_iff (h : worst.IsWorstOf verdicts) :
    worst = none ↔ ∀ verdict ∈ verdicts, verdict = none := by
  constructor
  · rintro rfl verdict hverdict
    have hbound := h.bound verdict hverdict
    cases verdict <;> simp_all [severity]
  · intro hall
    by_cases hnil : verdicts = []
    · exact h.nothing hnil
    · exact hall worst (h.given hnil)

/-! ## Marks on spans -/

theorem any_tag_iff : s.tags.any (·.1 == "error") ↔ s.HasErrorTag := by
  simp [Span.HasErrorTag]

theorem any_annotation_iff : s.annotations.any (·.value == "error") ↔ s.HasErrorAnnotation := by
  simp [Span.HasErrorAnnotation]

theorem classify_eq_critical_iff : classify s none = critical ↔ s.HasErrorTag := by
  rw [← any_tag_iff, classify, if_neg (by decide)]
  split
  · simp_all
  · split <;> simp_all

theorem classify_eq_none_iff :
    classify s none = none ↔ ¬ s.HasErrorTag ∧ ¬ s.HasErrorAnnotation := by
  rw [← any_tag_iff, ← any_annotation_iff, classify, if_neg (by decide)]
  split
  · simp_all
  · split <;> simp_all

/-- A span on its own is judged by its marks, and so the worst of these verdicts is that of all. -/
theorem isWorstOf_worst (spans : List Span) :
    (ErrorType.worst spans).IsWorstOf (spans.map (classify · none)) := by
  have hfold : ErrorType.worst spans = (spans.map (classify · none)).foldl worse none := by
    rw [ErrorType.worst, List.foldl_map]
  rw [hfold]
  exact isWorstOf_foldl _

theorem isMarkedOn_worst (spans : List Span) : (ErrorType.worst spans).IsMarkedOn spans := by
  have h := isWorstOf_worst spans
  have hcritical : ErrorType.worst spans = critical ↔ ∃ s ∈ spans, s.HasErrorTag := by
    rw [h.eq_critical_iff, List.mem_map]
    simp only [classify_eq_critical_iff]
  have hnone : ErrorType.worst spans = none ↔
      (¬ ∃ s ∈ spans, s.HasErrorTag) ∧ ¬ ∃ s ∈ spans, s.HasErrorAnnotation := by
    rw [h.eq_none_iff, List.forall_mem_map]
    simp only [classify_eq_none_iff]
    grind
  refine ⟨hcritical, ?_, hnone⟩
  -- There is no fourth type, so what is neither critical nor harmless is transient.
  have hother : ErrorType.worst spans = transient ↔
      ErrorType.worst spans ≠ critical ∧ ErrorType.worst spans ≠ none := by
    cases ErrorType.worst spans <;> simp
  rw [hother, Ne, Ne, hcritical, hnone]
  refine and_congr_right fun hno => ⟨fun h => ?_, fun h hharmless => hharmless.2 h⟩
  by_contra hunmarked
  exact h ⟨hno, hunmarked⟩

end ErrorType

/-! ## Recorded calls -/

section

variable {σ : Type} {classify : Classifier σ} {t : TraceTree}

/-- A record of the calls changes nothing, and it holds one call for each span if none fails. -/
theorem run_judge_recorded (classify : Classifier σ) (current : ErrorType) (spans : List Span)
    (st : σ) (calls : List ClassifierCall) :
    ∃ result st' new, (classify.judge current spans).run.run st = (result, st') ∧
      (classify.recorded.judge current spans).run.run (st, calls) =
        (result, st', calls ++ new) ∧
      ((∀ call ∈ new, ∃ verdict, call.answer = .ok verdict) →
        new.map (·.span) = spans ∧
          result = .ok ((verdictsOf new).foldl ErrorType.worse current)) := by
  induction spans generalizing current st calls with
  | nil => exact ⟨.ok current, st, [], rfl, by rw [List.append_nil]; rfl, fun _ => ⟨rfl, rfl⟩⟩
  | cons s rest ih =>
      cases hanswer : (classify s current).run.run st with
      | mk answer st₁ =>
          let call : ClassifierCall := ⟨s, current, answer⟩
          have hrecorded : (classify.recorded s current).run.run (st, calls) =
              (answer, st₁, calls ++ [call]) := by
            change (((classify s current).run.run st).1, ((classify s current).run.run st).2,
              calls ++ [⟨s, current, ((classify s current).run.run st).1⟩]) = _
            rw [hanswer]
          simp only [Classifier.judge, ExceptT.run_bind, StateT.run_bind, hanswer, hrecorded]
          cases answer with
          | error e =>
              refine ⟨.error e, st₁, [call], rfl, rfl, fun hall => ?_⟩
              obtain ⟨verdict, hverdict⟩ := hall call (List.mem_singleton_self call)
              cases hverdict
          | ok verdict =>
              obtain ⟨result, st', new, hplain, hrest, hnew⟩ :=
                ih (current.worse verdict) st₁ (calls ++ [call])
              refine ⟨result, st', call :: new, hplain, ?_, fun hall => ?_⟩
              · rw [← List.append_cons] at hrest
                exact hrest
              · obtain ⟨hspans, hresult⟩ := hnew (List.forall_mem_cons.mp hall).2
                exact ⟨congrArg (s :: ·) hspans, hresult⟩

end

/-- However a classifier judges, if none of its calls on a walk through a tree fails then each span
is judged once, and the error type of the summary is the worst verdict. By the usual classifier the
error type is that of the marks on the spans, in any order of judging. -/
theorem ofTree_errorType (t : TraceTree) :
    (∀ {σ : Type} (classify : Classifier σ) (st : σ), ∃ result st' calls,
      (TraceSummary.ofTree classify t).run.run st = (result, st') ∧
      (TraceSummary.ofTree classify.recorded t).run.run (st, []) = (result, st', calls) ∧
      ((∀ call ∈ calls, ∃ verdict, call.answer = .ok verdict) →
        calls.map (·.span) = t.spans ∧
        ∃ worst : ErrorType, worst.IsWorstOf (verdictsOf calls) ∧
          result = (TraceSummary.ofSpans t.spans worst).mapError .reported ∧
          ∀ summary, result = .ok summary → summary.errorType = worst)) ∧
    ∀ visited, visited.Perm t.spans → ∃ errorType : ErrorType, errorType.IsMarkedOn t.spans ∧
      ((Classifier.standard (σ := Unit)).judge .none visited).run.run () = (.ok errorType, ()) ∧
      ∀ summary, ((TraceSummary.ofTree (.standard (σ := Unit)) t).run.run ()).1 = .ok summary →
        summary.errorType = errorType := by
  constructor
  · intro σ classify st
    obtain ⟨verdict, st', calls, hplain, hrecorded, hcalls⟩ :=
      run_judge_recorded classify .none t.spans st []
    refine ⟨_, st', calls, TraceSummary.run_ofTree_of_judge hplain,
      TraceSummary.run_ofTree_of_judge hrecorded, fun hall => ?_⟩
    obtain ⟨hspans, rfl⟩ := hcalls hall
    refine ⟨hspans, _, ErrorType.isWorstOf_foldl _, rfl, fun summary hsummary => ?_⟩
    exact (TraceSummary.summarizes_of_ofSpans (mapError_eq_ok_iff.mp hsummary)).errorType
  · intro visited hperm
    have hjudge (spans : List Span) :
        ((Classifier.standard (σ := Unit)).judge .none spans).run.run () =
          (.ok (.worst spans), ()) := by
      rw [Classifier.judge_standard]
      rfl
    refine ⟨.worst t.spans, ErrorType.isMarkedOn_worst t.spans, ?_, fun summary hsummary => ?_⟩
    · rw [hjudge, ErrorType.worst_perm hperm]
    · rw [TraceSummary.run_ofTree_of_judge (hjudge t.spans)] at hsummary
      exact (TraceSummary.summarizes_of_ofSpans (mapError_eq_ok_iff.mp hsummary)).errorType

/-- The third answer of a classifier that counts its calls is the mildest, and it does not stay. -/
theorem ofTree_errorType_of_counting :
    let counting : Classifier Nat := fun _ _ => do
      let n ← getModify (· + 1)
      return [ErrorType.transient, .critical].getD n .none
    let t : TraceTree := {
      groups := [], headless := false
      branches := [.node { primary := { traceId := "1", id := "a", timestamp := some 1 } } [
        .node { primary := { traceId := "1", id := "b", tags := [("error", "")] } } [],
        .node { primary := { traceId := "1", id := "c" } } []]] }
    ∃ st' calls summary,
      (TraceSummary.ofTree counting.recorded t).run.run (0, []) = (.ok summary, st', calls) ∧
      (∀ call ∈ calls, ∃ verdict, call.answer = .ok verdict) ∧
      verdictsOf calls = [.transient, .critical, .none] ∧ summary.errorType = .critical := by
  intro counting t
  obtain ⟨result, st', calls, -, hrecorded, hcalls⟩ := (ofTree_errorType t).1 counting 0
  have hverdicts : verdictsOf ((TraceSummary.ofTree counting.recorded t).run.run (0, [])).2.2 =
      [.transient, .critical, .none] := by decide +kernel
  have hall : ((TraceSummary.ofTree counting.recorded t).run.run (0, [])).2.2.all
      (·.answer.toOption.isSome) := by decide +kernel
  have hok : ((TraceSummary.ofTree counting.recorded t).run.run (0, [])).1.toOption.isSome := by
    decide +kernel
  rw [hrecorded] at hverdicts hall hok
  have hanswers : ∀ call ∈ calls, ∃ verdict, call.answer = .ok verdict := by
    intro call hcall
    obtain ⟨verdict, hverdict⟩ :=
      Option.isSome_iff_exists.mp (List.all_eq_true.mp hall call hcall)
    exact ⟨verdict, toOption_eq_some_iff.mp hverdict⟩
  obtain ⟨summary, hsummary⟩ := Option.isSome_iff_exists.mp hok
  obtain rfl := toOption_eq_some_iff.mp hsummary
  obtain ⟨-, worst, hworst, -, herror⟩ := hcalls hanswers
  refine ⟨st', calls, summary, hrecorded, hanswers, hverdicts, ?_⟩
  rw [herror summary rfl, hworst.eq_critical_iff, hverdicts]
  decide

end TraceExplorer
