import TraceExplorer.Proofs.Summary.Isolation

/-!
# Reports of skipped traces

The clocks of a trace are corrected, its tree is built, its spans are judged one after the other,
and its times are looked up. Where any of this fails the trace is reported once, with its first
trace id and the failure, and the list of the batch is that of the other traces.
-/

namespace TraceExplorer

/-- Judges a span by its errors, given the worst verdict so far. -/
abbrev Judge := Span → ErrorType → Except Failure ErrorType

def Classifier.ofJudge {σ : Type} (judge : Judge) : Classifier σ :=
  fun s current => ExceptT.mk (pure (judge s current))

inductive Judged (judge : Judge) : List Span → ErrorType → Prop where
  | nil : Judged judge [] .none
  | concat {spans : List Span} {s : Span} {worst verdict : ErrorType}
      (before : Judged judge spans worst) (last : judge s worst = .ok verdict) :
      Judged judge (spans ++ [s]) (worst.worse verdict)

structure HasTree (correct : SkewCorrection) (spans : List Span) (t : TraceTree) : Prop where
  nonempty : spans ≠ []
  built : ∃ corrected, correct spans = .ok corrected ∧ TraceTree.build corrected = .ok t

/-- A step of the way from a trace to its summary fails, and the steps before it do not. -/
inductive FailsWith (correct : SkewCorrection) (judge : Judge) : List Span → Failure → Prop where
  | empty : FailsWith correct judge [] (.reported (.traceEmpty none))
  | correction {spans : List Span} {e : Failure} (nonempty : spans ≠ [])
      (failed : correct spans = .error e) : FailsWith correct judge spans e
  | tree {spans corrected : List Span} {e : Failure} (nonempty : spans ≠ [])
      (corrects : correct spans = .ok corrected) (failed : TraceTree.build corrected = .error e) :
      FailsWith correct judge spans e
  | verdict {spans before after : List Span} {s : Span} {t : TraceTree} {worst : ErrorType}
      {e : Failure} (hasTree : HasTree correct spans t) (cut : t.spans = before ++ s :: after)
      (judged : Judged judge before worst) (failed : judge s worst = .error e) :
      FailsWith correct judge spans e
  | time {spans : List Span} {t : TraceTree} {worst : ErrorType} (hasTree : HasTree correct spans t)
      (judged : Judged judge t.spans worst) (timeless : instantsOf t.spans = []) :
      FailsWith correct judge spans
        (.reported (.timestampMissing (t.spans.getLast?.map (·.traceId.shown))))

def Fails (correct : SkewCorrection) (judge : Judge) (spans : List Span) : Prop :=
  ∃ e, FailsWith correct judge spans e

/-- The report of a trace that fails: the trace id of its first span, and its only failure. -/
structure IsReportOf (correct : SkewCorrection) (judge : Judge) (spans : List Span)
    (report : SkippedTrace) : Prop where
  traceId : report.traceId = spans.head?.map (·.traceId)
  failure : ∀ e, FailsWith correct judge spans e ↔ e = report.failure

section

variable {σ : Type} {correct : SkewCorrection} {judge : Judge} {spans : List Span}
  {current worst : ErrorType} {e : Failure} {t : TraceTree} {s : TraceSummary}

/-! ## Verdicts -/

def Judge.verdict (judge : Judge) : ErrorType → List Span → Except Failure ErrorType :=
  List.foldlM fun current s => (judge s current).map current.worse

theorem run_judge (st : σ) :
    ((Classifier.ofJudge judge).judge current spans).run.run st =
      (judge.verdict current spans, st) := by
  induction spans generalizing current with
  | nil => rfl
  | cons s rest ih =>
      rw [Classifier.judge, Judge.verdict, List.foldlM_cons]
      cases hs : judge s current with
      | error e =>
          simp only [Classifier.ofJudge, hs]
          rfl
      | ok verdict =>
          simp only [Classifier.ofJudge, hs]
          exact ih

theorem verdict_concat {s : Span} :
    judge.verdict current (spans ++ [s]) =
      judge.verdict current spans >>= fun worst => (judge s worst).map worst.worse := by
  rw [Judge.verdict, List.foldlM_append]
  refine bind_congr fun worst => ?_
  rw [List.foldlM_cons]
  exact bind_pure _

theorem judged_iff : Judged judge spans worst ↔ judge.verdict .none spans = .ok worst := by
  constructor
  · intro h
    induction h with
    | nil => rfl
    | concat before last ih =>
        rw [verdict_concat, ih]
        exact map_eq_ok_iff.mpr ⟨_, last, rfl⟩
  · intro h
    induction spans using List.reverseRecOn generalizing worst with
    | nil =>
        obtain rfl := Except.ok.inj h
        exact .nil
    | append_singleton before s ih =>
        rw [verdict_concat] at h
        obtain ⟨current, hcurrent, hlast⟩ := bind_eq_ok_iff.mp h
        obtain ⟨verdict, hverdict, rfl⟩ := map_eq_ok_iff.mp hlast
        exact .concat (ih hcurrent) hverdict

theorem verdict_eq_error_iff :
    judge.verdict .none spans = .error e ↔
      ∃ before s after worst, spans = before ++ s :: after ∧ Judged judge before worst ∧
        judge s worst = .error e := by
  induction spans using List.reverseRecOn with
  | nil =>
      constructor
      · intro h
        cases h
      · rintro ⟨before, s, after, worst, heq, -⟩
        simp at heq
  | append_singleton init last ih =>
      rw [verdict_concat, bind_eq_error_iff, ih]
      -- The span that cannot be judged is one of the first spans, or it is the last one.
      constructor
      · rintro (⟨before, s, after, worst, rfl, hbefore, hs⟩ | ⟨worst, hinit, hlast⟩)
        · exact ⟨before, s, after ++ [last], worst, by simp, hbefore, hs⟩
        · exact ⟨init, last, [], worst, rfl, judged_iff.mpr hinit, map_eq_error_iff.mp hlast⟩
      · rintro ⟨before, s, after, worst, heq, hbefore, hs⟩
        rcases List.eq_nil_or_concat after with rfl | ⟨after, last', rfl⟩
        · obtain ⟨rfl, hsame⟩ := List.append_inj' heq rfl
          obtain rfl := List.singleton_inj.mp hsame
          exact .inr ⟨worst, judged_iff.mp hbefore, map_eq_error_iff.mpr hs⟩
        · left
          rw [List.concat_eq_append, ← List.cons_append, ← List.append_assoc] at heq
          obtain ⟨rfl, -⟩ := List.append_inj' heq rfl
          exact ⟨before, s, after, worst, rfl, hbefore, hs⟩

/-! ## Outcomes -/

theorem treeOf_eq_ok_iff : Outcome.treeOf correct spans = .ok t ↔ HasTree correct spans t := by
  rw [Outcome.treeOf]
  cases spans with
  | nil =>
      constructor
      · intro h
        cases h
      · intro h
        exact absurd rfl h.nonempty
  | cons s rest =>
      rw [if_neg (by simp), bind_eq_ok_iff]
      exact ⟨fun h => ⟨List.cons_ne_nil _ _, h⟩, fun h => h.built⟩

theorem treeOf_eq_error_iff :
    Outcome.treeOf correct spans = .error e ↔
      (spans = [] ∧ e = .reported (.traceEmpty none)) ∨
      (spans ≠ [] ∧ (correct spans = .error e ∨
        ∃ corrected, correct spans = .ok corrected ∧ TraceTree.build corrected = .error e)) := by
  rw [Outcome.treeOf]
  cases spans with
  | nil => simp [eq_comm]
  | cons s rest =>
      rw [if_neg (by simp), bind_eq_error_iff]
      simp

def summaryBy (judge : Judge) (t : TraceTree) : Except Failure TraceSummary := do
  let worst ← judge.verdict .none t.spans
  (TraceSummary.ofSpans t.spans worst).mapError .reported

theorem run_ofTree (st : σ) :
    (TraceSummary.ofTree (.ofJudge judge) t).run.run st = (summaryBy judge t, st) :=
  TraceSummary.run_ofTree_of_judge (run_judge st)

/-- What comes of a trace, whatever the state. -/
def outcomeBy (correct : SkewCorrection) (judge : Judge) (spans : List Span) : Outcome :=
  match Outcome.treeOf correct spans with
  | .error e => { traceId := spans.head?.map (·.traceId), result := .error e }
  | .ok t =>
    { traceId := spans.head?.map (·.traceId), notes := t.notes, result := summaryBy judge t }

theorem run_ofSpans (st : σ) :
    (Outcome.ofSpans correct (.ofJudge judge) spans).run st =
      (outcomeBy correct judge spans, st) := by
  rw [Outcome.ofSpans, outcomeBy]
  cases Outcome.treeOf correct spans with
  | error e => rfl
  | ok t =>
      dsimp only
      rw [StateT.run_bind, run_ofTree]
      rfl

theorem summary_eq_error_iff {errorType : ErrorType} {e : TraceError} :
    TraceSummary.ofSpans spans errorType = .error e ↔
      instantsOf spans = [] ∧ e = .timestampMissing (spans.getLast?.map (·.traceId.shown)) := by
  rw [TraceSummary.ofSpans, ← List.min?_eq_none_iff]
  cases (instantsOf spans).min? with
  | none => simp [eq_comm, Function.comp_def]
  | some first => simp

theorem traceId_outcomeBy :
    (outcomeBy correct judge spans).traceId = spans.head?.map (·.traceId) := by
  rw [outcomeBy]
  split <;> rfl

theorem result_outcomeBy :
    (outcomeBy correct judge spans).result = Outcome.treeOf correct spans >>= summaryBy judge := by
  rw [outcomeBy]
  cases Outcome.treeOf correct spans <;> rfl

/-- The failure of a trace is that of the first step that fails. -/
theorem result_eq_error_iff :
    (outcomeBy correct judge spans).result = .error e ↔ FailsWith correct judge spans e := by
  rw [result_outcomeBy, bind_eq_error_iff, treeOf_eq_error_iff]
  simp only [treeOf_eq_ok_iff, summaryBy, bind_eq_error_iff, verdict_eq_error_iff, ← judged_iff,
    mapError_eq_error_iff, summary_eq_error_iff]
  constructor
  · rintro ((⟨rfl, rfl⟩ | ⟨hne, hfailed | ⟨corrected, hcorrects, hfailed⟩⟩) |
      ⟨t, htree, ⟨before, s, after, worst, hcut, hjudged, hfailed⟩ |
        ⟨worst, hjudged, _, ⟨htimeless, rfl⟩, rfl⟩⟩)
    · exact .empty
    · exact .correction hne hfailed
    · exact .tree hne hcorrects hfailed
    · exact .verdict htree hcut hjudged hfailed
    · exact .time htree hjudged htimeless
  · intro h
    cases h with
    | empty => exact .inl (.inl ⟨rfl, rfl⟩)
    | correction hne hfailed => exact .inl (.inr ⟨hne, .inl hfailed⟩)
    | tree hne hcorrects hfailed => exact .inl (.inr ⟨hne, .inr ⟨_, hcorrects, hfailed⟩⟩)
    | verdict htree hcut hjudged hfailed =>
        exact .inr ⟨_, htree, .inl ⟨_, _, _, _, hcut, hjudged, hfailed⟩⟩
    | time htree hjudged htimeless =>
        exact .inr ⟨_, htree, .inr ⟨_, hjudged, _, ⟨htimeless, rfl⟩, rfl⟩⟩

theorem fails_iff :
    Fails correct judge spans ↔ (outcomeBy correct judge spans).skipped?.isSome := by
  simp only [Fails, ← result_eq_error_iff, Outcome.skipped?]
  cases (outcomeBy correct judge spans).result <;> simp

instance : DecidablePred (Fails correct judge) := fun _ => decidable_of_iff _ fails_iff.symm

theorem isReportOf_of_skipped {report : SkippedTrace}
    (h : (outcomeBy correct judge spans).skipped? = some report) :
    IsReportOf correct judge spans report := by
  rw [Outcome.skipped?] at h
  split at h
  · rename_i e hresult
    obtain rfl := Option.some.inj h
    refine ⟨traceId_outcomeBy, fun e' => ?_⟩
    rw [← result_eq_error_iff, hresult, Except.error.injEq, eq_comm]
  · cases h

end

namespace Batch

section

variable {σ : Type} {correct : SkewCorrection} {judge : Judge} {options : ListOptions}
  {spans : List Span} {traces : List (List Span)}

/-! ## Batches -/

theorem run_mapM_ofSpans (st : σ) :
    (traces.mapM (Outcome.ofSpans correct (.ofJudge judge))).run st =
      (traces.map (outcomeBy correct judge), st) := by
  induction traces with
  | nil => rfl
  | cons spans rest ih =>
      rw [List.mapM_cons, StateT.run_bind, run_ofSpans]
      change StateT.run (rest.mapM _ >>= fun outcomes => pure (_ :: outcomes)) st = _
      rw [StateT.run_bind, ih]
      rfl

theorem run_summarize (st : σ) :
    (summarize options correct (.ofJudge judge) traces).run st =
      (ofOutcomes options (traces.map (outcomeBy correct judge)), st) := by
  rw [summarize, StateT.run_bind, run_mapM_ofSpans]
  rfl

theorem forall₂_reports :
    List.Forall₂ (IsReportOf correct judge) (traces.filter (Fails correct judge))
      ((traces.map (outcomeBy correct judge)).filterMap (·.skipped?)) := by
  induction traces with
  | nil => exact .nil
  | cons spans rest ih =>
      rw [List.map_cons, List.filter_cons]
      cases hskipped : (outcomeBy correct judge spans).skipped? with
      | none =>
          have hkept : ¬ Fails correct judge spans := by simp [fails_iff, hskipped]
          rw [List.filterMap_cons_none hskipped, if_neg (by simpa using hkept)]
          exact ih
      | some report =>
          have hfails : Fails correct judge spans := by simp [fails_iff, hskipped]
          rw [List.filterMap_cons_some hskipped, if_pos (by simpa using hfails)]
          exact .cons (isReportOf_of_skipped hskipped) ih

theorem summary?_eq_none (h : Fails correct judge spans) :
    (outcomeBy correct judge spans).summary? = none := by
  obtain ⟨e, he⟩ := h
  rw [Outcome.summary?, result_eq_error_iff.mpr he]
  rfl

theorem filterMap_summary?_kept :
    ((traces.filter fun spans => ¬ Fails correct judge spans).map
        (outcomeBy correct judge)).filterMap (·.summary?) =
      (traces.map (outcomeBy correct judge)).filterMap (·.summary?) := by
  rw [List.filterMap_map, List.filterMap_map, List.filterMap_filter]
  refine List.filterMap_congr fun spans _ => ?_
  by_cases hfails : Fails correct judge spans
  · simp [hfails, summary?_eq_none hfails]
  · simp [hfails]

theorem filterMap_skipped?_kept :
    ((traces.filter fun spans => ¬ Fails correct judge spans).map
        (outcomeBy correct judge)).filterMap (·.skipped?) = [] := by
  rw [List.filterMap_map, List.filterMap_eq_nil_iff]
  intro spans hspans
  simpa [fails_iff] using (List.mem_filter.mp hspans).2

theorem length_summaries_add_skipped (outcomes : List Outcome) :
    (outcomes.filterMap (·.summary?)).length + (outcomes.filterMap (·.skipped?)).length =
      outcomes.length := by
  induction outcomes with
  | nil => rfl
  | cons o rest ih =>
      have hone := length_summary_add_skipped o
      simp only [List.filterMap_eq_flatMap_toList, List.flatMap_cons, List.length_append,
        List.length_cons] at ih ⊢
      omega

theorem length_rank {summaries : List TraceSummary} {items : List TraceListItem}
    (h : TraceListItem.rank options summaries = .ok items) : items.length = summaries.length := by
  obtain ⟨rows, hrows, rfl⟩ := rank_eq_ok_iff.mp h
  rw [List.length_mergeSort, (Reordering.mapM_eq_ok_iff.mp hrows).length_eq]

end

/-- Every trace that fails is reported once, in the order of the batch. The list, or the failure to
rank it, is that of the batch without these traces, which reports nothing. -/
theorem summarize_reports {σ : Type} (options : ListOptions) (correct : SkewCorrection)
    (judge : Judge) (traces : List (List Span)) (st : σ) :
    ∃ batch kept : Batch,
      (summarize options correct (.ofJudge judge) traces).run st = (batch, st) ∧
      (summarize options correct (.ofJudge judge)
        (traces.filter fun spans => ¬ Fails correct judge spans)).run st = (kept, st) ∧
      List.Forall₂ (IsReportOf correct judge) (traces.filter (Fails correct judge))
        batch.skipped ∧
      batch.items = kept.items ∧ kept.skipped = [] ∧
      ∀ items, batch.items = .ok items →
        items.length + batch.skipped.length = traces.length := by
  refine ⟨_, _, run_summarize st, run_summarize st, forall₂_reports, ?_,
    filterMap_skipped?_kept, fun items hitems => ?_⟩
  · exact congrArg (TraceListItem.rank options) filterMap_summary?_kept.symm
  · rw [length_rank hitems]
    exact (length_summaries_add_skipped _).trans (List.length_map _)

end Batch

end TraceExplorer
