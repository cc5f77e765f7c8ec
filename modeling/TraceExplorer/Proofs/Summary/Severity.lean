import TraceExplorer.Summary.Severity

/-!
# The verdict of the usual classifier

The usual classifier gives the worst verdict on a single span, whatever was said before, so the
spans can be judged in any order.
-/

namespace TraceExplorer

namespace ErrorType

def worst (spans : List Span) : ErrorType :=
  spans.foldl (fun current s => current.worse (classify s none)) none

section

variable {spans spans' : List Span} {s : Span}

theorem worse_comm (a b c : ErrorType) : (a.worse b).worse c = (a.worse c).worse b := by
  cases a <;> cases b <;> cases c <;> rfl

theorem worse_critical (a : ErrorType) : critical.worse a = critical := by cases a <;> rfl

theorem worse_classify (current : ErrorType) (s : Span) :
    current.worse (classify s current) = current.worse (classify s none) := by
  unfold classify
  cases current with
  | none => rfl
  | transient =>
      cases s.tags.any (·.1 == "error") <;> cases s.annotations.any (·.value == "error") <;> rfl
  | critical => rw [worse_critical, worse_critical]

theorem worst_perm (h : spans.Perm spans') : worst spans = worst spans' :=
  h.foldl_eq' (fun _ _ _ _ _ => worse_comm _ _ _) none

end

end ErrorType

namespace Classifier

theorem judge_standard {σ : Type} (current : ErrorType) (spans : List Span) :
    judge (standard (σ := σ)) current spans =
      pure (spans.foldl (fun current s => current.worse (ErrorType.classify s .none)) current) := by
  induction spans generalizing current with
  | nil => rfl
  | cons s rest ih =>
      rw [judge, standard, pure_bind, ErrorType.worse_classify]
      exact ih _

end Classifier

end TraceExplorer
