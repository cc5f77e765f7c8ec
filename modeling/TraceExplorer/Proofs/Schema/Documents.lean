import TraceExplorer.Proofs.Schema.Passing
import TraceExplorer.Schema.Validation

/-!
# Validating documents

Validating a document checks one span after the other. The result counts the spans that were
checked, and nothing is wrong if nothing was before and every span passes the schema.
-/

namespace TraceExplorer.Schema.Validation

open Json (Value)

/-- A relation between two results, by what was read on the way from one to the other, composes
along appended lists. -/
structure Composes {β : Type} (R : List β → Validation → Validation → Prop) : Prop where
  refl : ∀ v, R [] v v
  trans : ∀ {l l' v w x}, R l v w → R l' w x → R (l ++ l') v x

/-- What a step reads of each member of a list, all steps together read one after the other. -/
theorem Composes.foldl {α β : Type} {R : List β → Validation → Validation → Prop}
    (hR : Composes R) {step : Validation → α → Validation} {l : List α} (partsOf : α → List β)
    (h : ∀ v a, R (partsOf a) v (step v a)) (v : Validation) :
    R (l.flatMap partsOf) v (l.foldl step v) := by
  induction l generalizing v with
  | nil => exact hR.refl v
  | cons a rest ih =>
      rw [List.flatMap_cons, List.foldl_cons]
      exact hR.trans (h v a) (ih _)

/-- The spans that an item of a list stands for: the items of a list, or the item itself. -/
def spansOfItem : Value → List Value
  | .list spans => spans
  | v => [v]

/-- Some spans were checked on the way from one result to another. -/
structure Checked (spans : List Value) (before after : Validation) : Prop where
  spanCount : after.spanCount = before.spanCount + spans.length
  isValid : after.isValid ↔ before.isValid ∧ ∀ span ∈ spans, Passes spanSchema span

section

variable {v w x : Validation} {spans spans' : List Value} {span : Value} {place : List PathStep}
  {line : Option Nat}

theorem Checked.refl (v : Validation) : Checked [] v v := ⟨rfl, by simp⟩

theorem Checked.trans (h : Checked spans v w) (h' : Checked spans' w x) :
    Checked (spans ++ spans') v x := by
  constructor
  · rw [h'.spanCount, h.spanCount, List.length_append, Nat.add_assoc]
  · rw [h'.isValid, h.isValid, List.forall_mem_append, and_assoc]

theorem composes_checked : Composes Checked := ⟨.refl, .trans⟩

theorem checked_addSpan (v : Validation) (place : List PathStep) (line : Option Nat)
    (span : Value) : Checked [span] v (v.addSpan place line span) := by
  refine ⟨rfl, ?_⟩
  simp [isValid, addSpan, Passes]

theorem flatMap_fst_zipIdx {α β : Type} (l : List α) (n : Nat) (f : α → List β) :
    (l.zipIdx n).flatMap (fun p => f p.1) = l.flatMap f := by
  rw [← List.flatMap_map, List.zipIdx_map_fst]

theorem checked_addItem (v : Validation) (item : Value × Nat) :
    Checked (spansOfItem item.1) v (v.addItem item) := by
  obtain ⟨item, i⟩ := item
  cases item with
  | list spans =>
      have hall : Checked (spans.zipIdx.flatMap fun p => [p.1]) v
          (spans.zipIdx.foldl (fun v p => v.addSpan [.index i, .index p.2] none p.1) v) :=
        composes_checked.foldl _ (fun v p => checked_addSpan v _ _ p.1) v
      rw [flatMap_fst_zipIdx spans 0 fun span => [span], List.flatMap_singleton'] at hall
      exact hall
  | _ => exact checked_addSpan v _ _ _

theorem checked_ofItems (filePath : String) (items : List Value) :
    Checked (items.flatMap spansOfItem) { filePath } (ofJson filePath (.list items)) := by
  have hall : Checked (items.zipIdx.flatMap fun p => spansOfItem p.1) { filePath }
      (items.zipIdx.foldl addItem { filePath }) := composes_checked.foldl _ checked_addItem _
  rw [flatMap_fst_zipIdx] at hall
  exact hall

end

end TraceExplorer.Schema.Validation
