import Mathlib.Data.List.Forall2
import Mathlib.Data.List.Perm.Basic

/-!
# Lists in another order

What is computed from a list and does not depend on its order.
-/

namespace TraceExplorer.Reordering

section

variable {α β ε : Type} {l l' : List α} {f : α → Except ε β} {rs : List β}

theorem max?_perm {l l' : List Int} (h : l.Perm l') : l.max? = l'.max? := by
  ext m
  simp only [List.max?_eq_some_iff, h.mem_iff]

theorem min?_perm {l l' : List Int} (h : l.Perm l') : l.min? = l'.min? := by
  ext m
  simp only [List.min?_eq_some_iff, h.mem_iff]

theorem mapM_eq_ok_iff :
    l.mapM f = .ok rs ↔ List.Forall₂ (fun a r => f a = .ok r) l rs := by
  induction l generalizing rs with
  | nil =>
      rw [List.mapM_nil, List.forall₂_nil_left_iff]
      exact ⟨fun h => (Except.ok.inj h).symm, fun h => congrArg Except.ok h.symm⟩
  | cons a rest ih =>
      rw [List.mapM_cons, List.forall₂_cons_left_iff]
      simp only [← ih]
      cases f a with
      | error e => simp [bind, Except.bind]
      | ok r =>
          cases rest.mapM f with
          | error e => simp [bind, Except.bind]
          | ok rs => simp [bind, Except.bind, pure, Except.pure, eq_comm]

theorem exists_mem_of_forall₂ {R : α → β → Prop} {r : β} (h : List.Forall₂ R l rs)
    (hr : r ∈ rs) : ∃ a ∈ l, R a r := by
  induction h with
  | nil => cases hr
  | cons hhead _ ih =>
      rw [List.exists_mem_cons_iff]
      rcases List.mem_cons.mp hr with rfl | hr
      · exact .inl hhead
      · exact .inr (ih hr)

theorem forall₂_zipIdx {R : α → β → Prop} (h : List.Forall₂ R l rs) (n : Nat) :
    List.Forall₂ (fun a r => R a.1 r.1 ∧ a.2 = r.2) (l.zipIdx n) (rs.zipIdx n) := by
  induction h generalizing n with
  | nil => exact .nil
  | cons hhead _ ih => exact .cons ⟨hhead, rfl⟩ (ih (n + 1))

/-- What holds of any two elements in their order holds of those that belong to them. -/
theorem pairwise_of_forall₂ {R : α → β → Prop} {S : α → α → Prop} {T : β → β → Prop}
    (hST : ∀ a a' r r', R a r → R a' r' → S a a' → T r r') (h : List.Forall₂ R l rs)
    (hl : l.Pairwise S) : rs.Pairwise T := by
  induction h with
  | nil => exact .nil
  | cons hhead htail ih =>
      obtain ⟨hfirst, hrest⟩ := List.pairwise_cons.mp hl
      refine List.pairwise_cons.mpr ⟨fun r' hr' => ?_, ih hrest⟩
      obtain ⟨a', ha', hR'⟩ := exists_mem_of_forall₂ htail hr'
      exact hST _ _ _ _ hhead hR' (hfirst a' ha')

theorem exists_mem_of_mapM {r : β} (hrs : l.mapM f = .ok rs) (hr : r ∈ rs) :
    ∃ a ∈ l, f a = .ok r :=
  exists_mem_of_forall₂ (R := fun a r => f a = .ok r) (mapM_eq_ok_iff.mp hrs) hr

theorem exists_result_of_mapM {a : α} (hrs : l.mapM f = .ok rs) (ha : a ∈ l) :
    ∃ r ∈ rs, f a = .ok r :=
  exists_mem_of_forall₂ (R := fun r a => f a = .ok r) (mapM_eq_ok_iff.mp hrs).flip ha

theorem mapM_congr {g : α → Except ε β} (h : ∀ a ∈ l, f a = g a) : l.mapM f = l.mapM g := by
  induction l with
  | nil => rfl
  | cons a rest ih =>
      obtain ⟨hhead, hrest⟩ := List.forall_mem_cons.mp h
      rw [List.mapM_cons, List.mapM_cons, hhead, ih hrest]

/-- If every element has a result, the elements have the same results in any order. -/
theorem mapM_perm (h : l.Perm l') (hrs : l.mapM f = .ok rs) :
    ∃ rs', l'.mapM f = .ok rs' ∧ rs'.Perm rs := by
  obtain ⟨rs', hrs', hperm⟩ := List.perm_comp_forall₂ h.symm (mapM_eq_ok_iff.mp hrs)
  exact ⟨rs', mapM_eq_ok_iff.mpr hrs', hperm⟩

section

variable {R : α → α → Prop}

theorem mapM_forall₂ (hR : ∀ a a', R a a' → f a = f a') (h : List.Forall₂ R l l') :
    l.mapM f = l'.mapM f := by
  induction h with
  | nil => rfl
  | cons hhead _ ih => rw [List.mapM_cons, List.mapM_cons, hR _ _ hhead, ih]

theorem map_forall₂ {g : α → β} (hR : ∀ a a', R a a' → g a = g a') (h : List.Forall₂ R l l') :
    l.map g = l'.map g := by
  induction h with
  | nil => rfl
  | cons hhead _ ih => rw [List.map_cons, List.map_cons, hR _ _ hhead, ih]

end

end

end TraceExplorer.Reordering
