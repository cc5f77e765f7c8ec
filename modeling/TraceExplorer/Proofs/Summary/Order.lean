import Mathlib.Data.List.Perm.Basic
import TraceExplorer.Text.Basic

/-!
# The order of ranked lists

Traces and services are ranked alike: the longer one comes first, and those of the same length are
in the order of their names. Sorting by such keys leaves no choice but among entries of one key.
-/

namespace TraceExplorer

/-- The longer key comes first; keys of the same length are ordered by name. -/
def longerFirst (a b : Int × Text) : Bool := b.1 < a.1 || (a.1 == b.1 && a.2 ≤ b.2)

section

variable {α : Type} {a b c : Int × Text} {l l' : List α}

theorem longerFirst_iff : longerFirst a b ↔ b.1 < a.1 ∨ a.1 = b.1 ∧ a.2 ≤ b.2 := by
  simp [longerFirst]

theorem longerFirst_trans (hab : longerFirst a b) (hbc : longerFirst b c) : longerFirst a c := by
  rw [longerFirst_iff] at *
  rcases hab with hab | ⟨hab, hname⟩ <;> rcases hbc with hbc | ⟨hbc, hname'⟩
  · exact .inl (Int.lt_trans hbc hab)
  · exact .inl (hbc ▸ hab)
  · exact .inl (hab ▸ hbc)
  · exact .inr ⟨hab.trans hbc, Text.le_trans hname hname'⟩

theorem longerFirst_total (a b : Int × Text) : longerFirst a b || longerFirst b a := by
  rw [Bool.or_eq_true, longerFirst_iff, longerFirst_iff]
  rcases Int.lt_trichotomy a.1 b.1 with hlt | heq | hlt
  · exact .inr (.inl hlt)
  · exact (Text.le_total a.2 b.2).imp (fun h => .inr ⟨heq, h⟩) fun h => .inr ⟨heq.symm, h⟩
  · exact .inl (.inl hlt)

theorem longerFirst_antisymm (hab : longerFirst a b) (hba : longerFirst b a) : a = b := by
  rw [longerFirst_iff] at *
  rcases hab with hab | ⟨heq, hname⟩ <;> rcases hba with hba | ⟨heq', hname'⟩
  · omega
  · omega
  · omega
  · exact Prod.ext heq (Text.le_antisymm hname hname')

theorem pairwise_ranked (key : α → Int × Text) (l : List α) :
    (l.mergeSort fun a b => longerFirst (key a) (key b)).Pairwise
      fun a b => longerFirst (key a) (key b) := by
  refine List.pairwise_mergeSort ?_ ?_ l
  · intro a b c hab hbc
    exact longerFirst_trans hab hbc
  · intro a b
    exact longerFirst_total (key a) (key b)

theorem ranked_perm (key : α → Int × Text) (h : l.Perm l') :
    (l.mergeSort fun a b => longerFirst (key a) (key b)).Perm
      (l'.mergeSort fun a b => longerFirst (key a) (key b)) :=
  (List.mergeSort_perm _ _).trans (h.trans (List.mergeSort_perm _ _).symm)

/-- The keys of a ranked list do not depend on its order before. -/
theorem map_key_ranked (key : α → Int × Text) (h : l.Perm l') :
    (l.mergeSort fun a b => longerFirst (key a) (key b)).map key =
      (l'.mergeSort fun a b => longerFirst (key a) (key b)).map key := by
  refine ((ranked_perm key h).map key).eq_of_pairwise (fun _ _ _ _ => longerFirst_antisymm) ?_ ?_
  · exact List.pairwise_map.mpr (pairwise_ranked key l)
  · exact List.pairwise_map.mpr (pairwise_ranked key l')

/-- Neither does the ranked list if every entry has a key of its own. -/
theorem ranked_eq (key : α → Int × Text) (h : l.Perm l')
    (hkey : ∀ a ∈ l, ∀ b ∈ l, key a = key b → a = b) :
    l.mergeSort (fun a b => longerFirst (key a) (key b)) =
      l'.mergeSort fun a b => longerFirst (key a) (key b) := by
  refine (ranked_perm key h).eq_of_pairwise (fun a b ha hb hab hba => ?_)
    (pairwise_ranked key l) (pairwise_ranked key l')
  rw [List.mem_mergeSort] at ha hb
  exact hkey a ha b (h.mem_iff.mpr hb) (longerFirst_antisymm hab hba)

end

end TraceExplorer
