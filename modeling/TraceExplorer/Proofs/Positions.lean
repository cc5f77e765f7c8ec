import Mathlib.Data.List.Induction
import Mathlib.Data.List.Nodup

/-!
# Positions in a list

The position of an element in a list is the first place where it stands. Elements without doubles
come in the order of their positions, and a stable sort keeps that order among equal elements.
What stands in one piece of a list can be told by a test.
-/

namespace TraceExplorer.Positions

section

variable {α : Type} [BEq α] [LawfulBEq α] {l : List α} {a b : α}

/-- In a list in strict order the positions say what the order says. -/
theorem idxOf_lt_iff {R : α → α → Prop} (hl : l.Pairwise R) (hasymm : ∀ a b, R a b → ¬ R b a)
    (ha : a ∈ l) (hb : b ∈ l) : l.idxOf a < l.idxOf b ↔ R a b := by
  have hordered {a b : α} (ha : a ∈ l) (hb : b ∈ l) (hlt : l.idxOf a < l.idxOf b) : R a b := by
    have hR := List.pairwise_iff_getElem.mp hl _ _ (List.idxOf_lt_length_of_mem ha)
      (List.idxOf_lt_length_of_mem hb) hlt
    rwa [List.getElem_idxOf, List.getElem_idxOf] at hR
  refine ⟨hordered ha hb, fun hR => ?_⟩
  rcases Nat.lt_trichotomy (l.idxOf a) (l.idxOf b) with hlt | heq | hgt
  · exact hlt
  · obtain rfl := (List.idxOf_inj ha).mp heq
    exact absurd hR (hasymm a a hR)
  · exact absurd (hordered hb ha hgt) (hasymm a b hR)

theorem eraseDups_concat (l : List α) (a : α) :
    (l ++ [a]).eraseDups = if a ∈ l then l.eraseDups else l.eraseDups ++ [a] := by
  rw [List.eraseDups_append]
  by_cases hmem : a ∈ l
  · simp [List.removeAll, hmem]
  · simp [List.removeAll, hmem, List.eraseDups_cons]

/-- Elements whose doubles are left out come in the order of their first places. -/
theorem pairwise_eraseDups (l : List α) :
    l.eraseDups.Pairwise fun a b => l.idxOf a < l.idxOf b := by
  induction l using List.reverseRecOn with
  | nil => exact List.Pairwise.nil
  | append_singleton l a ih =>
      have hold : l.eraseDups.Pairwise fun b c => (l ++ [a]).idxOf b < (l ++ [a]).idxOf c := by
        refine ih.imp_of_mem fun {b c} hb hc hlt => ?_
        rwa [List.idxOf_append_of_mem (List.mem_eraseDups.mp hb),
          List.idxOf_append_of_mem (List.mem_eraseDups.mp hc)]
      rw [eraseDups_concat]
      split
      · exact hold
      · rename_i hnew
        refine List.pairwise_append.mpr ⟨hold, List.pairwise_singleton _ _, fun b hb c hc => ?_⟩
        obtain rfl := List.mem_singleton.mp hc
        have hb := List.mem_eraseDups.mp hb
        rw [List.idxOf_append_of_mem hb, List.idxOf_append_of_notMem hnew]
        exact Nat.lt_add_right _ (List.idxOf_lt_length_of_mem hb)

theorem nodup_eraseDups (l : List α) : l.eraseDups.Nodup := by
  refine (pairwise_eraseDups l).imp fun hlt heq => ?_
  rw [heq] at hlt
  exact Nat.lt_irrefl _ hlt

theorem eraseDups_eq_nil_iff : l.eraseDups = [] ↔ l = [] := by
  simp only [List.eq_nil_iff_forall_not_mem, List.mem_eraseDups]

theorem eraseDups_of_nodup (h : l.Nodup) : l.eraseDups = l := by
  induction l using List.reverseRecOn with
  | nil => rfl
  | append_singleton l a ih =>
      rw [List.nodup_append'] at h
      have hnew : a ∉ l := fun hmem => h.2.2 hmem (List.mem_singleton_self a)
      rw [eraseDups_concat, if_neg hnew, ih h.1]

theorem eraseDups_of_forall_eq (h : ∀ b ∈ l, b = a) :
    l.eraseDups = if l = [] then [] else [a] := by
  cases l with
  | nil => rfl
  | cons b rest =>
      obtain ⟨rfl, hrest⟩ := List.forall_mem_cons.mp h
      have hnone : rest.filter (fun c => !c == b) = [] := by
        apply List.filter_eq_nil_iff.mpr
        intro c hc
        simp [hrest c hc]
      rw [List.eraseDups_cons, hnone, if_neg (List.cons_ne_nil _ _)]
      rfl

/-- Leaving out doubles in the parts of a list beforehand changes nothing. -/
theorem eraseDups_append_eraseDups (xs ys : List α) :
    (xs.eraseDups ++ ys.eraseDups).eraseDups = (xs ++ ys).eraseDups := by
  induction ys using List.reverseRecOn with
  | nil => rw [List.eraseDups_nil, List.append_nil, List.append_nil,
      eraseDups_of_nodup (nodup_eraseDups xs)]
  | append_singleton ys y ih =>
      rw [← List.append_assoc, eraseDups_concat, eraseDups_concat]
      by_cases hold : y ∈ ys
      · rw [if_pos hold, if_pos (List.mem_append_right _ hold), ih]
      · rw [if_neg hold, ← List.append_assoc, eraseDups_concat, ih]
        simp only [List.mem_append, List.mem_eraseDups]

theorem eraseDups_flatMap_congr {β : Type} {elements : List β} {f g : β → List α}
    (h : ∀ e ∈ elements, (f e).eraseDups = (g e).eraseDups) :
    (elements.flatMap f).eraseDups = (elements.flatMap g).eraseDups := by
  induction elements with
  | nil => rfl
  | cons e rest ih =>
      obtain ⟨hhead, hrest⟩ := List.forall_mem_cons.mp h
      rw [List.flatMap_cons, List.flatMap_cons, ← eraseDups_append_eraseDups, hhead, ih hrest,
        eraseDups_append_eraseDups]

end

section

variable {α : Type} {le : α → α → Bool} {l part : List α} {test : α → Bool}

/-- The elements of one piece of a list are all that pass a test that no others pass. -/
theorem filter_eq_of_infix (hnodup : l.Nodup) (hpart : part <:+: l)
    (htest : ∀ a ∈ l, test a ↔ a ∈ part) : l.filter test = part := by
  obtain ⟨front, back, rfl⟩ := hpart
  rw [List.nodup_append', List.nodup_append'] at hnodup
  obtain ⟨⟨-, -, hfront⟩, -, hback⟩ := hnodup
  have hnone {outside : List α} (hsub : outside ⊆ front ++ part ++ back)
      (hdisjoint : outside.Disjoint part) : outside.filter test = [] := by
    refine List.filter_eq_nil_iff.mpr fun a ha hpass => ?_
    exact hdisjoint ha ((htest a (hsub ha)).mp hpass)
  have hall : part.filter test = part :=
    List.filter_eq_self.mpr fun a ha => (htest a (by simp [ha])).mpr ha
  rw [List.filter_append, List.filter_append, hall, hnone (fun a ha => by simp [ha]) hfront,
    hnone (fun a ha => by simp [ha]) fun a ha hpart => hback (List.mem_append_right _ hpart) ha,
    List.nil_append, List.append_nil]

/-- Elements that a sort holds to be equal stay in the order in which they were. -/
theorem pairwise_mergeSort (htrans : ∀ a b c, le a b → le b c → le a c)
    (htotal : ∀ a b, le a b || le b a) {R : α → α → Prop} (hl : l.Pairwise R) :
    (l.mergeSort le).Pairwise fun a b => le a b ∧ (le b a → R a b) := by
  induction l with
  | nil => simp
  | cons a l ih =>
      obtain ⟨ha, hl⟩ := List.pairwise_cons.mp hl
      obtain ⟨front, back, hsort, hrest, hfront⟩ := List.mergeSort_cons htrans htotal a l
      have hsorted := List.pairwise_mergeSort htrans htotal (a :: l)
      have hmem : ∀ b ∈ back, b ∈ l := by
        intro b hb
        have hb : b ∈ l.mergeSort le := hrest ▸ List.mem_append_right _ hb
        exact List.mem_mergeSort.mp hb
      rw [hsort] at hsorted ⊢
      obtain ⟨-, hback, hmiddle⟩ := List.pairwise_append.mp hsorted
      obtain ⟨ihfront, ihback, ihmiddle⟩ := List.pairwise_append.mp (hrest ▸ ih hl)
      -- The first element goes behind those that are smaller and before all that are equal to it.
      refine List.pairwise_append.mpr ⟨ihfront, List.pairwise_cons.mpr ⟨fun b hb => ?_, ihback⟩,
        fun b hb c hc => ?_⟩
      · exact ⟨(List.pairwise_cons.mp hback).1 b hb, fun _ => ha b (hmem b hb)⟩
      · rcases List.mem_cons.mp hc with rfl | hc
        · have hsmaller := hfront b hb
          exact ⟨hmiddle b hb c List.mem_cons_self, fun hle => by simp [hle] at hsmaller⟩
        · exact ihmiddle b hb c hc

end

end TraceExplorer.Positions
