import Mathlib.Data.List.DropRight
import TraceExplorer.Text.Blank

/-!
# Trimmed lists

Trimming leaves a list whose two ends fail the test, and changes no such list.
-/

namespace TraceExplorer.Text

section

variable {α : Type} {p : α → Bool} {s : List α}

structure Trimmed (p : α → Bool) (s : List α) : Prop where
  first : ∀ a ∈ s.head?, p a = false
  last : ∀ a ∈ s.getLast?, p a = false

theorem trimBy_eq_rdropWhile (p : α → Bool) (s : List α) :
    trimBy p s = (s.dropWhile p).rdropWhile p := rfl

theorem Trimmed.trimBy_eq (h : Trimmed p s) : trimBy p s = s := by
  have hfirst : s.dropWhile p = s := by
    rw [List.dropWhile_eq_self_iff]
    intro hpos
    have hhead := h.first s[0] (by rw [List.head?_eq_getElem?, List.getElem?_eq_getElem hpos]; rfl)
    simp [hhead]
  rw [trimBy_eq_rdropWhile, hfirst, List.rdropWhile_eq_self_iff]
  intro hne
  have hlast := h.last (s.getLast hne) (List.getLast?_eq_some_getLast hne)
  simp [hlast]

theorem head?_dropWhile {a : α} (h : a ∈ (s.dropWhile p).head?) : p a = false := by
  induction s with
  | nil => cases h
  | cons b rest ih =>
      rw [List.dropWhile_cons] at h
      split at h
      · exact ih h
      · rename_i hb
        obtain rfl := Option.some.inj h
        simpa using hb

theorem trimmed_trimBy (p : α → Bool) (s : List α) : Trimmed p (trimBy p s) := by
  constructor
  · intro a ha
    have hprefix : trimBy p s <+: s.dropWhile p := List.rdropWhile_prefix p _
    cases htrim : trimBy p s with
    | nil => simp [htrim] at ha
    | cons b rest =>
        rw [htrim] at ha hprefix
        obtain rfl := Option.some.inj ha
        obtain ⟨tail, htail⟩ := hprefix
        exact head?_dropWhile (s := s) (by rw [← htail]; rfl)
  · intro a ha
    rw [trimBy, List.getLast?_reverse] at ha
    exact head?_dropWhile ha

theorem trimBy_subset (p : α → Bool) (s : List α) : trimBy p s ⊆ s := by
  intro a ha
  exact (List.dropWhile_suffix p).subset ((List.rdropWhile_prefix p _).subset ha)

theorem trimBy_eq_nil_iff : trimBy p s = [] ↔ ∀ a ∈ s, p a := by
  rw [trimBy_eq_rdropWhile, List.rdropWhile_eq_nil_iff]
  constructor
  · intro h a ha
    rw [← List.takeWhile_append_dropWhile (p := p) (l := s), List.mem_append] at ha
    exact ha.elim List.mem_takeWhile_imp (h a)
  · exact fun h a ha => h a ((List.dropWhile_suffix p).subset ha)

theorem trimBy_cons_of_pos {a : α} (h : p a) : trimBy p (a :: s) = trimBy p s := by
  rw [trimBy, List.dropWhile_cons_of_pos h, trimBy]

theorem trimBy_append_of_pos {a : α} (h : p a) : trimBy p (s ++ [a]) = trimBy p s := by
  rw [trimBy_eq_rdropWhile, trimBy_eq_rdropWhile, List.dropWhile_append]
  split
  · rename_i hempty
    rw [List.dropWhile_cons_of_pos h, List.isEmpty_iff.mp hempty]
    rfl
  · rw [List.rdropWhile_concat_pos _ _ _ h]

/-- What passes the test is dropped before and behind a list. -/
theorem trimBy_between {before after : List α} (hbefore : ∀ a ∈ before, p a)
    (hafter : ∀ a ∈ after, p a) : trimBy p (before ++ s ++ after) = trimBy p s := by
  have hend : trimBy p (s ++ after) = trimBy p s := by
    induction after using List.reverseRecOn with
    | nil => rw [List.append_nil]
    | append_singleton after a ih =>
        rw [List.forall_mem_append, List.forall_mem_singleton] at hafter
        rw [← List.append_assoc, trimBy_append_of_pos hafter.2, ih hafter.1]
  induction before with
  | nil => exact hend
  | cons a before ih =>
      obtain ⟨ha, hbefore⟩ := List.forall_mem_cons.mp hbefore
      rw [List.cons_append, List.cons_append, trimBy_cons_of_pos ha, ih hbefore]

theorem trimBy_map {β : Type} (f : β → α) (s : List β) :
    trimBy p (s.map f) = (trimBy (p ∘ f) s).map f := by
  rw [trimBy, trimBy, List.dropWhile_map, ← List.map_reverse, List.dropWhile_map,
    ← List.map_reverse]

end

end TraceExplorer.Text
