import TraceExplorer.Proofs.Text.Lower
import TraceExplorer.Span.Id

/-!
# Canonical ids

Every text that is not blank names an id, and the canonical spelling of an id is its own canonical
spelling.
-/

namespace TraceExplorer

open Text

/-- The canonical spelling of an id: lowered, without blanks at its ends, and of full width. -/
structure IsCanonical (id : Text) : Prop where
  low : ∀ a ∈ id.points, a.IsLow
  trimmed : Trimmed (·.isChar isBlank) id.points
  wide : idWidth ≤ id.length

section

variable {s id : Text}

theorem isLow_zero : CodePoint.IsLow (.char '0') := by
  have hunmoved : '0'.toNat ∉ movedCodes := by decide +kernel
  exact isLow_of_unmoved hunmoved

theorem canonicalId_eq_some_iff :
    canonicalId s = some id ↔ s.trim.isEmpty = false ∧ (lower s.trim).padLeft '0' idWidth = id := by
  rw [canonicalId]
  rw [isEmpty_lower]
  cases s.trim.isEmpty <;> simp

theorem exists_canonicalId (h : ∃ a ∈ s.points, a.isChar isBlank = false) :
    ∃ id, canonicalId s = some id := by
  refine ⟨_, canonicalId_eq_some_iff.mpr ⟨?_, rfl⟩⟩
  obtain ⟨a, ha, hsolid⟩ := h
  rw [isEmpty, List.isEmpty_eq_false_iff]
  intro hnil
  have hblank := trimBy_eq_nil_iff.mp hnil a ha
  simp [hsolid] at hblank

theorem IsCanonical.padLeft (hlow : ∀ a ∈ s.points, a.IsLow)
    (htrimmed : Trimmed (·.isChar isBlank) s.points) (hne : s.points ≠ []) :
    IsCanonical (s.padLeft '0' idWidth) := by
  have hsolid : (CodePoint.char '0').isChar isBlank = false := by decide
  refine ⟨fun a ha => ?_, ⟨fun a ha => ?_, fun a ha => ?_⟩, ?_⟩
  · rcases List.mem_append.mp ha with ha | ha
    · rw [List.eq_of_mem_replicate ha]
      exact isLow_zero
    · exact hlow a ha
  · rw [Text.padLeft] at ha
    cases hzeros : idWidth - s.length with
    | zero =>
        rw [hzeros] at ha
        exact htrimmed.first a ha
    | succ n =>
        rw [hzeros] at ha
        obtain rfl := Option.some.inj ha
        exact hsolid
  · rw [Text.padLeft, List.getLast?_append_of_ne_nil _ hne] at ha
    exact htrimmed.last a ha
  · simp only [Text.padLeft, Text.length, List.length_append, List.length_replicate]
    omega

theorem isCanonical_of_canonicalId (h : canonicalId s = some id) : IsCanonical id := by
  obtain ⟨hsome, rfl⟩ := canonicalId_eq_some_iff.mp h
  refine .padLeft (isLow_of_mem_lower _) (trimmed_lower (trimmed_trimBy _ _)) ?_
  rw [← isEmpty_lower] at hsome
  exact List.isEmpty_eq_false_iff.mp hsome

theorem IsCanonical.ne_nil (h : IsCanonical id) : id.points ≠ [] :=
  List.ne_nil_of_length_pos (Nat.lt_of_lt_of_le (by decide) h.wide)

/-- A canonical id is its own canonical spelling. -/
theorem IsCanonical.canonicalId_eq (h : IsCanonical id) : canonicalId id = some id := by
  have htrim : id.trim = id := congrArg Text.mk h.trimmed.trimBy_eq
  have hzeros : idWidth - id.length = 0 := Nat.sub_eq_zero_of_le h.wide
  rw [canonicalId_eq_some_iff, htrim, lower_eq_self h.low, Text.padLeft, hzeros]
  exact ⟨List.isEmpty_eq_false_iff.mpr h.ne_nil, rfl⟩

theorem normalizeId_eq_canonicalId (s : Text) : normalizeId (.text s) = canonicalId s := rfl

theorem normalizeId_eq_self (h : IsCanonical id) : normalizeId (.text id) = some id :=
  h.canonicalId_eq

theorem isCanonical_of_normalizeId {v : Json.Value} (h : normalizeId v = some id) :
    IsCanonical id := by
  cases v with
  | null => cases h
  | _ => exact isCanonical_of_canonicalId h

end

end TraceExplorer
