import TraceExplorer.Proofs.Schema.Documents
import TraceExplorer.Proofs.Success
import TraceExplorer.Proofs.Text.Lines

/-!
# Validating lines

Nothing is wrong with a text of lines if what stands on each line is JSON and a span. The spans that
were counted are the values on the lines.
-/

namespace TraceExplorer.Schema.Validation

open Json (Value)
open Text (bodies lineBody plainLines)

def Reads (body : List Char) (v : Value) : Prop := Json.read (Text.ofChars body) = .ok v

section

variable {v w : Validation} {line : String × Nat} {lines : List (String × Nat)} {text : String}
  {spans : List Value}

theorem addLine_of_blank (v : Validation) (h : Text.trimChars line.1.toList = []) :
    v.addLine line = .ok v := by
  rw [addLine, if_pos ((Text.isEmpty_trim_iff _).mpr h)]

theorem addLine_of_reads (v : Validation) {span : Value}
    (hne : Text.trimChars line.1.toList ≠ []) (hread : Reads (Text.trimChars line.1.toList) span) :
    v.addLine line = .ok (v.addSpan [] (some line.2) span) := by
  rw [Reads] at hread
  rw [addLine, if_neg (by rwa [Text.isEmpty_trim_iff]), Text.trim_ofString]
  simp only [hread]

theorem exists_reads_of_addLine (h : v.addLine line = .ok w)
    (hne : Text.trimChars line.1.toList ≠ []) (hvalid : w.isValid) :
    ∃ span, Reads (Text.trimChars line.1.toList) span := by
  rw [addLine, if_neg (by rwa [Text.isEmpty_trim_iff]), Text.trim_ofString] at h
  cases hread : Json.read (Text.ofChars (Text.trimChars line.1.toList)) with
  | ok span => exact ⟨span, hread⟩
  | error fault =>
      simp only [hread] at h
      split at h
      · obtain rfl := Except.ok.inj h
        simp [isValid] at hvalid
      · cases h

theorem checked_addLine (h : v.addLine line = .ok w) (hvalid : w.isValid) :
    ∃ spans, Checked spans v w ∧ List.Forall₂ Reads (lineBody line.1.toList) spans := by
  by_cases hblank : Text.trimChars line.1.toList = []
  · obtain rfl : v = w := Except.ok.inj ((addLine_of_blank v hblank).symm.trans h)
    rw [Text.lineBody_of_blank hblank]
    exact ⟨[], .refl v, .nil⟩
  · obtain ⟨span, hread⟩ := exists_reads_of_addLine h hblank hvalid
    obtain rfl := Except.ok.inj ((addLine_of_reads v hblank hread).symm.trans h)
    rw [Text.lineBody_of_ne_nil hblank]
    exact ⟨[span], checked_addSpan v _ _ span, .cons hread .nil⟩

theorem checked_addLines (h : lines.foldlM addLine v = .ok w) (hvalid : w.isValid) :
    ∃ spans, Checked spans v w ∧
      List.Forall₂ Reads (bodies (lines.map (·.1))) spans := by
  induction lines generalizing v with
  | nil =>
      cases h
      exact ⟨[], .refl _, .nil⟩
  | cons line rest ih =>
      rw [List.foldlM_cons] at h
      obtain ⟨x, hx, hrest⟩ := bind_eq_ok_iff.mp h
      obtain ⟨more, hmore, hreadMore⟩ := ih hrest
      obtain ⟨spans, hspans, hread⟩ := checked_addLine hx (hmore.isValid.mp hvalid).1
      exact ⟨spans ++ more, hspans.trans hmore, List.rel_append hread hreadMore⟩

theorem addLines_of_reads (v : Validation)
    (hreads : List.Forall₂ Reads (bodies (lines.map (·.1))) spans) :
    ∃ w, lines.foldlM addLine v = .ok w ∧ Checked spans v w := by
  induction lines generalizing v spans with
  | nil =>
      rw [List.map_nil, bodies, List.flatMap_nil, List.forall₂_nil_left_iff] at hreads
      subst hreads
      exact ⟨v, rfl, .refl v⟩
  | cons line rest ih =>
      rw [List.map_cons, bodies, List.flatMap_cons] at hreads
      rw [List.foldlM_cons]
      by_cases hblank : Text.trimChars line.1.toList = []
      · rw [Text.lineBody_of_blank hblank, List.nil_append] at hreads
        rw [addLine_of_blank v hblank]
        exact ih v hreads
      · rw [Text.lineBody_of_ne_nil hblank, List.singleton_append,
          List.forall₂_cons_left_iff] at hreads
        obtain ⟨span, more, hread, hmore, rfl⟩ := hreads
        rw [addLine_of_reads v hblank hread]
        obtain ⟨w, hw, hchecked⟩ := ih (v.addSpan [] (some line.2) span) hmore
        exact ⟨w, hw, (checked_addSpan v _ _ span).trans hchecked⟩

/-- A valid text of lines has one span for each line that is not blank. -/
theorem checked_ofLines {filePath : String} (h : ofLines filePath text = .ok w)
    (hvalid : w.isValid) :
    ∃ spans, Checked spans { filePath } w ∧
      List.Forall₂ Reads (bodies (plainLines text)) spans := by
  rw [ofLines] at h
  split at h
  · cases h
    cases hvalid
  · obtain ⟨spans, hspans, hread⟩ := checked_addLines h hvalid
    refine ⟨spans, hspans, ?_⟩
    rwa [List.zipIdx_map_fst, Text.bodies_plainLines_trim] at hread

/-- If what stands on each line is read, and some line is not blank, the values are checked. -/
theorem ofLines_of_reads (filePath : String) (hne : spans ≠ [])
    (hreads : List.Forall₂ Reads (bodies (plainLines text)) spans) :
    ∃ w, ofLines filePath text = .ok w ∧ Checked spans { filePath } w := by
  have htrimmed : String.ofList (Text.trimChars text.toList) ≠ "" := by
    intro hempty
    rw [← Text.bodies_plainLines_trim, hempty] at hreads
    exact hne (List.forall₂_nil_left_iff.mp hreads)
  rw [ofLines, if_neg htrimmed]
  apply addLines_of_reads
  rwa [List.zipIdx_map_fst, Text.bodies_plainLines_trim]

end

end TraceExplorer.Schema.Validation
