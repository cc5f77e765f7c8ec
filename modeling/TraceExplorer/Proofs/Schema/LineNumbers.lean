import TraceExplorer.Proofs.Schema.Lines
import TraceExplorer.Proofs.Text.LineNumbers

/-!
# Findings on numbered lines

Validating lines finds on each line what is wrong with the text that stands there. The findings have
the number of the line, less the line feeds that the file starts with. Validating stops at the first
line whose text exceeds a limit of the reader, and only there.
-/

namespace TraceExplorer.Schema

open Json (Value)
open Text (bodies leadingFeeds lineBody numbered numberedBodies plainLines trimChars)

def Finding.onLine (number : Nat) (f : Finding) : Finding := { f with line := some number }

def Finding.movedDown (k : Nat) (f : Finding) : Finding := { f with line := f.line.map (· + k) }

namespace Validation

/-- The failure to read a text that exceeds a limit of the reader. -/
def excess? (body : List Char) : Option Failure :=
  match Json.read (Text.ofChars body) with
  | .error .integerTooLong => some (Json.Fault.failure .integerTooLong)
  | .error .tooDeep => some .tooDeep
  | _ => none

/-- What is wrong with a text: it is not JSON, or its value is no span. -/
def findingsIn (body : List Char) : List Finding :=
  match Json.read (Text.ofChars body) with
  | .ok span => (ofSpan span).findings
  | .error fault => [⟨"$", "Invalid JSON: " ++ fault.message, none⟩]

def findingsOn (lines : List (List Char × Nat)) : List Finding :=
  lines.flatMap fun p => (findingsIn p.1).map (·.onLine p.2)

section

variable {v w : Validation} {line : String × Nat} {filePath text : String} {failure : Failure}
  {body : List Char} {number : Nat} {lines : List String}

theorem findings_addSpan_onLine (v : Validation) (number : Nat) (span : Value) :
    (v.addSpan [] (some number) span).findings =
      v.findings ++ (ofSpan span).findings.map (·.onLine number) := by
  simp only [addSpan, ofSpan, List.nil_append, List.map_map]
  rfl

/-- What comes of a line that is not blank. -/
theorem addLine_of_ne_nil (v : Validation) (hne : trimChars line.1.toList ≠ []) :
    errorOf? (v.addLine line) = excess? (trimChars line.1.toList) ∧
      ∀ w, v.addLine line = .ok w → w.findings =
        v.findings ++ (findingsIn (trimChars line.1.toList)).map (·.onLine line.2) := by
  rw [addLine, if_neg (by rwa [Text.isEmpty_trim_iff]), Text.trim_ofString, excess?, findingsIn]
  cases Json.read (Text.ofChars (trimChars line.1.toList)) with
  | ok span =>
      refine ⟨rfl, ?_⟩
      rintro _ ⟨⟩
      exact findings_addSpan_onLine v line.2 span
  | error fault =>
      cases fault with
      | malformed expected row column offset =>
          refine ⟨rfl, ?_⟩
          rintro _ ⟨⟩
          rfl
      | integerTooLong => exact ⟨rfl, fun _ h => by cases h⟩
      | tooDeep => exact ⟨rfl, fun _ h => by cases h⟩

theorem errorOf?_addLine (v : Validation) (line : String × Nat) :
    errorOf? (v.addLine line) = (lineBody line.1.toList).findSome? excess? := by
  by_cases hblank : trimChars line.1.toList = []
  · rw [addLine_of_blank v hblank, Text.lineBody_of_blank hblank]
    rfl
  · rw [(addLine_of_ne_nil v hblank).1, Text.lineBody_of_ne_nil hblank, List.findSome?_singleton]

theorem findings_addLine (h : v.addLine line = .ok w) :
    w.findings = v.findings ++ findingsOn ((lineBody line.1.toList).map (·, line.2)) := by
  by_cases hblank : trimChars line.1.toList = []
  · rw [addLine_of_blank v hblank] at h
    obtain rfl := Except.ok.inj h
    rw [Text.lineBody_of_blank hblank]
    exact (List.append_nil _).symm
  · rw [(addLine_of_ne_nil v hblank).2 w h, Text.lineBody_of_ne_nil hblank, findingsOn,
      List.map_singleton, List.flatMap_singleton]

/-! ## Runs over lines -/

/-- The first text that exceeds a limit stops the run. -/
theorem errorOf?_addLines (v : Validation) (lines : List (String × Nat)) :
    errorOf? (lines.foldlM addLine v) = (bodies (lines.map (·.1))).findSome? excess? := by
  induction lines generalizing v with
  | nil => rfl
  | cons line rest ih =>
      rw [List.foldlM_cons, errorOf?_bind ih, errorOf?_addLine, ← List.findSome?_append]
      rfl

theorem findings_addLines (h : (lines.zipIdx number).foldlM addLine v = .ok w) :
    w.findings = v.findings ++ findingsOn (numbered number (lines.map String.toList)) := by
  induction lines generalizing number v with
  | nil =>
      obtain rfl := Except.ok.inj h
      exact (List.append_nil _).symm
  | cons line rest ih =>
      rw [List.zipIdx_cons, List.foldlM_cons] at h
      obtain ⟨x, hx, hrest⟩ := bind_eq_ok_iff.mp h
      rw [ih hrest, findings_addLine hx, List.append_assoc, List.map_cons, numbered, findingsOn,
        findingsOn, findingsOn, List.flatMap_append]

/-! ## Texts of lines -/

theorem movedDown_onLine (k number : Nat) (f : Finding) :
    (f.onLine number).movedDown k = f.onLine (number + k) := rfl

theorem map_movedDown_findingsOn (k : Nat) (lines : List (List Char × Nat)) :
    (findingsOn lines).map (·.movedDown k) =
      findingsOn (lines.map fun p => (p.1, p.2 + k)) := by
  simp only [findingsOn, List.map_flatMap, List.flatMap_map, List.map_map, Function.comp_def,
    movedDown_onLine]

theorem bodies_plainLines_eq_nil_iff :
    bodies (plainLines text) = [] ↔ String.ofList (trimChars text.toList) = "" := by
  constructor
  · intro h
    by_contra hne
    have htrim : trimChars text.toList ≠ [] := by
      intro hnil
      rw [hnil] at hne
      exact hne rfl
    obtain ⟨c, hc, hblank⟩ : ∃ c ∈ text.toList, Text.isBlank c = false := by
      by_contra hall
      push Not at hall
      exact htrim (Text.trimBy_eq_nil_iff.mpr fun c hc => by simpa using hall c hc)
    have hfeed : c ≠ '\n' := by
      rintro rfl
      cases hblank
    obtain ⟨part, hpart, hmem⟩ := Text.exists_mem_splitAtChar hc hfeed
    have hbody : trimChars part ∈ bodies (plainLines text) := by
      refine Text.mem_bodies.mpr ⟨String.ofList part, List.mem_map_of_mem hpart, ?_, ?_⟩
      · rw [String.toList_ofList]
      · intro hnil
        have := Text.trimBy_eq_nil_iff.mp hnil c hmem
        rw [hblank] at this
        cases this
    rw [h] at hbody
    cases hbody
  · intro h
    rw [← Text.bodies_plainLines_trim, h]
    rfl

theorem errorOf?_ofLines (filePath text : String) :
    errorOf? (ofLines filePath text) = (bodies (plainLines text)).findSome? excess? := by
  rw [ofLines]
  split
  · rename_i hempty
    rw [bodies_plainLines_eq_nil_iff.mpr hempty]
    rfl
  · rw [errorOf?_addLines, List.zipIdx_map_fst, Text.bodies_plainLines_trim]

/-- Moved down by the line feeds that the text starts with, the findings have the numbers of the
lines that they are about. -/
theorem findings_ofLines (hne : bodies (plainLines text) ≠ []) (h : ofLines filePath text = .ok v) :
    v.findings.map (·.movedDown (leadingFeeds text.toList)) =
      findingsOn (numberedBodies (plainLines text)) := by
  rw [ofLines, if_neg (mt bodies_plainLines_eq_nil_iff.mpr hne)] at h
  rw [findings_addLines h, List.nil_append, map_movedDown_findingsOn, ← numberedBodies,
    Text.numberedBodies_plainLines_trim]

end

end Validation

end TraceExplorer.Schema
