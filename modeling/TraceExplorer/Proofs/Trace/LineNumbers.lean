import TraceExplorer.Proofs.Trace.Lines

/-!
# Numbers of lines at fault

Loading names the number in the file of the first line that is not JSON. Validating reports every
such line, and every span at fault, but counts the lines from the first one that is not blank: each
line feed before it takes one off the numbers of all findings.
-/

namespace TraceExplorer.Trace

open Json (Value)
open Schema Schema.Validation
open Text (HasPlainLines bodies fullLines leadingFeeds lineBody numbered numberedBodies plainLines
  trimChars)

section

variable {h : Host} {path : Host.Path} {name text : String} {number : Nat} {v : Validation}
  {items : List Value} {lines : List String} {fault : Json.Fault}

def unread? (name : String) (p : List Char × Nat) : Option LoadFault :=
  (errorOf? (Json.read (Text.ofChars p.1))).map (.notJson name (some p.2))

/-- The first line that is not read stops loading, and its number is named. -/
theorem errorOf?_readLines (name : String) (number : Nat) (lines : List String) :
    errorOf? (readLines name number lines) =
      (numbered number (lines.map String.toList)).findSome? (unread? name) := by
  induction lines generalizing number with
  | nil => rfl
  | cons line rest ih =>
      rw [readLines, List.map_cons, numbered, List.findSome?_append, ← ih]
      by_cases hblank : trimChars line.toList = []
      · rw [if_pos ((Text.isEmpty_trim_iff line).mpr hblank), Text.lineBody_of_blank hblank]
        rfl
      · rw [if_neg (by rwa [Text.isEmpty_trim_iff]), Text.trim_ofString,
          Text.lineBody_of_ne_nil hblank, List.map_singleton, List.findSome?_singleton, unread?]
        cases Json.read (Text.ofChars (trimChars line.toList)) with
        | error fault => rfl
        | ok value => cases readLines name (number + 1) rest <;> rfl

theorem readSpan_ne_notJson {line : Option Nat} {raw : Value} :
    readSpan raw ≠ .error (.notJson name line fault) := by
  intro h
  obtain ⟨_, -, ⟨⟩⟩ := mapError_eq_error_iff.mp h

theorem ofItems_ne_notJson {line : Option Nat} :
    ofItems items ≠ .error (.notJson name line fault) := by
  intro h
  rw [ofItems] at h
  split at h
  · obtain ⟨_, _, _, -, -, h⟩ := mapM_eq_error_iff.mp h
    obtain ⟨_, _, _, -, -, h⟩ := mapM_eq_error_iff.mp h
    exact readSpan_ne_notJson h
  · obtain ⟨_, _, _, -, -, h⟩ := mapM_eq_error_iff.mp (map_eq_error_iff.mp h)
    exact readSpan_ne_notJson h

theorem ofText_eq_notJson_iff (hextension : path.extension = linesExtension) :
    ofText path text = .error (.notJson path.text (some number) fault) ↔
      ∃ before body after, numberedBodies (fullLines text) = before ++ (body, number) :: after ∧
        (∀ p ∈ before, ∃ value, Reads p.1 value) ∧
        Json.read (Text.ofChars body) = .error fault := by
  have hunread (p : List Char × Nat) :
      unread? path.text p = some (.notJson path.text (some number) fault) ↔
        p.2 = number ∧ Json.read (Text.ofChars p.1) = .error fault := by
    simp only [unread?, Option.map_eq_some_iff, errorOf?_eq_some_iff, LoadFault.notJson.injEq,
      Option.some.injEq, true_and]
    constructor
    · rintro ⟨_, hread, rfl, rfl⟩
      exact ⟨rfl, hread⟩
    · rintro ⟨rfl, hread⟩
      exact ⟨_, hread, rfl, rfl⟩
  have hreads (p : List Char × Nat) : unread? path.text p = none ↔ ∃ value, Reads p.1 value := by
    simp only [unread?, Reads]
    cases Json.read (Text.ofChars p.1) <;> simp [errorOf?]
  rw [ofText, if_pos hextension, bind_eq_error_iff]
  simp only [ofJson, ofItems_ne_notJson, and_false, exists_const, or_false]
  rw [← errorOf?_eq_some_iff, errorOf?_readLines, ← numberedBodies, List.findSome?_eq_some_iff]
  constructor
  · rintro ⟨before, ⟨body, _⟩, after, hlines, hbody, hbefore⟩
    obtain ⟨rfl, hread⟩ := (hunread _).mp hbody
    exact ⟨before, body, after, hlines, fun p hp => (hreads p).mp (hbefore p hp), hread⟩
  · rintro ⟨before, body, after, hlines, hbefore, hread⟩
    exact ⟨before, (body, number), after, hlines, (hunread _).mpr ⟨rfl, hread⟩,
      fun p hp => (hreads p).mpr (hbefore p hp)⟩

/-! ## The number of a finding -/

theorem mem_findingsOn_of_error {lines : List (List Char × Nat)} {body : List Char}
    (hmem : (body, number) ∈ lines) (hread : Json.read (Text.ofChars body) = .error fault) :
    ⟨"$", "Invalid JSON: " ++ fault.message, some number⟩ ∈ findingsOn lines := by
  refine List.mem_flatMap.mpr ⟨_, hmem,
    List.mem_map.mpr ⟨⟨"$", "Invalid JSON: " ++ fault.message, none⟩, ?_, rfl⟩⟩
  rw [findingsIn, hread]
  exact List.mem_singleton_self _

/-- Each finding in a list of lines is about one of them. -/
theorem exists_line_of_mem_findingsOn {lines : List String} {f : Finding}
    (hmem : f ∈ findingsOn (numberedBodies lines)) :
    ∃ i line found, lines[i]? = some line ∧ trimChars line.toList ≠ [] ∧
      found ∈ findingsIn (trimChars line.toList) ∧ f = found.onLine (i + 1) := by
  obtain ⟨⟨body, number⟩, hbody, hf⟩ := List.mem_flatMap.mp hmem
  obtain ⟨found, hfound, rfl⟩ := List.mem_map.mp hf
  obtain ⟨i, line, rfl, hline, rfl, hne⟩ := Text.mem_numberedBodies_iff.mp hbody
  exact ⟨i, line, found, hline, hne, hfound, rfl⟩

/-- What is found on a line further down is found on the line itself. -/
theorem exists_mem_of_movedDown {findings : List Finding} {k : Nat} {title message : String}
    (hmem : ⟨title, message, some number⟩ ∈ findings.map (·.movedDown k)) :
    ∃ m, m + k = number ∧ ⟨title, message, some m⟩ ∈ findings := by
  obtain ⟨⟨_, _, line⟩, hf, heq⟩ := List.mem_map.mp hmem
  obtain ⟨rfl, rfl, hline⟩ := Finding.mk.inj heq
  obtain ⟨m, rfl, hm⟩ := Option.map_eq_some_iff.mp hline
  exact ⟨m, hm, hf⟩

/-- The findings have the numbers of their lines only if none of them is moved. -/
theorem eq_findingsOn_iff {findings : List Finding} {k : Nat} {lines : List (List Char × Nat)}
    (hmoved : findings.map (·.movedDown k) = findingsOn lines) :
    findings = findingsOn lines ↔ k = 0 ∨ findings = [] := by
  constructor
  · intro heq
    rw [heq] at hmoved ⊢
    cases hfindings : findingsOn lines with
    | nil => exact .inr rfl
    | cons f rest =>
        have hf : f ∈ findingsOn lines := hfindings ▸ List.mem_cons_self
        obtain ⟨p, -, hp⟩ := List.mem_flatMap.mp hf
        obtain ⟨f', -, rfl⟩ := List.mem_map.mp hp
        rw [hfindings, List.map_cons] at hmoved
        have hline := congrArg Finding.line (List.cons.inj hmoved).1
        have hnumber : p.2 + k = p.2 := Option.some.inj hline
        exact .inl (by omega)
  · rintro (rfl | rfl)
    · rw [← hmoved]
      have hnone (f : Finding) : f.movedDown 0 = f := by
        obtain ⟨_, _, line⟩ := f
        cases line <;> rfl
      simp only [hnone, List.map_id']
    · exact hmoved

end

/-- Every finding in a file of lines is about a line, and has the number of this line in the file
less the line feeds before the first line that is not blank. So the findings have the numbers of
their lines exactly if there is no such line feed, or nothing is found. If the file has no line
boundaries but line feeds, loading names the number of the first line that is not JSON, and the
finding about this line has the same number, less those line feeds. -/
theorem findings_numbered_behind_blanks {h : Host} {path : Host.Path} {text : String}
    {v : Validation} (hextension : path.extension = linesExtension)
    (htext : h.readText path = .ok text)
    (hline : ∃ line ∈ plainLines text, trimChars line.toList ≠ [])
    (hv : Validation.ofFile h path = .ok v) :
    v.findings.map (·.movedDown (leadingFeeds text.toList)) =
        findingsOn (numberedBodies (plainLines text)) ∧
      (∀ f ∈ v.findings, ∃ i line found, (plainLines text)[i]? = some line ∧
        trimChars line.toList ≠ [] ∧ found ∈ findingsIn (trimChars line.toList) ∧
        f.movedDown (leadingFeeds text.toList) = found.onLine (i + 1)) ∧
      (v.findings = findingsOn (numberedBodies (plainLines text)) ↔
        leadingFeeds text.toList = 0 ∨ v.findings = []) ∧
      (HasPlainLines text.toList → ∀ number fault,
        (ofText path text = .error (.notJson path.text (some number) fault) ↔
          ∃ before body after,
            numberedBodies (plainLines text) = before ++ (body, number) :: after ∧
              (∀ p ∈ before, ∃ value, Reads p.1 value) ∧
              Json.read (Text.ofChars body) = .error fault) ∧
        (ofText path text = .error (.notJson path.text (some number) fault) →
          ∃ m, m + leadingFeeds text.toList = number ∧
            ⟨"$", "Invalid JSON: " ++ fault.message, some m⟩ ∈ v.findings)) := by
  have hne : bodies (plainLines text) ≠ [] := by
    obtain ⟨line, hmem, hbody⟩ := hline
    exact List.ne_nil_of_mem (Text.mem_bodies.mpr ⟨line, hmem, rfl, hbody⟩)
  have hmoved := (describes_of_ofFile hv).lines hextension htext hne
  have hfound (f : Finding) (hf : f ∈ v.findings) :
      f.movedDown (leadingFeeds text.toList) ∈ findingsOn (numberedBodies (plainLines text)) :=
    hmoved ▸ List.mem_map_of_mem hf
  refine ⟨hmoved, fun f hf => exists_line_of_mem_findingsOn (hfound f hf),
    eq_findingsOn_iff hmoved, fun hplain number fault => ?_⟩
  have hload : ofText path text = .error (.notJson path.text (some number) fault) ↔ _ :=
    ofText_eq_notJson_iff hextension
  rw [Text.numberedBodies_fullLines hplain] at hload
  refine ⟨hload, fun hfault => ?_⟩
  obtain ⟨before, body, after, hlines, -, hread⟩ := hload.mp hfault
  apply exists_mem_of_movedDown
  rw [hmoved, hlines]
  exact mem_findingsOn_of_error (by simp) hread

/-- A span whose id is no number on the third line, and a text that is not JSON on the fourth. -/
theorem findings_numbered_behind_blanks_of_two :
    let text := "\n \n\x7b\"traceId\":\"1\",\"id\":\"zz\"\x7d\nnot json\n"
    let misnamed := "\x7b\"traceId\":\"1\",\"id\":\"zz\"\x7d".toList
    ∃ v, onlyPath.extension = linesExtension ∧ (hostOfText text).readText onlyPath = .ok text ∧
      (∃ line ∈ plainLines text, trimChars line.toList ≠ []) ∧
      Validation.ofFile (hostOfText text) onlyPath = .ok v ∧ HasPlainLines text.toList ∧
      v.findings.map (·.movedDown 2) =
        findingsOn [(misnamed, 3), ("not json".toList, 4)] ∧
      ⟨"$", "Invalid JSON: Expecting value: line 1 column 1 (char 0)", some 2⟩ ∈ v.findings := by
  intro text misnamed
  have hextension : onlyPath.extension = linesExtension := by decide +kernel
  have htext : (hostOfText text).readText onlyPath = .ok text :=
    readText_hostOfText (by decide +kernel)
  have hplain : HasPlainLines text.toList := by decide +kernel
  have hnumbered : numberedBodies (plainLines text) = [(misnamed, 3), ("not json".toList, 4)] := by
    decide +kernel
  have hfeeds : leadingFeeds text.toList = 2 := by decide +kernel
  have hspan : Json.read (Text.ofChars "\x7b\"traceId\":\"1\",\"id\":\"zz\"\x7d".toList) =
      .ok (.object [("traceId", .text "1"), ("id", .text "zz")]) := by
    cbv
  have hword : Json.read (Text.ofChars "not json".toList) = .error (.malformed .value 1 1 0) := by
    cbv
  have hline : ∃ line ∈ plainLines text, trimChars line.toList ≠ [] := by decide +kernel
  obtain ⟨v, hv⟩ : ∃ v, Validation.ofFile (hostOfText text) onlyPath = .ok v := by
    have hnone : errorOf? (Validation.ofFile (hostOfText text) onlyPath) = none := by
      rw [errorOf?_ofFile htext, if_pos hextension, ← Text.map_fst_numberedBodies, hnumbered]
      have hall : ∀ p ∈ [(misnamed, 3), ("not json".toList, 4)], excess? p.1 = none := by
        simp only [List.forall_mem_cons, excess?, misnamed, hspan, hword, List.not_mem_nil,
          false_imp_iff, implies_true, and_self]
      rw [List.findSome?_map]
      exact List.findSome?_eq_none_iff.mpr hall
    cases hfile : Validation.ofFile (hostOfText text) onlyPath with
    | ok v => exact ⟨v, rfl⟩
    | error failure => simp [hfile, errorOf?] at hnone
  obtain ⟨hmoved, -, -, hload⟩ := findings_numbered_behind_blanks hextension htext hline hv
  have hfault : ofText onlyPath text =
      .error (.notJson onlyPath.text (some 4) (.malformed .value 1 1 0)) :=
    (hload hplain _ _).1.mpr ⟨[(misnamed, 3)], _, [], hnumbered, by simpa using ⟨_, hspan⟩, hword⟩
  obtain ⟨m, hm, hfinding⟩ := (hload hplain _ _).2 hfault
  rw [hfeeds] at hmoved hm
  obtain rfl : m = 2 := by omega
  exact ⟨v, hextension, htext, hline, hv, hplain, hnumbered ▸ hmoved, hfinding⟩

/-- A text that is not JSON behind two line feeds is on the third line, and loading says so. The
finding has the number of the first line. -/
theorem findings_ne_of_leading_feeds :
    let text := "\n\nnot json\n"
    let finding : Finding :=
      ⟨"$", "Invalid JSON: Expecting value: line 1 column 1 (char 0)", some 1⟩
    numberedBodies (plainLines text) = [("not json".toList, 3)] ∧
      Validation.ofFile (hostOfText text) onlyPath = .ok ⟨onlyPath.text, 0, [finding]⟩ ∧
      ofText onlyPath text =
        .error (.notJson onlyPath.text (some 3) (.malformed .value 1 1 0)) := by
  intro text finding
  have hread : Json.read (Text.trim "not json") = .error (.malformed .value 1 1 0) := by
    rw [Text.trim_ofString]
    cbv
  have hbodies : numberedBodies (plainLines text) = [("not json".toList, 3)] := by decide +kernel
  refine ⟨hbodies, ?_, ?_⟩
  · have htrimmed : String.ofList (trimChars text.toList) = "not json" := by decide +kernel
    have hlines : (plainLines "not json").zipIdx 1 = [("not json", 1)] := by decide +kernel
    have hword : (Text.trim "not json").isEmpty = false := by decide +kernel
    rw [ofFile_hostOfText (by decide), Validation.ofLines, htrimmed, if_neg (by decide), hlines,
      List.foldlM_cons, Validation.addLine, hread, hword]
    rfl
  · rw [ofText_eq_notJson_iff (by decide +kernel), Text.numberedBodies_fullLines (by decide),
      hbodies]
    exact ⟨[], _, [], rfl, by simp, hread⟩

end TraceExplorer.Trace
