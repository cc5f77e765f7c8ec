import TraceExplorer.Proofs.Json.Reading
import TraceExplorer.Proofs.Schema.Files
import TraceExplorer.Proofs.Trace.Loading

/-!
# Loading validated lines

Validation cuts a file of lines at line feeds, loading at every line boundary. JSON texts can hold
three line boundaries that are no line feeds: U+0085, U+2028 and U+2029 inside a string. A valid
file without them is loaded with all of its spans. In a line with one of them the loader meets a
start of an object that is no JSON text, so nothing is loaded.
-/

namespace TraceExplorer.Trace

open Json (Value)
open Schema Schema.Validation
open Text (bodies fullLines isLineBoundary plainLines trimChars)

/-- A line boundary that can stand in a JSON string as it is. -/
def isWideBoundary (c : Char) : Bool :=
  c.toNat == 0x85 || c.toNat == 0x2028 || c.toNat == 0x2029

/-- A line that holds a wide line boundary, not counting blanks at its ends. -/
def IsBroken (line : String) : Prop := ∃ c ∈ trimChars line.toList, isWideBoundary c

section

variable {h : Host} {path : Host.Path} {name text : String} {number : Nat} {v : Validation}
  {lines : List String} {items spans : List Value} {body : List Char} {value : Value} {c : Char}
  {traces : List (List Span)}

/-! ## Reading lines -/

theorem readLines_eq_ok_iff :
    readLines name number lines = .ok items ↔ List.Forall₂ Reads (bodies lines) items := by
  induction lines generalizing number items with
  | nil =>
      rw [readLines, bodies, List.flatMap_nil, List.forall₂_nil_left_iff, Except.ok.injEq, eq_comm]
  | cons line rest ih =>
      rw [readLines, bodies, List.flatMap_cons, ← bodies]
      by_cases hblank : trimChars line.toList = []
      · rw [if_pos ((Text.isEmpty_trim_iff line).mpr hblank), Text.lineBody_of_blank hblank,
          List.nil_append, ← ih]
      · rw [if_neg (by rwa [Text.isEmpty_trim_iff]), Text.trim_ofString,
          Text.lineBody_of_ne_nil hblank, List.singleton_append]
        cases hread : Json.read (Text.ofChars (trimChars line.toList)) with
        | error fault =>
            simp [List.forall₂_cons_left_iff, Reads, hread]
        | ok value =>
            have hrest (more : List Value) :
                List.Forall₂ Reads (bodies rest) more ↔
                  readLines name (number + 1) rest = .ok more := ih.symm
            simp only [List.forall₂_cons_left_iff, Reads, hread, Except.ok.injEq, hrest]
            cases readLines name (number + 1) rest with
            | error fault => simp [Except.map]
            | ok more => simp [Except.map, eq_comm]

theorem loadAll_eq_ok_iff (hextension : path.extension = linesExtension)
    (htext : h.readText path = .ok text) :
    loadAll h path = .ok traces ↔
      ∃ items, List.Forall₂ Reads (bodies (fullLines text)) items ∧
        ofItems items = .ok traces := by
  have hitems (items : List Value) :
      List.Forall₂ Reads (bodies (fullLines text)) items ↔
        readLines path.text 1 (fullLines text) = .ok items := readLines_eq_ok_iff.symm
  have hread : loadAll h path = (ofText path text).mapError (·.failure) := by
    rw [loadAll, htext]
    rfl
  rw [hread, ofText, if_pos hextension]
  simp only [hitems]
  cases readLines path.text 1 (fullLines text) with
  | error fault => simp [bind, Except.bind, Except.mapError]
  | ok items =>
      simp only [bind, Except.bind, ofJson, Except.ok.injEq, exists_eq_left']
      cases ofItems items with
      | error fault => simp [Except.mapError]
      | ok traces => simp [Except.mapError]

theorem exists_readText_of_isValid (hextension : path.extension = linesExtension)
    (hv : Validation.ofFile h path = .ok v) (hvalid : v.isValid) :
    ∃ text, h.readText path = .ok text ∧ Validation.ofLines path.text text = .ok v := by
  rw [Validation.ofFile] at hv
  obtain ⟨isThere, -, hv⟩ := bind_eq_ok_iff.mp hv
  split at hv
  · obtain rfl := Except.ok.inj hv
    cases hvalid
  · split at hv
    · obtain rfl := Except.ok.inj hv
      cases hvalid
    · cases hv
    · rename_i text htext
      have hname : path.extension = ".jsonl" := hextension
      rw [if_pos hname] at hv
      exact ⟨text, htext, hv⟩

theorem not_mem_of_readText (htext : h.readText path = .ok text) : '\r' ∉ text.toList := by
  rw [Host.readText] at htext
  split at htext
  on_goal 6 =>
    split at htext
    · cases htext
    · obtain rfl := Except.ok.inj htext
      rw [String.toList_ofList]
      exact Text.not_mem_unifyLineEnds _
  all_goals cases htext

theorem exists_reads_of_mem {all : List (List Char)} (hreads : List.Forall₂ Reads all spans)
    (hbody : body ∈ all) : ∃ value ∈ spans, Reads body value := by
  induction hreads with
  | nil => cases hbody
  | cons hread _ ih =>
      rcases List.mem_cons.mp hbody with rfl | hbody
      · exact ⟨_, List.mem_cons_self, hread⟩
      · obtain ⟨value, hvalue, hread⟩ := ih hbody
        exact ⟨value, List.mem_cons_of_mem _ hvalue, hread⟩

/-- Items that are all spans are as many spans. -/
theorem exists_ofItems_of_passes (hpasses : ∀ v ∈ items, Passes spanSchema v) :
    ∃ traces, ofItems items = .ok traces ∧ spanTotal traces = items.length := by
  have hnone : ∀ v ∈ items, items? v = none := by
    intro v hv
    obtain ⟨fields, rfl⟩ := Span.exists_fields_of_passes (hpasses v hv)
    rfl
  have hspans := flatMap_spansOfItem_single hnone
  have hmixed : ¬ IsMixed (.list items) := by
    rintro ⟨items', heq, ⟨trace, htrace⟩, -⟩
    obtain rfl := Value.list.inj heq
    cases hnone _ htrace
  obtain ⟨traces, htraces, htotal⟩ := exists_ofItems (by rwa [hspans]) hmixed
  exact ⟨traces, htraces, by rw [htotal, hspans]⟩

/-! ## What stands on plain lines -/

theorem isLineBoundary_of_isWideBoundary (hc : isWideBoundary c) : isLineBoundary c := by
  simp only [isWideBoundary, Bool.or_eq_true, beq_iff_eq] at hc
  simp only [isLineBoundary, Bool.or_eq_true, Bool.and_eq_true, decide_eq_true_eq, beq_iff_eq]
  omega

theorem isBlank_of_isSpace (hc : Json.isSpace c) : Text.isBlank c := by
  simp only [Json.isSpace, Bool.or_eq_true, decide_eq_true_eq] at hc
  rcases hc with ((rfl | rfl) | rfl) | rfl <;> decide

theorem exists_isBroken_iff :
    (∃ line ∈ lines, IsBroken line) ↔ ∃ body ∈ bodies lines, ∃ c ∈ body, isWideBoundary c := by
  constructor
  · rintro ⟨line, hline, c, hc, hwide⟩
    have hbody : trimChars line.toList ∈ bodies lines :=
      Text.mem_bodies.mpr ⟨line, hline, rfl, List.ne_nil_of_mem hc⟩
    exact ⟨_, hbody, c, hc, hwide⟩
  · rintro ⟨body, hbody, c, hc, hwide⟩
    obtain ⟨line, hline, rfl, -⟩ := Text.mem_bodies.mp hbody
    exact ⟨line, hline, c, hc, hwide⟩

/-- The line boundaries in what stands on a line are wide if it is read as JSON. -/
theorem isWideBoundary_of_reads (hr : '\r' ∉ text.toList)
    (hbody : body ∈ bodies (plainLines text)) (hreads : Reads body value) (hc : c ∈ body)
    (hboundary : isLineBoundary c) : isWideBoundary c := by
  obtain ⟨line, hline, rfl, -⟩ := Text.mem_bodies.mp hbody
  obtain ⟨part, hpart, rfl⟩ := List.mem_map.mp hline
  rw [String.toList_ofList] at hc hreads
  obtain ⟨htext, hfeed⟩ := Text.mem_of_mem_splitAtChar hpart (Text.trimBy_subset _ _ hc)
  have hpermitted := Json.permitted_of_read hreads (.char c) (List.mem_map_of_mem hc)
  have hprintable : 0x20 ≤ c.toNat := by
    refine hpermitted.resolve_left fun hspace => ?_
    simp only [CodePoint.isChar, Json.isSpace, Bool.or_eq_true, decide_eq_true_eq] at hspace
    rcases hspace with ((rfl | rfl) | rfl) | rfl
    · cases hboundary
    · cases hboundary
    · exact hfeed rfl
    · exact hr htext
  simp only [isLineBoundary, Bool.or_eq_true, Bool.and_eq_true, decide_eq_true_eq,
    beq_iff_eq] at hboundary
  simp only [isWideBoundary, Bool.or_eq_true, beq_iff_eq]
  omega

theorem not_isSpace_of_not_isBlank (hc : Text.isBlank c = false) : ¬ Json.isSpace c := by
  intro hspace
  rw [isBlank_of_isSpace hspace] at hc
  cases hc

/-- A start of a line that holds an object is not read. -/
theorem not_reads_of_start {start after : List Char} {fields : List (Text × Value)}
    (hreads : Reads (start ++ after) (.object fields))
    (htrimmed : Text.Trimmed Text.isBlank (start ++ after)) (hstart : start ≠ [])
    (hafter : after ≠ []) : ¬ Reads start value := by
  intro hread
  obtain ⟨a, start, rfl⟩ := List.exists_cons_of_ne_nil hstart
  have hfirst : ¬ Json.isSpace a := not_isSpace_of_not_isBlank (htrimmed.first a rfl)
  have hbrace : (Text.ofChars (a :: start ++ after)).points.head? = some (.char '\x7b') :=
    Json.head?_of_read_object hreads (by rintro c ⟨⟩; exact hfirst)
  have hstartBrace : (Text.ofChars (a :: start)).points.head? = some (.char '\x7b') := hbrace
  have hwhole : Json.read ⟨(Text.ofChars (a :: start)).points ++ after.map CodePoint.char⟩ =
      .ok (.object fields) := by
    rw [Reads, Text.ofChars, List.map_append] at hreads
    exact hreads
  -- reading stopped at the end of the start, so only white space can be left
  have hspaces := List.dropWhile_eq_nil_iff.mp
    (Json.skipSpace_of_read_append hstartBrace hread hwhole)
  obtain ⟨z, hz⟩ := Option.isSome_iff_exists.mp (List.getLast?_isSome.mpr hafter)
  have hlast : ¬ Json.isSpace z := by
    apply not_isSpace_of_not_isBlank
    apply htrimmed.last
    rw [List.getLast?_append, hz]
    rfl
  exact hlast (hspaces _ (List.mem_map_of_mem (List.mem_of_getLast? hz)))

theorem exists_not_reads_of_broken (hbody : body ∈ bodies (plainLines text))
    (hreads : Reads body value) (hpasses : Passes spanSchema value) (hc : c ∈ body)
    (hboundary : isLineBoundary c) :
    ∃ start ∈ bodies (fullLines text), ∀ v, ¬ Reads start v := by
  have htrimmed := Text.trimmed_of_mem_bodies hbody
  obtain ⟨start, after, hstart, hne, hafter, rfl⟩ := Text.exists_lineBody_of_cut
    (fun _ => Text.isBlank_of_isLineBoundary) htrimmed hc hboundary
  obtain ⟨fields, rfl⟩ := Span.exists_fields_of_passes hpasses
  refine ⟨start, ?_, fun v => not_reads_of_start hreads htrimmed hne hafter⟩
  rw [← Text.flatMap_bodies_plainLines]
  exact List.mem_flatMap_of_mem hbody hstart

/-- If no line is broken, the values on the lines are loaded. -/
theorem exists_loadAll_of_unbroken (hextension : path.extension = linesExtension)
    (htext : h.readText path = .ok text)
    (hreads : List.Forall₂ Reads (bodies (plainLines text)) spans)
    (hpasses : ∀ v ∈ spans, Passes spanSchema v)
    (hunbroken : ¬ ∃ line ∈ plainLines text, IsBroken line) :
    ∃ traces, loadAll h path = .ok traces ∧ spanTotal traces = spans.length := by
  have hsame : bodies (fullLines text) = bodies (plainLines text) := by
    apply Text.bodies_fullLines_of_uncut
    intro body hbody c hc hboundary
    obtain ⟨value, -, hread⟩ := exists_reads_of_mem hreads hbody
    have hwide := isWideBoundary_of_reads (not_mem_of_readText htext) hbody hread hc hboundary
    exact hunbroken (exists_isBroken_iff.mpr ⟨body, hbody, c, hc, hwide⟩)
  obtain ⟨traces, htraces, htotal⟩ := exists_ofItems_of_passes hpasses
  refine ⟨traces, (loadAll_eq_ok_iff hextension htext).mpr ⟨spans, ?_, htraces⟩, htotal⟩
  rwa [hsame]

/-- If a line is broken, nothing is loaded. -/
theorem loadAll_ne_ok_of_broken (hextension : path.extension = linesExtension)
    (htext : h.readText path = .ok text)
    (hreads : List.Forall₂ Reads (bodies (plainLines text)) spans)
    (hpasses : ∀ v ∈ spans, Passes spanSchema v)
    (hbroken : ∃ line ∈ plainLines text, IsBroken line) : loadAll h path ≠ .ok traces := by
  intro hload
  obtain ⟨body, hbody, c, hc, hwide⟩ := exists_isBroken_iff.mp hbroken
  obtain ⟨value, hvalue, hread⟩ := exists_reads_of_mem hreads hbody
  obtain ⟨start, hstart, hunread⟩ := exists_not_reads_of_broken hbody hread
    (hpasses value hvalue) hc (isLineBoundary_of_isWideBoundary hwide)
  obtain ⟨items, hitems, -⟩ := (loadAll_eq_ok_iff hextension htext).mp hload
  obtain ⟨v, -, hv⟩ := exists_reads_of_mem hitems hstart
  exact hunread v hv

/-! ## A file of lines -/

def onlyPath : Host.Path := ⟨"", ["spans.jsonl"]⟩

def hostOfText (text : String) : Host := { entries := [(onlyPath.names, .file text.toUTF8)] }

theorem lookup_hostOfText (text : String) :
    (hostOfText text).lookup onlyPath = .found (.file text.toUTF8) :=
  Host.lookup_of_entry (by decide) (by decide) (by decide) (by decide) rfl rfl

/-- Every text without carriage returns is what some file holds. -/
theorem readText_hostOfText (hr : '\r' ∉ text.toList) :
    (hostOfText text).readText onlyPath = .ok text :=
  Host.readText_of_toUTF8 (lookup_hostOfText text) hr

theorem ofFile_hostOfText (hr : '\r' ∉ text.toList) :
    Validation.ofFile (hostOfText text) onlyPath = Validation.ofLines onlyPath.text text := by
  rw [ofFile_of_readText (readText_hostOfText hr), if_pos (by decide +kernel)]

end

/-- A file of lines that passes validation is loaded with all the spans that were counted, unless a
line is broken: then it is not loaded. -/
theorem loadAll_of_isValid_lines {h : Host} {path : Host.Path} {v : Validation}
    (hextension : path.extension = linesExtension) (hv : Validation.ofFile h path = .ok v)
    (hvalid : v.isValid) :
    ∃ text, h.readText path = .ok text ∧
      ((¬ ∃ line ∈ plainLines text, IsBroken line) →
        ∃ traces, loadAll h path = .ok traces ∧ spanTotal traces = v.spanCount) ∧
      ((∃ line ∈ plainLines text, IsBroken line) →
        ∃ failure, loadAll h path = .error failure) := by
  obtain ⟨text, htext, hlines⟩ := exists_readText_of_isValid hextension hv hvalid
  obtain ⟨spans, hchecked, hreads⟩ := checked_ofLines hlines hvalid
  have hpasses := (hchecked.isValid.mp hvalid).2
  have hcount : v.spanCount = spans.length := by rw [hchecked.spanCount, Nat.zero_add]
  refine ⟨text, htext, fun hunbroken => ?_, fun hbroken => ?_⟩
  · rw [hcount]
    exact exists_loadAll_of_unbroken hextension htext hreads hpasses hunbroken
  · cases hload : loadAll h path with
    | error failure => exact ⟨failure, rfl⟩
    | ok traces =>
        exact absurd hload (loadAll_ne_ok_of_broken hextension htext hreads hpasses hbroken)

/-- Two spans on lines with a blank line between them. -/
theorem loadAll_of_isValid_lines_of_two :
    ∃ (h : Host) (path : Host.Path) (v : Validation), path.extension = linesExtension ∧
      Validation.ofFile h path = .ok v ∧ v.isValid ∧ v.spanCount = 2 ∧
      ∃ traces, loadAll h path = .ok traces ∧ spanTotal traces = 2 := by
  let text := "\x7b\"traceId\":\"1\",\"id\":\"1\"\x7d\n \n\x7b\"traceId\":\"1\",\"id\":\"2\"\x7d\n"
  have hextension : onlyPath.extension = linesExtension := by decide +kernel
  have hr : '\r' ∉ text.toList := by decide
  have hbodies : bodies (plainLines text) =
      ["\x7b\"traceId\":\"1\",\"id\":\"1\"\x7d".toList,
        "\x7b\"traceId\":\"1\",\"id\":\"2\"\x7d".toList] := by
    decide +kernel
  have hreads : List.Forall₂ Reads (bodies (plainLines text))
      [.object [("traceId", .text "1"), ("id", .text "1")],
        .object [("traceId", .text "1"), ("id", .text "2")]] := by
    rw [hbodies]
    refine .cons ?_ (.cons ?_ .nil) <;>
    · unfold Reads
      cbv
  have hunbroken : ¬ ∃ line ∈ plainLines text, IsBroken line := by
    rw [exists_isBroken_iff, hbodies]
    simp [isWideBoundary]
  obtain ⟨v, hv, hchecked⟩ := ofLines_of_reads onlyPath.text (by simp) hreads
  rw [← ofFile_hostOfText hr] at hv
  have hvalid : v.isValid := hchecked.isValid.mpr ⟨rfl, by decide +kernel⟩
  obtain ⟨text', htext', hload, -⟩ := loadAll_of_isValid_lines hextension hv hvalid
  obtain rfl : text = text' := Except.ok.inj ((readText_hostOfText hr).symm.trans htext')
  obtain ⟨traces, htraces, htotal⟩ := hload hunbroken
  have hcount : v.spanCount = 2 := hchecked.spanCount
  exact ⟨_, _, v, hextension, hv, hvalid, hcount, traces, htraces, htotal.trans hcount⟩

/-- A span with a line separator inside its name passes validation, but is not loaded. -/
theorem loadAll_ne_ok_of_separator :
    ∃ (h : Host) (path : Host.Path) (v : Validation), path.extension = linesExtension ∧
      Validation.ofFile h path = .ok v ∧ v.isValid ∧ ∀ traces, loadAll h path ≠ .ok traces := by
  let text := "\x7b\"traceId\":\"1\",\"id\":\"1\",\"name\":\"a\u2028b\"\x7d\n"
  have hextension : onlyPath.extension = linesExtension := by decide +kernel
  have hr : '\r' ∉ text.toList := by decide
  have hbodies : bodies (plainLines text) =
      ["\x7b\"traceId\":\"1\",\"id\":\"1\",\"name\":\"a\u2028b\"\x7d".toList] := by
    decide +kernel
  have hreads : List.Forall₂ Reads (bodies (plainLines text))
      [.object [("traceId", .text "1"), ("id", .text "1"), ("name", .text "a\u2028b")]] := by
    rw [hbodies]
    refine .cons ?_ .nil
    unfold Reads
    cbv
  have hbroken : ∃ line ∈ plainLines text, IsBroken line := by
    rw [exists_isBroken_iff, hbodies]
    simp [isWideBoundary]
  have hpasses : ∀ v ∈ [Value.object [("traceId", .text "1"), ("id", .text "1"),
      ("name", .text "a\u2028b")]], Passes spanSchema v := by decide +kernel
  obtain ⟨v, hv, hchecked⟩ := ofLines_of_reads onlyPath.text (by simp) hreads
  rw [← ofFile_hostOfText hr] at hv
  refine ⟨_, _, v, hextension, hv, hchecked.isValid.mpr ⟨rfl, hpasses⟩, fun traces => ?_⟩
  exact loadAll_ne_ok_of_broken hextension (readText_hostOfText hr) hreads hpasses hbroken

end TraceExplorer.Trace
