import TraceExplorer.Proofs.Host.Reading
import TraceExplorer.Proofs.Json.Limits
import TraceExplorer.Proofs.Schema.LineNumbers
import TraceExplorer.Trace.Loader

/-!
# Validating files

Validating what a path leads to gives a result whose findings describe what is wrong, unless the
path is too long, the file is no text, or a JSON text in it exceeds a limit of the reader.
-/

namespace TraceExplorer.Schema.Validation

open Json (Value)
open Text (bodies leadingFeeds numberedBodies plainLines)
open Trace (linesExtension)

/-- How validating a path fails. In a file of lines the first text beyond a limit decides. -/
inductive Escapes (h : Host) (path : Host.Path) : Failure → Prop where
  | path (hpath : h.lookup path = .tooLong) : Escapes h path (.nameTooLong path.text)
  | bytes {bytes : ByteArray} (hpath : h.lookup path = .found (.file bytes))
      (hbytes : ¬ bytes.IsValidUTF8) : Escapes h path .notText
  | document {text : String} {failure : Failure} (hextension : path.extension ≠ linesExtension)
      (htext : h.readText path = .ok text) (hexcess : excess? text.toList = some failure) :
      Escapes h path failure
  | line {text : String} {before after : List (List Char)} {body : List Char} {failure : Failure}
      (hextension : path.extension = linesExtension) (htext : h.readText path = .ok text)
      (hlines : bodies (plainLines text) = before ++ body :: after)
      (hbefore : ∀ earlier ∈ before, excess? earlier = none)
      (hexcess : excess? body = some failure) : Escapes h path failure

def FindsOnly (v : Validation) (message : String) (line : Option Nat := none) : Prop :=
  v.findings = [⟨"$", message, line⟩]

/-- The findings of a result describe what is wrong with what a path leads to. -/
structure Describes (h : Host) (path : Host.Path) (v : Validation) : Prop where
  missing : h.pathExists path = .ok false → v.FindsOnly ("File not found: " ++ path.text)
  directory : h.lookup path = .found .directory →
    v.FindsOnly ("Cannot read file: " ++ Failure.directoryText path.text)
  notJson {text : String} {fault : Json.Fault} : path.extension ≠ linesExtension →
    h.readText path = .ok text → Json.read text = .error fault →
      v.FindsOnly ("Invalid JSON: " ++ fault.message)
  document {text : String} {value : Value} : path.extension ≠ linesExtension →
    h.readText path = .ok text → Json.read text = .ok value → v = ofJson path.text value
  blank {text : String} : path.extension = linesExtension → h.readText path = .ok text →
    bodies (plainLines text) = [] → v.FindsOnly "Trace file is empty" (some 0)
  lines {text : String} : path.extension = linesExtension → h.readText path = .ok text →
    bodies (plainLines text) ≠ [] →
      v.findings.map (·.movedDown (leadingFeeds text.toList)) =
        findingsOn (numberedBodies (plainLines text))

section

variable {h : Host} {path : Host.Path} {text : String} {failure : Failure} {v : Validation}

theorem ofFile_of_readText (htext : h.readText path = .ok text) :
    ofFile h path =
      if path.extension = linesExtension then ofLines path.text text
      else ofText path.text text := by
  rw [ofFile, Host.pathExists_of_readText htext, htext]
  rfl

theorem errorOf?_ofText (filePath text : String) :
    errorOf? (ofText filePath text) = excess? text.toList := by
  have htext : Text.ofChars text.toList = (text : Text) := rfl
  rw [ofText, excess?, htext]
  cases Json.read (text : Text) with
  | ok value => rfl
  | error fault => cases fault <;> rfl

/-- Of a text that is read, only a limit of the reader makes validating fail. -/
theorem errorOf?_ofFile (htext : h.readText path = .ok text) :
    errorOf? (ofFile h path) =
      if path.extension = linesExtension then (bodies (plainLines text)).findSome? excess?
      else excess? text.toList := by
  rw [ofFile_of_readText htext]
  split
  · exact errorOf?_ofLines _ _
  · exact errorOf?_ofText _ _

/-! ## What keeps a file from being validated -/

theorem ofFile_of_missing (hpath : h.pathExists path = .ok false) :
    ofFile h path = .ok (ofFault path.text ("File not found: " ++ path.text)) := by
  rw [ofFile, hpath]
  rfl

theorem ofFile_of_directory (hpath : h.lookup path = .found .directory) :
    ofFile h path =
      .ok (ofFault path.text ("Cannot read file: " ++ Failure.directoryText path.text)) := by
  rw [ofFile, Host.pathExists, Host.readText, hpath]
  rfl

theorem Escapes.ofFile_eq (hescapes : Escapes h path failure) :
    ofFile h path = .error failure := by
  cases hescapes with
  | path hpath =>
      rw [ofFile, Host.pathExists, hpath]
      rfl
  | bytes hpath hbytes =>
      obtain ⟨hread, -⟩ | ⟨text, -, hvalid⟩ := Host.readText_of_lookup hpath
      · rw [ofFile, Host.pathExists, hpath, hread]
        rfl
      · exact absurd hvalid hbytes
  | document hextension htext hexcess =>
      rw [← errorOf?_eq_some_iff, errorOf?_ofFile htext, if_neg hextension, hexcess]
  | line hextension htext hlines hbefore hexcess =>
      rw [← errorOf?_eq_some_iff, errorOf?_ofFile htext, if_pos hextension, hlines,
        List.findSome?_append, List.findSome?_eq_none_iff.mpr hbefore, List.findSome?_cons, hexcess]
      rfl

theorem escapes_of_excess (htext : h.readText path = .ok text)
    (hfailure : ofFile h path = .error failure) : Escapes h path failure := by
  rw [← errorOf?_eq_some_iff, errorOf?_ofFile htext] at hfailure
  split at hfailure
  · rename_i hextension
    obtain ⟨before, body, after, hlines, hexcess, hbefore⟩ :=
      List.findSome?_eq_some_iff.mp hfailure
    exact .line hextension htext hlines hbefore hexcess
  · rename_i hextension
    exact .document hextension htext hfailure

/-- Each kind of thing that a path can lead to. -/
theorem ofFile_cases (h : Host) (path : Host.Path) :
    (h.pathExists path = .ok false) ∨ h.lookup path = .found .directory ∨
      (∃ failure, Escapes h path failure) ∨ ∃ text, h.readText path = .ok text := by
  cases hpath : h.lookup path with
  | missing | notADirectory | unaddressable =>
      left
      rw [Host.pathExists, hpath]
  | tooLong => exact .inr (.inr (.inl ⟨_, .path hpath⟩))
  | found entry =>
      cases entry with
      | directory => exact .inr (.inl rfl)
      | file bytes =>
          obtain ⟨-, hbytes⟩ | ⟨text, htext, -⟩ := Host.readText_of_lookup hpath
          · exact .inr (.inr (.inl ⟨_, .bytes hpath hbytes⟩))
          · exact .inr (.inr (.inr ⟨text, htext⟩))

theorem escapes_of_ofFile (hfailure : ofFile h path = .error failure) : Escapes h path failure := by
  obtain hpath | hpath | ⟨_, hescapes⟩ | ⟨text, htext⟩ := ofFile_cases h path
  · cases (ofFile_of_missing hpath).symm.trans hfailure
  · cases (ofFile_of_directory hpath).symm.trans hfailure
  · cases hescapes.ofFile_eq.symm.trans hfailure
    exact hescapes
  · exact escapes_of_excess htext hfailure

/-! ## What a result says -/

theorem findsOnly_of_error {fault : Json.Fault} (hread : Json.read text = .error fault)
    (hv : ofText path.text text = .ok v) : v.FindsOnly ("Invalid JSON: " ++ fault.message) := by
  rw [ofText, hread] at hv
  cases fault with
  | malformed expected line column offset =>
      obtain rfl := Except.ok.inj hv
      rfl
  | integerTooLong => cases hv
  | tooDeep => cases hv

theorem eq_ofJson_of_read {value : Value} (hread : Json.read text = .ok value)
    (hv : ofText path.text text = .ok v) : v = ofJson path.text value := by
  rw [ofText, hread] at hv
  exact (Except.ok.inj hv).symm

theorem findsOnly_of_blank (hblank : bodies (plainLines text) = [])
    (hv : ofLines path.text text = .ok v) : v.FindsOnly "Trace file is empty" (some 0) := by
  rw [ofLines, if_pos (bodies_plainLines_eq_nil_iff.mp hblank)] at hv
  obtain rfl := Except.ok.inj hv
  rfl

theorem describes_of_ofFile (hv : ofFile h path = .ok v) : Describes h path v where
  missing hpath := by
    obtain rfl := Except.ok.inj ((ofFile_of_missing hpath).symm.trans hv)
    rfl
  directory hpath := by
    obtain rfl := Except.ok.inj ((ofFile_of_directory hpath).symm.trans hv)
    rfl
  notJson hextension htext hread := by
    rw [ofFile_of_readText htext, if_neg hextension] at hv
    exact findsOnly_of_error hread hv
  document hextension htext hread := by
    rw [ofFile_of_readText htext, if_neg hextension] at hv
    exact eq_ofJson_of_read hread hv
  blank hextension htext hblank := by
    rw [ofFile_of_readText htext, if_pos hextension] at hv
    exact findsOnly_of_blank hblank hv
  lines hextension htext hne := by
    rw [ofFile_of_readText htext, if_pos hextension] at hv
    exact findings_ofLines hne hv

end

/-- Validating gives a result that describes what is wrong with what a path leads to, exactly if it
does not escape. -/
theorem ofFile_describes_or_escapes (h : Host) (path : Host.Path) :
    ((∃ v, ofFile h path = .ok v ∧ Describes h path v) ↔ ∀ failure, ¬ Escapes h path failure) ∧
      ∀ failure, Escapes h path failure ↔ ofFile h path = .error failure := by
  have hescapes (failure : Failure) : Escapes h path failure ↔ ofFile h path = .error failure :=
    ⟨Escapes.ofFile_eq, escapes_of_ofFile⟩
  refine ⟨?_, hescapes⟩
  simp only [hescapes]
  constructor
  · rintro ⟨v, hv, -⟩ failure hfailure
    cases hv.symm.trans hfailure
  · intro hnone
    cases hfile : ofFile h path with
    | ok v => exact ⟨v, rfl, describes_of_ofFile hfile⟩
    | error failure => exact absurd hfile (hnone failure)

/-- A byte that starts no character, a number of too many digits, and too long a name. -/
theorem ofFile_fails_of_unreadable :
    let path : Host.Path := ⟨"", ["spans.json"]⟩
    let hostOf (bytes : ByteArray) : Host := { entries := [(path.names, .file bytes)] }
    let number := String.ofList ('1' :: List.replicate 4300 '1')
    let longName := String.ofList (List.replicate 256 'a')
    ofFile (hostOf ⟨#[0xFF]⟩) path = .error .notText ∧
      ofFile (hostOf number.toUTF8) path =
        .error (.unusableValue "Exceeds the limit (4300 digits) for integer string conversion") ∧
      ofFile {} ⟨"", [longName]⟩ = .error (.nameTooLong longName) := by
  intro path hostOf number longName
  have hpath (bytes : ByteArray) : (hostOf bytes).lookup path = .found (.file bytes) :=
    Host.lookup_of_entry (by decide) (by decide) (by decide) (by decide) rfl rfl
  refine ⟨Escapes.ofFile_eq (.bytes (hpath _) (by decide +kernel)), ?_, ?_⟩
  · have hdigits : ∀ d ∈ '1' :: List.replicate 4300 '1', Number.isAsciiDigit d := by
      intro d hd
      obtain rfl : d = '1' := List.eq_of_mem_replicate (show d ∈ List.replicate 4301 '1' from hd)
      decide
    have hread : Json.read (Text.ofChars number.toList) = .error .integerTooLong := by
      rw [String.toList_ofList]
      exact Json.read_of_digits hdigits (by decide) (by rw [List.length_replicate]; exact le_rfl)
    have hreturn : '\r' ∉ number.toList := by
      rw [String.toList_ofList]
      intro hmem
      exact absurd (hdigits _ hmem) (by decide)
    refine Escapes.ofFile_eq (.document (by decide +kernel)
      (Host.readText_of_toUTF8 (hpath _) hreturn) ?_)
    rw [excess?, hread]
    rfl
  · have haddress : '\x00' ∉ longName.toList := by
      rw [String.toList_ofList]
      intro hmem
      cases List.eq_of_mem_replicate hmem
    have hlength : longName.utf8ByteSize = 256 := by decide +kernel
    have hne : longName ≠ "" := by decide +kernel
    have hup : longName ≠ ".." := by decide +kernel
    clear_value longName
    have hpath : ({} : Host).lookup ⟨"", [longName]⟩ = .tooLong :=
      Host.lookup_of_long_name haddress hne hup (by rw [hlength]; decide) (by rw [hlength]; decide)
        rfl
    have hfails := Escapes.ofFile_eq (.path hpath)
    rwa [Host.text_name hne] at hfails

end TraceExplorer.Schema.Validation
