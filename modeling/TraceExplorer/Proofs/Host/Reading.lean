import TraceExplorer.Host.Basic
import TraceExplorer.Proofs.Text.Lines

/-!
# Reading files

A path is read if it leads to a file that is UTF-8. What is read has no carriage returns, and every
text without them is what some file holds.
-/

namespace TraceExplorer.Host

variable {h : Host} {path : Path} {text : String} {bytes : ByteArray}

theorem lookup_of_readText (htext : h.readText path = .ok text) :
    ∃ bytes, h.lookup path = .found (.file bytes) := by
  rw [readText] at htext
  split at htext
  all_goals first | cases htext | exact ⟨_, by assumption⟩

theorem pathExists_of_readText (htext : h.readText path = .ok text) :
    h.pathExists path = .ok true := by
  obtain ⟨bytes, hlookup⟩ := lookup_of_readText htext
  rw [pathExists, hlookup]

theorem readText_of_lookup (hpath : h.lookup path = .found (.file bytes)) :
    (h.readText path = .error .notText ∧ ¬ bytes.IsValidUTF8) ∨
      ∃ text, h.readText path = .ok text ∧ bytes.IsValidUTF8 := by
  rw [readText, hpath]
  by_cases hvalid : bytes.IsValidUTF8
  · obtain ⟨s, hdecoded⟩ : ∃ s, String.fromUTF8? bytes = some s := ⟨_, dif_pos hvalid⟩
    refine .inr ⟨String.ofList (Text.unifyLineEnds s.toList), ?_, hvalid⟩
    simp only [hdecoded]
  · have hdecoded : String.fromUTF8? bytes = none := dif_neg hvalid
    exact .inl ⟨by simp only [hdecoded], hvalid⟩

theorem readText_of_toUTF8 (hpath : h.lookup path = .found (.file text.toUTF8))
    (hreturn : '\r' ∉ text.toList) : h.readText path = .ok text := by
  have hdecoded : String.fromUTF8? text.toUTF8 = some text := dif_pos text.isValidUTF8
  rw [readText, hpath]
  simp only [hdecoded, Text.unifyLineEnds_of_not_mem hreturn, String.ofList_toList]

/-! ## Paths that are not refused -/

theorem isAddressable_iff : path.isAddressable ↔ ∀ name ∈ path.names, '\x00' ∉ name.toList := by
  simp [Path.isAddressable, String.contains_char_eq]

theorem follow_ne_tooLong {place names : List String}
    (hnames : ∀ name ∈ names, name.utf8ByteSize ≤ nameLimit) : h.follow place names ≠ .tooLong := by
  induction names generalizing place with
  | nil =>
      rw [follow]
      split <;> simp
  | cons name rest ih =>
      rw [List.forall_mem_cons] at hnames
      rw [follow]
      split
      · simp
      · simp
      · rw [if_neg (Nat.not_lt.mpr hnames.1)]
        split
        · exact ih hnames.2
        · exact ih hnames.2

theorem exists_pathExists (hpath : path.text.utf8ByteSize ≤ pathLimit)
    (hnames : ∀ name ∈ path.names, name.utf8ByteSize ≤ nameLimit) :
    ∃ there, h.pathExists path = .ok there := by
  have hshort : h.lookup path ≠ .tooLong := by
    rw [lookup, if_neg (Nat.not_lt.mpr hpath)]
    split
    · simp
    · exact follow_ne_tooLong hnames
  rw [pathExists]
  cases hlook : h.lookup path with
  | tooLong => exact absurd hlook hshort
  | found _ | missing | notADirectory | unaddressable => exact ⟨_, rfl⟩

/-! ## Names in the working directory -/

section

variable {name : String}

theorem text_name (hne : name ≠ "") : Path.text ⟨"", [name]⟩ = name := by
  simp [Path.text, hne]

/-- A name leads where it is followed to, unless the path as a whole is refused. -/
theorem lookup_name (haddress : '\x00' ∉ name.toList) (hne : name ≠ "")
    (hlength : name.utf8ByteSize ≤ pathLimit) (hplace : h.workingDirectory = []) :
    h.lookup ⟨"", [name]⟩ = h.follow [] [name] := by
  have haddressable : Path.isAddressable ⟨"", [name]⟩ :=
    isAddressable_iff.mpr (List.forall_mem_singleton.mpr haddress)
  rw [lookup, haddressable, text_name hne, if_neg (by simp), if_neg (Nat.not_lt.mpr hlength),
    hplace]
  rfl

theorem lookup_of_entry {entry : FileEntry} (haddress : '\x00' ∉ name.toList) (hne : name ≠ "")
    (hup : name ≠ "..") (hlength : name.utf8ByteSize ≤ nameLimit) (hplace : h.workingDirectory = [])
    (hentry : h.entries.lookup [name] = some entry) : h.lookup ⟨"", [name]⟩ = .found entry := by
  rw [lookup_name haddress hne (hlength.trans (by decide)) hplace]
  simp [follow, hup, entryAt?, hentry, Nat.not_lt.mpr hlength]

theorem lookup_of_long_name (haddress : '\x00' ∉ name.toList) (hne : name ≠ "")
    (hup : name ≠ "..") (hlong : nameLimit < name.utf8ByteSize)
    (hlength : name.utf8ByteSize ≤ pathLimit) (hplace : h.workingDirectory = []) :
    h.lookup ⟨"", [name]⟩ = .tooLong := by
  rw [lookup_name haddress hne hlength hplace]
  simp [follow, hup, entryAt?, hlong]

end

end TraceExplorer.Host
