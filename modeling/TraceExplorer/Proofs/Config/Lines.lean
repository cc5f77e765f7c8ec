import TraceExplorer.Proofs.Config.Sources

/-!
# Writing settings files

Each setting is written on a line of its own, with or without quotes and with or without the word in
front. Among these lines there may be others that hold no setting. Reading gives back the settings:
trimming, the word in front, the first equals sign and the quotes are undone one after the other,
whatever the value holds.
-/

namespace TraceExplorer.Dotenv

open Text (isBlank isLineBoundary trimChars Trimmed bodies lineBody)

def IsUncut (s : List Char) : Prop := ∀ c ∈ s, ¬ isLineBoundary c

-- The elements are looked through, and not all characters.
instance (s : List Char) : Decidable (IsUncut s) :=
  decidable_of_iff (s.all (!isLineBoundary ·)) (by simp [IsUncut])

instance (s : List Char) : Decidable (Trimmed isBlank s) :=
  decidable_of_iff (s.head?.all (!isBlank ·) ∧ s.getLast?.all (!isBlank ·)) <| by
    rw [Option.all_eq_true, Option.all_eq_true]
    simp only [Bool.not_eq_true']
    exact ⟨fun ⟨first, last⟩ => ⟨first, last⟩, fun ⟨first, last⟩ => ⟨first, last⟩⟩

inductive Style where
  | bare
  | doubleQuoted
  | singleQuoted
  deriving DecidableEq, Repr

namespace Style

def write : Style → List Char → List Char
  | bare, value => value
  | doubleQuoted, value => '"' :: value ++ ['"']
  | singleQuoted, value => '\'' :: value ++ ['\'']

/-- Without quotes a value must not have blanks at its ends or start with a quote. -/
def Admits : Style → List Char → Prop
  | bare, value => Trimmed isBlank value ∧ value.head? ≠ some '"' ∧ value.head? ≠ some '\''
  | doubleQuoted, _ | singleQuoted, _ => True

instance (style : Style) (value : List Char) : Decidable (style.Admits value) := by
  unfold Admits
  split <;> infer_instance

end Style

/-- A name that can be told from the rest of a line. -/
structure IsName (name : List Char) : Prop where
  ne_nil : name ≠ []
  uncut : IsUncut name
  trimmed : Trimmed isBlank name
  no_equals : '=' ∉ name
  no_comment : name.head? ≠ some '#'
  no_export : ¬ exportWord <+: name

instance (name : List Char) : Decidable (IsName name) :=
  decidable_of_iff
    (name ≠ [] ∧ IsUncut name ∧ Trimmed isBlank name ∧ '=' ∉ name ∧
      name.head? ≠ some '#' ∧ ¬ exportWord <+: name)
    ⟨fun ⟨h₁, h₂, h₃, h₄, h₅, h₆⟩ => ⟨h₁, h₂, h₃, h₄, h₅, h₆⟩,
      fun ⟨h₁, h₂, h₃, h₄, h₅, h₆⟩ => ⟨h₁, h₂, h₃, h₄, h₅, h₆⟩⟩

/-- A line of a settings file: a setting with the word in front or without it, or something else. -/
inductive Line where
  | setting (exported : Bool) (style : Style) (name value : String)
  | other (text : String)
  deriving DecidableEq, Repr

def front : Bool → List Char
  | true => exportWord
  | false => []

namespace Line

def text : Line → String
  | setting exported style name value =>
      String.ofList (front exported ++ name.toList ++ '=' :: style.write value.toList)
  | other text => text

def setting? : Line → Option (String × String)
  | setting _ _ name value => some (name, value)
  | other _ => none

/-- A setting has a name, and its value can be written so. Any other line is blank, a comment or
without an equals sign. No line is cut in two. -/
def IsProper : Line → Prop
  | setting _ style name value =>
      IsName name.toList ∧ IsUncut value.toList ∧ style.Admits value.toList
  | other text =>
      IsUncut text.toList ∧
        (trimChars text.toList = [] ∨ (trimChars text.toList).head? = some '#' ∨
          '=' ∉ text.toList)

instance (line : Line) : Decidable line.IsProper := by
  unfold IsProper
  split <;> infer_instance

end Line

def fileText (lines : List Line) : String := "\n".intercalate (lines.map Line.text)

section

variable {name value line : List Char} {style : Style}

/-! ## Reading a line -/

theorem splitEquals?_of_not_mem (h : '=' ∉ line) : splitEquals? line = none := by
  induction line with
  | nil => rfl
  | cons c rest ih =>
      obtain ⟨hc, hrest⟩ := not_or.mp (mt List.mem_cons.mpr h)
      rw [splitEquals?, ih hrest]
      · rfl
      · exact fun heq => hc heq.symm

theorem splitEquals?_append (h : '=' ∉ name) :
    splitEquals? (name ++ '=' :: value) = some (name, value) := by
  induction name with
  | nil => rfl
  | cons c rest ih =>
      obtain ⟨hc, hrest⟩ := not_or.mp (mt List.mem_cons.mpr h)
      rw [List.cons_append, splitEquals?, ih hrest]
      · rfl
      · exact fun heq => hc heq.symm

theorem dropExport_append (rest : List Char) : dropExport (exportWord ++ rest) = rest := by
  rw [dropExport, if_pos (List.isPrefixOf_iff_prefix.mpr (List.prefix_append _ _)), List.drop_left]

/-- The word in front ends in a blank, so that no setting without it starts with the word. -/
theorem dropExport_of_isName (h : IsName name) :
    dropExport (name ++ '=' :: value) = name ++ '=' :: value := by
  refine if_neg fun hword => ?_
  have hword : exportWord <+: name ++ '=' :: value := List.isPrefixOf_iff_prefix.mp hword
  rcases Nat.lt_or_ge name.length exportWord.length with hshort | hlong
  · have hname : name ++ ['='] <+: name ++ '=' :: value := ⟨value, by simp⟩
    have hinside : name ++ ['='] <+: exportWord :=
      List.prefix_of_prefix_length_le hname hword (by simpa using Nat.succ_le_of_lt hshort)
    have hequals : '=' ∈ exportWord := hinside.subset (by simp)
    exact absurd hequals (by decide)
  · exact h.no_export
      (List.prefix_of_prefix_length_le hword (List.prefix_append _ _) hlong)

theorem trimmed_write (h : style.Admits value) : Trimmed isBlank (style.write value) := by
  cases style with
  | bare => exact h.1
  | doubleQuoted | singleQuoted =>
      constructor
      · rintro a ⟨⟩
        decide
      · intro a ha
        rw [Style.write, List.getLast?_concat] at ha
        obtain rfl := Option.some.inj ha
        decide

theorem dropQuotes_write (h : style.Admits value) : dropQuotes (style.write value) = value := by
  cases style with
  | bare =>
      obtain ⟨-, hdouble, hsingle⟩ := h
      simp [dropQuotes, isQuotedBy, Style.write, hdouble, hsingle]
  | doubleQuoted | singleQuoted =>
      have hlast (quote : Char) : (quote :: (value ++ [quote])).getLast? = some quote :=
        List.getLast?_concat (l := quote :: value)
      simp [dropQuotes, isQuotedBy, Style.write, hlast]

theorem trimmed_setting (hname : IsName name) (h : style.Admits value) (exported : Bool) :
    Trimmed isBlank (front exported ++ name ++ '=' :: style.write value) := by
  obtain ⟨c, rest, rfl⟩ := List.exists_cons_of_ne_nil hname.ne_nil
  constructor
  · intro a ha
    cases exported with
    | false => exact hname.trimmed.first a ha
    | true =>
        obtain rfl := Option.some.inj ha
        decide
  · intro a ha
    rw [List.getLast?_append, List.getLast?_cons] at ha
    obtain rfl := Option.some.inj ha
    cases hlast : (style.write value).getLast? with
    | none => decide
    | some last => exact (trimmed_write h).last last hlast

theorem readLine?_setting (hname : IsName name) (h : style.Admits value) (exported : Bool) :
    readLine? (front exported ++ name ++ '=' :: style.write value) =
      some (String.ofList name, String.ofList value) := by
  have htrim : trimChars (front exported ++ name ++ '=' :: style.write value) =
      front exported ++ name ++ '=' :: style.write value :=
    (trimmed_setting hname h exported).trimBy_eq
  have hname' : trimChars name = name := hname.trimmed.trimBy_eq
  have hvalue : trimChars (style.write value) = style.write value := (trimmed_write h).trimBy_eq
  obtain ⟨first, after, hline, hfirst⟩ : ∃ first after,
      front exported ++ name ++ '=' :: style.write value = first :: after ∧ first ≠ '#' := by
    obtain ⟨c, rest, rfl⟩ := List.exists_cons_of_ne_nil hname.ne_nil
    cases exported with
    | false => exact ⟨c, _, rfl, fun heq => hname.no_comment (congrArg some heq)⟩
    | true => exact ⟨'e', _, rfl, by decide⟩
  have hsetting : ¬ ((front exported ++ name ++ '=' :: style.write value).isEmpty ||
      (front exported ++ name ++ '=' :: style.write value).head? = some '#') := by
    simp [hline, hfirst]
  have hdrop : dropExport (front exported ++ name ++ '=' :: style.write value) =
      name ++ '=' :: style.write value := by
    cases exported with
    | false => exact dropExport_of_isName hname
    | true => exact (congrArg dropExport (List.append_assoc _ _ _)).trans (dropExport_append _)
  rw [readLine?, htrim]
  dsimp only
  rw [if_neg hsetting, hdrop, splitEquals?_append hname.no_equals, Option.map_some, hname', hvalue,
    dropQuotes_write h]

theorem readLine?_of_no_setting
    (h : trimChars line = [] ∨ (trimChars line).head? = some '#' ∨ '=' ∉ line) :
    readLine? line = none := by
  rw [readLine?]
  split
  · rfl
  · rename_i hheld
    rw [Bool.or_eq_true, not_or, List.isEmpty_iff, decide_eq_true_eq] at hheld
    obtain hblank | hcomment | hequals := h
    · exact absurd hblank hheld.1
    · exact absurd hcomment hheld.2
    · have hdropped : dropExport (trimChars line) ⊆ line := by
        rw [dropExport]
        split
        · exact List.Subset.trans (List.drop_subset _ _) (Text.trimBy_subset _ _)
        · exact Text.trimBy_subset _ _
      rw [splitEquals?_of_not_mem fun hmem => hequals (hdropped hmem), Option.map_none]

/-! ## Reading the lines of a file -/

theorem Line.IsProper.readLine?_text {line : Line} (h : line.IsProper) :
    readLine? line.text.toList = line.setting? := by
  cases line with
  | setting exported style name value =>
      obtain ⟨hname, -, hvalue⟩ := h
      rw [Line.text, String.toList_ofList, readLine?_setting hname hvalue, String.ofList_toList,
        String.ofList_toList, Line.setting?]
  | other text => exact readLine?_of_no_setting h.2

theorem Line.IsProper.uncut {line : Line} (h : line.IsProper) : IsUncut line.text.toList := by
  cases line with
  | setting exported style name value =>
      obtain ⟨hname, hvalue, -⟩ := h
      have hwritten : IsUncut (style.write value.toList) := by
        cases style with
        | bare => exact hvalue
        | doubleQuoted | singleQuoted =>
            simp only [IsUncut, Style.write, List.cons_append, List.forall_mem_cons,
              List.forall_mem_append]
            exact ⟨by decide, hvalue, by decide, nofun⟩
      rw [Line.text, String.toList_ofList]
      have hfront : IsUncut (front exported) := by cases exported <;> decide
      simp only [IsUncut, List.forall_mem_append, List.forall_mem_cons]
      exact ⟨⟨hfront, hname.uncut⟩, by decide, hwritten⟩
  | other text => exact h.1

/-- What a line holds is what its trimmed body holds. -/
theorem filterMap_lineBody (line : List Char) :
    (lineBody line).filterMap readLine? = (readLine? line).toList := by
  rw [lineBody]
  split
  · rename_i hblank
    rw [readLine?_of_no_setting (.inl hblank)]
    rfl
  · have htrim : trimChars (trimChars line) = trimChars line :=
      (Text.trimmed_trimBy isBlank line).trimBy_eq
    have hread : readLine? (trimChars line) = readLine? line := by
      rw [readLine?, readLine?, htrim]
    rw [List.filterMap_cons, List.filterMap_nil, hread]
    cases readLine? line <;> rfl

theorem filterMap_bodies (lines : List String) :
    (bodies lines).filterMap readLine? = lines.filterMap fun line => readLine? line.toList := by
  induction lines with
  | nil => rfl
  | cons line rest ih =>
      rw [bodies, List.flatMap_cons, List.filterMap_append, filterMap_lineBody, List.filterMap_cons]
      cases readLine? line.toList <;> simp [← ih, bodies]

theorem bodies_fullLines_intercalate {lines : List String}
    (h : ∀ line ∈ lines, IsUncut line.toList) :
    bodies (Text.fullLines ("\n".intercalate lines)) = bodies lines := by
  rw [Text.bodies_fullLines, String.toList_intercalate]
  induction lines with
  | nil => rfl
  | cons line rest ih =>
      rw [List.forall_mem_cons] at h
      have hline : Text.lineBodies isLineBoundary [] line.toList = lineBody line.toList :=
        Text.lineBodies_of_uncut h.1
      cases rest with
      | nil => simp [bodies, hline]
      | cons next rest =>
          have hcut : ∀ after, Text.lineBodies isLineBoundary [] (line.toList ++ '\n' :: after) =
              lineBody line.toList ++ Text.lineBodies isLineBoundary [] after := fun after => by
            rw [Text.lineBodies_append_cut (by decide), hline]
          have hrest := ih h.2
          rw [bodies, List.flatMap_cons, ← bodies, ← hrest, ← hcut]
          simp [List.intercalate_cons_cons]

theorem read_fileText {lines : List Line} (h : ∀ line ∈ lines, line.IsProper) :
    read (fileText lines) = Config.override [] (lines.filterMap Line.setting?) := by
  have huncut : ∀ line ∈ lines.map Line.text, IsUncut line.toList :=
    List.forall_mem_map.mpr fun line hline => (h line hline).uncut
  have hsettings : (Text.fullLines (fileText lines)).filterMap (fun line => readLine? line.toList) =
      lines.filterMap Line.setting? := by
    rw [← filterMap_bodies, fileText, bodies_fullLines_intercalate huncut, filterMap_bodies,
      List.filterMap_map]
    exact List.filterMap_congr fun line hline => (h line hline).readLine?_text
  rw [read, hsettings]
  rfl

theorem not_mem_intercalate {c : Char} {separator : List Char} {texts : List (List Char)}
    (hseparator : c ∉ separator) (h : ∀ text ∈ texts, c ∉ text) :
    c ∉ separator.intercalate texts := by
  induction texts with
  | nil => exact nofun
  | cons text rest ih =>
      rw [List.forall_mem_cons] at h
      cases rest with
      | nil => simpa using h.1
      | cons next rest =>
          rw [List.intercalate_cons_cons, List.mem_append, List.mem_append, not_or, not_or]
          exact ⟨⟨h.1, hseparator⟩, ih h.2⟩

theorem not_mem_fileText {lines : List Line} (h : ∀ line ∈ lines, line.IsProper) :
    '\r' ∉ (fileText lines).toList := by
  rw [fileText, String.toList_intercalate]
  refine not_mem_intercalate (by decide) ?_
  rw [List.forall_mem_map, List.forall_mem_map]
  exact fun line hline hmem => (h line hline).uncut '\r' hmem (by decide)

end

/-- A file of such lines is read as its settings, whichever way each of them is written and whatever
stands between them. A name is listed where it is first given, with the value that it is given
last. -/
theorem readEnvFile_fileText {h : Host} {path : Host.Path} {lines : List Line}
    (hlines : ∀ line ∈ lines, line.IsProper)
    (hfile : h.lookup path = .found (.file (fileText lines).toUTF8)) :
    ∃ settings, Config.readEnvFile h path = .ok settings ∧
      settings.map (·.1) = ((lines.filterMap Line.setting?).map (·.1)).eraseDups ∧
      ∀ name, settings.lookup name = (lines.filterMap Line.setting?).reverse.lookup name := by
  have htext : h.readText path = .ok (fileText lines) :=
    Host.readText_of_toUTF8 hfile (not_mem_fileText hlines)
  refine ⟨read (fileText lines), Config.readEnvFile_of_readText htext, ?_, fun name => ?_⟩
  · rw [read_fileText hlines]
    exact Config.names_override _
  · rw [read_fileText hlines, Config.lookup_override_reverse, List.lookup_nil, Option.or_none]

/-- A name that is given twice, and values that hold quotes, equals signs, number signs, blanks at
their ends or the word in front. -/
theorem readEnvFile_fileText_of_mixed :
    let lines : List Line := [
      .other " # A=comment", .setting true .doubleQuoted "A" " it's \"x=1\" # ", .other "\t",
      .setting false .singleQuoted "B C" "'", .other "export", .setting true .bare "D" "",
      .setting false .bare "A" "export x='#'"]
    let h : Host := { entries := [(Config.envPath.names, .file (fileText lines).toUTF8)] }
    (∀ line ∈ lines, line.IsProper) ∧
      h.lookup Config.envPath = .found (.file (fileText lines).toUTF8) ∧
      ∃ settings, Config.readEnvFile h Config.envPath = .ok settings ∧
        settings.map (·.1) = ["A", "B C", "D"] ∧
        ["A", "B C", "D"].map (fun name => settings.lookup name) =
          [some "export x='#'", some "'", some ""] := by
  intro lines h
  have hlines : ∀ line ∈ lines, line.IsProper := by decide
  have hfile : h.lookup Config.envPath = .found (.file (fileText lines).toUTF8) :=
    Host.lookup_of_entry (by decide) (by decide) (by decide) (by decide) rfl rfl
  obtain ⟨settings, hread, hnames, hvalues⟩ := readEnvFile_fileText hlines hfile
  refine ⟨hlines, hfile, settings, hread, hnames.trans (by decide), ?_⟩
  rw [List.map_congr_left fun name _ => hvalues name]
  decide

end TraceExplorer.Dotenv
