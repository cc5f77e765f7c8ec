import TraceExplorer.Proofs.Text.Trim
import TraceExplorer.Text.Lines

/-!
# What stands on the lines of a text

Blank lines, and blanks at the ends of a line, do not count for readers of lines. What counts is the
same before and after the whole text is trimmed. A finer cut takes each line of a coarser cut apart
and changes nothing else.
-/

namespace TraceExplorer.Text

section

variable {cuts finer : Char → Bool} {c separator : Char} {s line rest : List Char}

/-- What stands on a line: the trimmed line, unless it is blank. -/
def lineBody (line : List Char) : List (List Char) :=
  if trimChars line = [] then [] else [trimChars line]

/-- What stands on the lines of a text that is cut at the characters that pass a test. The
characters of the current line are held in reverse order. -/
def lineBodies (cuts : Char → Bool) : List Char → List Char → List (List Char)
  | line, [] => lineBody line.reverse
  | line, c :: rest =>
    if cuts c then lineBody line.reverse ++ lineBodies cuts [] rest
    else lineBodies cuts (c :: line) rest

theorem lineBodies_cons_of_pos (h : cuts c) :
    lineBodies cuts line (c :: s) = lineBody line.reverse ++ lineBodies cuts [] s := if_pos h

theorem lineBodies_cons_of_neg (h : ¬ cuts c) :
    lineBodies cuts line (c :: s) = lineBodies cuts (c :: line) s := if_neg h

/-! ## Trimming -/

theorem trim_ofString (s : String) : trim s = ofChars (trimChars s.toList) :=
  congrArg Text.mk (trimBy_map CodePoint.char s.toList)

theorem isEmpty_trim_iff (s : String) : (trim s).isEmpty ↔ trimChars s.toList = [] := by
  rw [trim_ofString, isEmpty, ofChars, List.isEmpty_map, List.isEmpty_iff]

theorem lineBody_of_blank (h : trimChars line = []) : lineBody line = [] := if_pos h

theorem lineBody_of_ne_nil (h : trimChars line ≠ []) : lineBody line = [trimChars line] := if_neg h

theorem lineBody_congr (h : trimChars s = trimChars line) : lineBody s = lineBody line := by
  rw [lineBody, lineBody, h]

theorem lineBody_cons_blank (h : isBlank c) : lineBody (c :: s) = lineBody s :=
  lineBody_congr (trimBy_cons_of_pos h)

theorem lineBody_append_blank (h : isBlank c) : lineBody (s ++ [c]) = lineBody s :=
  lineBody_congr (trimBy_append_of_pos h)

theorem lineBodies_append_blank (h : isBlank c) :
    lineBodies cuts line (s ++ [c]) = lineBodies cuts line s := by
  induction s generalizing line with
  | nil =>
      by_cases hcut : cuts c
      · rw [List.nil_append, lineBodies_cons_of_pos hcut]
        exact List.append_nil _
      · rw [List.nil_append, lineBodies_cons_of_neg hcut, lineBodies, List.reverse_cons,
          lineBody_append_blank h]
        rfl
  | cons d rest ih =>
      rw [List.cons_append, lineBodies, lineBodies, ih, ih]

/-- A blank at the start of the current line does not count. -/
theorem lineBodies_line_append_blank (h : isBlank c) :
    lineBodies cuts (line ++ [c]) s = lineBodies cuts line s := by
  have hline (line : List Char) : lineBody (line ++ [c]).reverse = lineBody line.reverse := by
    rw [List.reverse_append]
    exact lineBody_cons_blank h
  induction s generalizing line with
  | nil => exact hline line
  | cons d rest ih =>
      rw [lineBodies, lineBodies, hline, ← List.cons_append, ih]

theorem lineBodies_cons_blank (h : isBlank c) :
    lineBodies cuts [] (c :: s) = lineBodies cuts [] s := by
  by_cases hcut : cuts c
  · rw [lineBodies_cons_of_pos hcut]
    rfl
  · rw [lineBodies_cons_of_neg hcut]
    have hline : lineBodies cuts ([] ++ [c]) s = lineBodies cuts [] s :=
      lineBodies_line_append_blank h
    exact hline

theorem lineBodies_dropWhile (cuts : Char → Bool) (s : List Char) :
    lineBodies cuts [] (s.dropWhile isBlank) = lineBodies cuts [] s := by
  induction s with
  | nil => rfl
  | cons c rest ih =>
      by_cases h : isBlank c
      · rw [List.dropWhile_cons_of_pos h, ih, lineBodies_cons_blank h]
      · rw [List.dropWhile_cons_of_neg h]

theorem lineBodies_rdropWhile (cuts : Char → Bool) (s : List Char) :
    lineBodies cuts [] (s.rdropWhile isBlank) = lineBodies cuts [] s := by
  induction s using List.reverseRecOn with
  | nil => rfl
  | append_singleton rest c ih =>
      by_cases h : isBlank c
      · rw [List.rdropWhile_concat_pos _ _ _ h, ih, lineBodies_append_blank h]
      · rw [List.rdropWhile_concat_neg _ _ _ h]

theorem lineBodies_trimChars (cuts : Char → Bool) (s : List Char) :
    lineBodies cuts [] (trimChars s) = lineBodies cuts [] s := by
  rw [trimChars, trimBy_eq_rdropWhile, lineBodies_rdropWhile, lineBodies_dropWhile]

theorem flatMap_lineBody (cuts : Char → Bool) (line : List Char) :
    (lineBody line).flatMap (lineBodies cuts []) = lineBodies cuts [] line := by
  rw [lineBody]
  split
  · rename_i hblank
    rw [← lineBodies_trimChars, hblank]
    rfl
  · rw [List.flatMap_singleton, lineBodies_trimChars]

/-! ## Cutting -/

theorem lineBodies_append_cut (h : cuts c) :
    lineBodies cuts line (s ++ c :: rest) = lineBodies cuts line s ++ lineBodies cuts [] rest := by
  induction s generalizing line with
  | nil => exact lineBodies_cons_of_pos h
  | cons d after ih =>
      by_cases hcut : cuts d
      · rw [List.cons_append, lineBodies_cons_of_pos hcut, lineBodies_cons_of_pos hcut, ih,
          List.append_assoc]
      · rw [List.cons_append, lineBodies_cons_of_neg hcut, lineBodies_cons_of_neg hcut, ih]

theorem lineBodies_of_uncut (h : ∀ c ∈ s, ¬ cuts c) :
    lineBodies cuts line s = lineBody (line.reverse ++ s) := by
  induction s generalizing line with
  | nil => rw [lineBodies, List.append_nil]
  | cons c rest ih =>
      rw [List.forall_mem_cons] at h
      rw [lineBodies_cons_of_neg h.1, ih h.2, List.reverse_cons, List.append_assoc,
        List.singleton_append]

/-- A finer cut takes apart what stands on each line. -/
theorem flatMap_lineBodies (h : ∀ c, cuts c → finer c) :
    (lineBodies cuts line s).flatMap (lineBodies finer []) =
      lineBodies finer [] (line.reverse ++ s) := by
  induction s generalizing line with
  | nil => rw [lineBodies, flatMap_lineBody, List.append_nil]
  | cons c rest ih =>
      by_cases hcut : cuts c
      · rw [lineBodies_cons_of_pos hcut, List.flatMap_append, flatMap_lineBody, ih,
          lineBodies_append_cut (h c hcut)]
        rfl
      · rw [lineBodies_cons_of_neg hcut, ih, List.reverse_cons, List.append_assoc,
          List.singleton_append]

/-! ## Lines of a text -/

theorem flatMap_lineBody_splitAtChar (separator : Char) (s : List Char) :
    (splitAtChar separator s).flatMap lineBody = lineBodies (· = separator) [] s := by
  have hall (line s : List Char) : ∃ part parts, splitAtChar separator s = part :: parts ∧
      lineBodies (· = separator) line s =
        lineBody (line.reverse ++ part) ++ parts.flatMap lineBody := by
    induction s generalizing line with
    | nil => exact ⟨[], [], rfl, by simp [lineBodies]⟩
    | cons c rest ih =>
        by_cases hcut : c = separator
        · obtain ⟨part, parts, hsplit, hbodies⟩ := ih []
          refine ⟨[], part :: parts, by rw [splitAtChar, if_pos hcut, hsplit], ?_⟩
          rw [lineBodies_cons_of_pos (by simpa using hcut), hbodies, List.append_nil,
            List.flatMap_cons]
          rfl
        · obtain ⟨part, parts, hsplit, hbodies⟩ := ih (c :: line)
          refine ⟨c :: part, parts, by rw [splitAtChar, if_neg hcut, hsplit], ?_⟩
          rw [lineBodies_cons_of_neg (by simpa using hcut), hbodies, List.reverse_cons,
            List.append_assoc, List.singleton_append]
  obtain ⟨part, parts, hsplit, hbodies⟩ := hall [] s
  rw [hsplit, hbodies, List.flatMap_cons]
  rfl

theorem flatMap_lineBody_splitBoundaries (line s : List Char) :
    (splitBoundaries line s).flatMap lineBody = lineBodies isLineBoundary line s := by
  fun_induction splitBoundaries line s with
  | case1 => rfl
  | case2 line hline => simp [lineBodies]
  | case3 line rest ih =>
      rw [List.flatMap_cons, ih, lineBodies_cons_of_pos (by decide),
        lineBodies_cons_of_pos (by decide)]
      rfl
  | case4 line c rest _ hcut ih => rw [List.flatMap_cons, ih, lineBodies_cons_of_pos hcut]
  | case5 line c rest _ hcut ih => rw [ih, lineBodies_cons_of_neg hcut]

def bodies (lines : List String) : List (List Char) :=
  lines.flatMap fun line => lineBody line.toList

theorem bodies_map_ofList (lines : List (List Char)) :
    bodies (lines.map String.ofList) = lines.flatMap lineBody := by
  rw [bodies, List.flatMap_map]
  exact List.flatMap_congr fun line _ => by rw [String.toList_ofList]

theorem bodies_plainLines (s : String) :
    bodies (plainLines s) = lineBodies (· = '\n') [] s.toList := by
  rw [plainLines, bodies_map_ofList, flatMap_lineBody_splitAtChar]

theorem bodies_fullLines (s : String) :
    bodies (fullLines s) = lineBodies isLineBoundary [] s.toList := by
  rw [fullLines, bodies_map_ofList, flatMap_lineBody_splitBoundaries]

theorem bodies_plainLines_trim (s : String) :
    bodies (plainLines (String.ofList (trimChars s.toList))) = bodies (plainLines s) := by
  rw [bodies_plainLines, bodies_plainLines, String.toList_ofList, lineBodies_trimChars]

/-- Full lines take apart what stands on the plain lines. -/
theorem flatMap_bodies_plainLines (s : String) :
    (bodies (plainLines s)).flatMap (lineBodies isLineBoundary []) = bodies (fullLines s) := by
  rw [bodies_plainLines, bodies_fullLines]
  apply flatMap_lineBodies
  intro c hc
  rw [of_decide_eq_true hc]
  decide

theorem mem_lineBody {body : List Char} :
    body ∈ lineBody line ↔ body = trimChars line ∧ body ≠ [] := by
  rw [lineBody]
  split
  · rename_i hblank
    simp [hblank]
  · rename_i hline
    rw [List.mem_singleton]
    constructor
    · rintro rfl
      exact ⟨rfl, hline⟩
    · exact And.left

theorem mem_bodies {lines : List String} {body : List Char} :
    body ∈ bodies lines ↔ ∃ line ∈ lines, body = trimChars line.toList ∧ body ≠ [] := by
  simp only [bodies, List.mem_flatMap, mem_lineBody]

theorem trimmed_of_mem_bodies {lines : List String} {body : List Char} (h : body ∈ bodies lines) :
    Trimmed isBlank body := by
  obtain ⟨line, -, rfl, -⟩ := mem_bodies.mp h
  exact trimmed_trimBy _ _

/-- Without line boundaries inside them, the plain lines are the full lines. -/
theorem bodies_fullLines_of_uncut {s : String}
    (h : ∀ body ∈ bodies (plainLines s), ∀ c ∈ body, ¬ isLineBoundary c) :
    bodies (fullLines s) = bodies (plainLines s) := by
  have hsingle (body : List Char) (hbody : body ∈ bodies (plainLines s)) :
      lineBodies isLineBoundary [] body = [body] := by
    obtain ⟨line, -, -, hne⟩ := mem_bodies.mp hbody
    have htrim : trimChars body = body := (trimmed_of_mem_bodies hbody).trimBy_eq
    rw [lineBodies_of_uncut (h body hbody), List.reverse_nil, List.nil_append,
      lineBody_of_ne_nil (by rwa [htrim]), htrim]
  calc bodies (fullLines s)
      = (bodies (plainLines s)).flatMap (lineBodies isLineBoundary []) :=
        (flatMap_bodies_plainLines s).symm
    _ = bodies (plainLines s) := by
        rw [List.flatMap_congr hsingle, List.flatMap_singleton']

theorem mem_of_mem_splitAtChar (h : line ∈ splitAtChar separator s) (hc : c ∈ line) :
    c ∈ s ∧ c ≠ separator := by
  induction s generalizing line with
  | nil =>
      obtain rfl := List.mem_singleton.mp h
      cases hc
  | cons d rest ih =>
      rw [splitAtChar] at h
      split at h
      · rcases List.mem_cons.mp h with rfl | h
        · cases hc
        · exact (ih h hc).imp_left (List.mem_cons_of_mem d)
      · rename_i hd
        split at h
        · obtain rfl := List.mem_singleton.mp h
          obtain rfl := List.mem_singleton.mp hc
          exact ⟨List.mem_cons_self, hd⟩
        · rename_i part parts hsplit
          rcases List.mem_cons.mp h with rfl | h
          · rcases List.mem_cons.mp hc with rfl | hc
            · exact ⟨List.mem_cons_self, hd⟩
            · have hpart : part ∈ splitAtChar separator rest := by
                rw [hsplit]
                exact List.mem_cons_self
              exact (ih hpart hc).imp_left (List.mem_cons_of_mem d)
          · have hparts : line ∈ splitAtChar separator rest := by
              rw [hsplit]
              exact List.mem_cons_of_mem part h
            exact (ih hparts hc).imp_left (List.mem_cons_of_mem d)

theorem not_mem_unifyLineEnds (s : List Char) : '\r' ∉ unifyLineEnds s := by
  fun_induction unifyLineEnds s with
  | case1 => simp
  | case2 rest ih => simpa using ih
  | case3 rest _ ih => simpa using ih
  | case4 c rest _ hc ih =>
      rw [List.mem_cons, not_or]
      exact ⟨Ne.symm hc, ih⟩

theorem unifyLineEnds_of_not_mem (h : '\r' ∉ s) : unifyLineEnds s = s := by
  fun_induction unifyLineEnds s with
  | case1 => rfl
  | case2 rest ih => exact absurd List.mem_cons_self h
  | case3 rest _ ih => exact absurd List.mem_cons_self h
  | case4 c rest _ hc ih => rw [ih fun hmem => h (List.mem_cons_of_mem c hmem)]

/-! ## Line boundaries inside a line -/

theorem isBlank_of_isLineBoundary (h : isLineBoundary c) : isBlank c := by
  simp only [isLineBoundary, Bool.or_eq_true, Bool.and_eq_true, decide_eq_true_eq, beq_iff_eq] at h
  simp only [isBlank, Bool.or_eq_true, Bool.and_eq_true, decide_eq_true_eq, beq_iff_eq]
  omega

/-- If a trimmed line holds a cut, what stands before the first cut is a start of the line. -/
theorem exists_lineBody_of_cut (hblank : ∀ c, cuts c → isBlank c) (hs : Trimmed isBlank s)
    (hc : c ∈ s) (hcut : cuts c) :
    ∃ start after, start ∈ lineBodies cuts [] s ∧ start ≠ [] ∧ after ≠ [] ∧ s = start ++ after := by
  obtain ⟨d, hd⟩ := Option.isSome_iff_exists.mp (List.find?_isSome.mpr ⟨c, hc, hcut⟩)
  obtain ⟨hdcut, line, rest, rfl, hline⟩ := List.find?_eq_some_iff_append.mp hd
  have huncut : ∀ c ∈ line, ¬ cuts c := by simpa using hline
  obtain ⟨a, line, rfl⟩ : ∃ a tail, line = a :: tail := by
    cases line with
    | nil =>
        have hfirst := hs.first d rfl
        rw [hblank d hdcut] at hfirst
        cases hfirst
    | cons a tail => exact ⟨a, tail, rfl⟩
  have ha : isBlank a = false := hs.first a rfl
  have htrim : trimChars (a :: line) ≠ [] := by
    intro hnil
    have hall := trimBy_eq_nil_iff.mp hnil a List.mem_cons_self
    rw [ha] at hall
    cases hall
  have hstarts : trimChars (a :: line) <+: a :: line := by
    rw [trimChars, trimBy_eq_rdropWhile, List.dropWhile_cons_of_neg (by simp [ha])]
    exact List.rdropWhile_prefix _ _
  obtain ⟨tail, htail⟩ := hstarts
  refine ⟨trimChars (a :: line), tail ++ d :: rest, ?_, htrim, by simp, ?_⟩
  · rw [lineBodies_append_cut hdcut, lineBodies_of_uncut huncut]
    exact List.mem_append_left _ (mem_lineBody.mpr ⟨rfl, htrim⟩)
  · rw [← List.append_assoc, htail]

end

end TraceExplorer.Text
