import TraceExplorer.Proofs.Text.Lines

/-!
# Numbers of lines

What stands on the lines of a text is numbered by the lines. Blanks dropped from the end of a text
change no number, while each line feed among the blanks dropped from its start takes one off every
number. Both ways to cut a text number the lines alike if it has no line boundary but line feeds.
-/

namespace TraceExplorer.Text

section

variable {c separator : Char} {s line body : List Char} {lines more : List (List Char)}
  {number : Nat}

/-! ## Counting lines -/

/-- What stands on lines that are counted from a number, each with the number of its line. -/
def numbered : Nat → List (List Char) → List (List Char × Nat)
  | _, [] => []
  | number, line :: rest => (lineBody line).map (·, number) ++ numbered (number + 1) rest

theorem numbered_append (number : Nat) (lines more : List (List Char)) :
    numbered number (lines ++ more) =
      numbered number lines ++ numbered (number + lines.length) more := by
  induction lines generalizing number with
  | nil => rfl
  | cons line rest ih =>
      rw [List.cons_append, numbered, numbered, ih, List.length_cons, List.append_assoc,
        Nat.add_assoc, Nat.add_comm 1]

theorem map_fst_numbered (number : Nat) (lines : List (List Char)) :
    (numbered number lines).map (·.1) = lines.flatMap lineBody := by
  induction lines generalizing number with
  | nil => rfl
  | cons line rest ih =>
      rw [numbered, List.map_append, ih, List.flatMap_cons, List.map_map]
      congr 1
      exact List.map_id _

/-- A number leads back to the line. -/
theorem mem_numbered_iff {n : Nat} :
    (body, n) ∈ numbered number lines ↔
      ∃ i line, lines[i]? = some line ∧ n = number + i ∧ body = trimChars line ∧ body ≠ [] := by
  induction lines generalizing number with
  | nil => simp [numbered]
  | cons line rest ih =>
      have hfirst : (body, n) ∈ (lineBody line).map (·, number) ↔
          n = number ∧ body = trimChars line ∧ body ≠ [] := by
        simp only [List.mem_map, Prod.mk.injEq, mem_lineBody]
        constructor
        · rintro ⟨_, h, rfl, rfl⟩
          exact ⟨rfl, h⟩
        · rintro ⟨rfl, h⟩
          exact ⟨body, h, rfl, rfl⟩
      rw [numbered, List.mem_append, hfirst, ih]
      constructor
      · rintro (⟨rfl, h⟩ | ⟨i, line', hline, rfl, h⟩)
        · exact ⟨0, line, rfl, rfl, h⟩
        · exact ⟨i + 1, line', hline, by omega, h⟩
      · rintro ⟨i, line', hline, rfl, h⟩
        cases i with
        | zero =>
            obtain rfl := Option.some.inj hline
            exact .inl ⟨rfl, h⟩
        | succ i => exact .inr ⟨i, line', hline, by omega, h⟩

/-! ## Cutting at a character -/

theorem exists_splitAtChar (separator : Char) (s : List Char) :
    ∃ part parts, splitAtChar separator s = part :: parts := by
  cases s with
  | nil => exact ⟨[], [], rfl⟩
  | cons c rest =>
      rw [splitAtChar]
      split
      · exact ⟨_, _, rfl⟩
      · split <;> exact ⟨_, _, rfl⟩

theorem splitAtChar_cons_of_ne {part : List Char} (hc : c ≠ separator)
    (h : splitAtChar separator s = part :: lines) :
    splitAtChar separator (c :: s) = (c :: part) :: lines := by
  rw [splitAtChar, if_neg hc, h]

theorem splitAtChar_of_not_mem (h : separator ∉ s) : splitAtChar separator s = [s] := by
  induction s with
  | nil => rfl
  | cons c rest ih =>
      rw [List.mem_cons, not_or] at h
      exact splitAtChar_cons_of_ne (Ne.symm h.1) (ih h.2)

theorem splitAtChar_append_cons (h : separator ∉ line) :
    splitAtChar separator (line ++ separator :: s) = line :: splitAtChar separator s := by
  induction line with
  | nil => exact if_pos rfl
  | cons c rest ih =>
      rw [List.mem_cons, not_or] at h
      exact splitAtChar_cons_of_ne (Ne.symm h.1) (ih h.2)

theorem exists_mem_splitAtChar (hc : c ∈ s) (hne : c ≠ separator) :
    ∃ part ∈ splitAtChar separator s, c ∈ part := by
  induction s with
  | nil => cases hc
  | cons d rest ih =>
      obtain ⟨part, parts, hrest⟩ := exists_splitAtChar separator rest
      by_cases hd : d = separator
      · obtain ⟨part, hpart, hmem⟩ := ih ((List.mem_cons.mp hc).resolve_left (hd ▸ hne))
        exact ⟨part, by rw [splitAtChar, if_pos hd]; exact List.mem_cons_of_mem _ hpart, hmem⟩
      · rw [splitAtChar_cons_of_ne hd hrest]
        rcases List.mem_cons.mp hc with rfl | hc
        · exact ⟨_, List.mem_cons_self, List.mem_cons_self⟩
        · obtain ⟨other, hother, hmem⟩ := ih hc
          rw [hrest] at hother
          rcases List.mem_cons.mp hother with rfl | hother
          · exact ⟨_, List.mem_cons_self, List.mem_cons_of_mem d hmem⟩
          · exact ⟨other, List.mem_cons_of_mem _ hother, hmem⟩

theorem splitAtChar_concat_self (separator : Char) (s : List Char) :
    splitAtChar separator (s ++ [separator]) = splitAtChar separator s ++ [[]] := by
  induction s with
  | nil => exact if_pos rfl
  | cons d rest ih =>
      by_cases hd : d = separator
      · rw [List.cons_append, splitAtChar, splitAtChar, if_pos hd, if_pos hd, ih]
        rfl
      · obtain ⟨part, parts, hrest⟩ := exists_splitAtChar separator rest
        rw [hrest] at ih
        exact (splitAtChar_cons_of_ne hd ih).trans
          (congrArg (· ++ [[]]) (splitAtChar_cons_of_ne hd hrest).symm)

/-- A character that does not cut goes to the end of the last part. -/
theorem exists_splitAtChar_concat (hc : c ≠ separator) (s : List Char) :
    ∃ parts last, splitAtChar separator s = parts ++ [last] ∧
      splitAtChar separator (s ++ [c]) = parts ++ [last ++ [c]] := by
  induction s with
  | nil => exact ⟨[], [], rfl, splitAtChar_cons_of_ne hc rfl⟩
  | cons d rest ih =>
      obtain ⟨parts, last, hrest, hconcat⟩ := ih
      by_cases hd : d = separator
      · refine ⟨[] :: parts, last, ?_, ?_⟩
        · rw [splitAtChar, if_pos hd, hrest, List.cons_append]
        · rw [List.cons_append, splitAtChar, if_pos hd, hconcat, List.cons_append]
      · cases parts with
        | nil => exact ⟨[], d :: last, splitAtChar_cons_of_ne hd hrest,
            splitAtChar_cons_of_ne hd hconcat⟩
        | cons part parts => exact ⟨(d :: part) :: parts, last,
            splitAtChar_cons_of_ne hd hrest, splitAtChar_cons_of_ne hd hconcat⟩

/-! ## Blanks at the ends -/

/-- The number of line feeds among the blanks that a text starts with. -/
def leadingFeeds (s : List Char) : Nat := (s.takeWhile isBlank).count '\n'

theorem numbered_cons_blank (number : Nat) (h : isBlank c) :
    numbered number (splitAtChar '\n' (c :: s)) =
      numbered (number + if c = '\n' then 1 else 0) (splitAtChar '\n' s) := by
  by_cases hc : c = '\n'
  · rw [splitAtChar, if_pos hc, if_pos hc]
    rfl
  · obtain ⟨part, parts, hsplit⟩ := exists_splitAtChar '\n' s
    rw [splitAtChar_cons_of_ne hc hsplit, hsplit, if_neg hc, Nat.add_zero, numbered, numbered,
      lineBody_cons_blank h]

theorem numbered_concat_blank (number : Nat) (h : isBlank c) :
    numbered number (splitAtChar '\n' (s ++ [c])) = numbered number (splitAtChar '\n' s) := by
  by_cases hc : c = '\n'
  · subst hc
    rw [splitAtChar_concat_self, numbered_append]
    exact List.append_nil _
  · obtain ⟨parts, last, hsplit, hconcat⟩ := exists_splitAtChar_concat hc s
    rw [hconcat, hsplit, numbered_append, numbered_append, numbered, lineBody_append_blank h]
    rfl

theorem numbered_dropWhile (number : Nat) (s : List Char) :
    numbered number (splitAtChar '\n' s) =
      numbered (number + leadingFeeds s) (splitAtChar '\n' (s.dropWhile isBlank)) := by
  induction s generalizing number with
  | nil => rfl
  | cons c rest ih =>
      by_cases h : isBlank c
      · rw [numbered_cons_blank number h, ih, List.dropWhile_cons_of_pos h, leadingFeeds,
          leadingFeeds, List.takeWhile_cons_of_pos h, List.count_cons]
        congr 1
        simp only [beq_iff_eq]
        omega
      · rw [List.dropWhile_cons_of_neg h, leadingFeeds, List.takeWhile_cons_of_neg h]
        rfl

theorem numbered_rdropWhile (number : Nat) (s : List Char) :
    numbered number (splitAtChar '\n' (s.rdropWhile isBlank)) =
      numbered number (splitAtChar '\n' s) := by
  induction s using List.reverseRecOn with
  | nil => rfl
  | append_singleton rest c ih =>
      by_cases h : isBlank c
      · rw [List.rdropWhile_concat_pos _ _ _ h, ih, numbered_concat_blank number h]
      · rw [List.rdropWhile_concat_neg _ _ _ h]

/-- The lines of a trimmed text have the numbers that they have in the whole text if they are
counted from behind the lines that were dropped. -/
theorem numbered_trimChars (number : Nat) (s : List Char) :
    numbered (number + leadingFeeds s) (splitAtChar '\n' (trimChars s)) =
      numbered number (splitAtChar '\n' s) := by
  rw [trimChars, trimBy_eq_rdropWhile, numbered_rdropWhile, ← numbered_dropWhile]

/-- Counting from further on adds to each number. -/
theorem numbered_add (number k : Nat) (lines : List (List Char)) :
    numbered (number + k) lines = (numbered number lines).map fun p => (p.1, p.2 + k) := by
  induction lines generalizing number with
  | nil => rfl
  | cons line rest ih =>
      rw [numbered, numbered, List.map_append, ← ih, List.map_map, Nat.add_right_comm]
      rfl

/-! ## Cutting at all line boundaries -/

def HasPlainLines (s : List Char) : Prop := ∀ c ∈ s, isLineBoundary c → c = '\n'

-- The instance is named, as there are too many characters to look at them all.
instance (s : List Char) : Decidable (HasPlainLines s) :=
  List.decidableBAll (fun c => isLineBoundary c → c = '\n') s

theorem numbered_splitBoundaries (number : Nat) (hline : '\n' ∉ line) (h : HasPlainLines s) :
    numbered number (splitBoundaries line s) =
      numbered number (splitAtChar '\n' (line.reverse ++ s)) := by
  fun_induction splitBoundaries line s generalizing number with
  | case1 => rfl
  | case2 line _ => rw [List.append_nil, splitAtChar_of_not_mem (by simpa using hline)]
  | case3 line rest ih => cases h '\r' List.mem_cons_self (by decide)
  | case4 line c rest _ hcut ih =>
      obtain rfl := h c List.mem_cons_self hcut
      rw [splitAtChar_append_cons (by simpa using hline), numbered, numbered,
        ih _ List.not_mem_nil fun d hd => h d (List.mem_cons_of_mem _ hd)]
      rfl
  | case5 line c rest _ hcut ih =>
      have hne : '\n' ≠ c := by
        rintro rfl
        exact hcut (by decide)
      rw [ih number (by simp [hne, hline]) fun d hd => h d (List.mem_cons_of_mem _ hd),
        List.reverse_cons, List.append_assoc, List.singleton_append]

end

/-! ## Lines of a text -/

def numberedBodies (lines : List String) : List (List Char × Nat) :=
  numbered 1 (lines.map String.toList)

theorem map_toList_plainLines (s : String) :
    (plainLines s).map String.toList = splitAtChar '\n' s.toList := by
  rw [plainLines, List.map_map]
  exact List.map_id'' (fun _ => String.toList_ofList) _

theorem map_toList_fullLines (s : String) :
    (fullLines s).map String.toList = splitBoundaries [] s.toList := by
  rw [fullLines, List.map_map]
  exact List.map_id'' (fun _ => String.toList_ofList) _

theorem map_fst_numberedBodies (lines : List String) :
    (numberedBodies lines).map (·.1) = bodies lines := by
  rw [numberedBodies, map_fst_numbered, List.flatMap_map]
  rfl

theorem mem_numberedBodies_iff {lines : List String} {body : List Char} :
    (body, number) ∈ numberedBodies lines ↔
      ∃ i line, number = i + 1 ∧ lines[i]? = some line ∧ body = trimChars line.toList ∧
        body ≠ [] := by
  rw [numberedBodies, mem_numbered_iff]
  simp only [List.getElem?_map, Option.map_eq_some_iff]
  constructor
  · rintro ⟨i, _, ⟨line, hline, rfl⟩, rfl, hbody⟩
    exact ⟨i, line, Nat.add_comm 1 i, hline, hbody⟩
  · rintro ⟨i, line, rfl, hline, hbody⟩
    exact ⟨i, _, ⟨line, hline, rfl⟩, Nat.add_comm i 1, hbody⟩

/-- The lines of a trimmed text have smaller numbers by the line feeds before its first line. -/
theorem numberedBodies_plainLines_trim (s : String) :
    (numberedBodies (plainLines (String.ofList (trimChars s.toList)))).map
        (fun p => (p.1, p.2 + leadingFeeds s.toList)) = numberedBodies (plainLines s) := by
  rw [numberedBodies, numberedBodies, map_toList_plainLines, map_toList_plainLines,
    String.toList_ofList, ← numbered_add, numbered_trimChars]

theorem numberedBodies_fullLines {s : String} (h : HasPlainLines s.toList) :
    numberedBodies (fullLines s) = numberedBodies (plainLines s) := by
  rw [numberedBodies, numberedBodies, map_toList_fullLines, map_toList_plainLines,
    numbered_splitBoundaries 1 List.not_mem_nil h]
  rfl

end TraceExplorer.Text
