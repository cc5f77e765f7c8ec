import TraceExplorer.Proofs.Json.Taking

/-!
# Numbers beyond the limit

A whole number of more digits than the limit is no JSON value, though its text has the form of one.
-/

namespace TraceExplorer.Json

open Number (isAsciiDigit digitLimit spanDigits)

section

variable {c : Char} {digits : List Char}

theorem isAtomChar_of_isAsciiDigit (h : isAsciiDigit c) : isAtomChar c := by
  simp [isAtomChar, h]

theorem atomChars_of_digits (h : ∀ d ∈ digits, isAsciiDigit d) :
    atomChars (digits.map .char) = digits := by
  have hall : ∀ p ∈ digits.map CodePoint.char, p.isChar isAtomChar := by
    intro p hp
    obtain ⟨d, hd, rfl⟩ := List.mem_map.mp hp
    exact isAtomChar_of_isAsciiDigit (h d hd)
  rw [atomChars, List.takeWhile_eq_self_iff.mpr hall, List.filterMap_map]
  exact List.filterMap_some

theorem readNumber_of_digits (h : ∀ d ∈ c :: digits, isAsciiDigit d) (hc : c ≠ '0')
    (hlong : digitLimit ≤ digits.length) : readNumber (c :: digits) = .error .integerTooLong := by
  have hminus : c ≠ '-' := by
    rintro rfl
    exact absurd (h '-' List.mem_cons_self) (by decide)
  have hwhole : spanWhole (c :: digits) = (c :: digits, []) := by
    have hspan : spanDigits (c :: digits) = (c :: digits, []) := by
      rw [spanDigits, List.takeWhile_eq_self_iff.mpr h, List.dropWhile_eq_nil_iff.mpr h]
    rw [spanWhole]
    · exact hspan
    · rintro rest heq
      exact hc (List.cons.inj heq).1
  have hlimit : digitLimit < (c :: digits).length := Nat.lt_succ_of_le hlong
  rw [readNumber]
  · simp only [hwhole, spanPoint, spanExponent, List.isEmpty_cons, Bool.false_eq_true, if_false,
      if_pos hlimit]
  · rintro rest heq
    exact hminus (List.cons.inj heq).1

theorem readAtom_of_digits (h : ∀ d ∈ c :: digits, isAsciiDigit d) (hc : c ≠ '0')
    (hlong : digitLimit ≤ digits.length) :
    readAtom ((c :: digits).map .char) = .error .integerTooLong := by
  rw [readAtom, atomChars_of_digits h, List.find?_eq_none.mpr]
  · simp only [readNumber_of_digits h hc hlong]
  · rintro ⟨word, v⟩ hmem hstarts
    -- no word starts with a digit
    have hfirst : ∀ p ∈ words, p.1.toList.head?.any fun d => !isAsciiDigit d := by decide +kernel
    obtain ⟨d, hd, hdigit⟩ := (Option.any_eq_true _ _).mp (hfirst _ hmem)
    obtain ⟨tail, htail⟩ := List.head?_eq_some_iff.mp hd
    obtain ⟨rest, hrest⟩ := List.isPrefixOf_iff_prefix.mp hstarts
    rw [htail] at hrest
    obtain rfl := (List.cons.inj hrest).1
    simp [h d List.mem_cons_self] at hdigit

/-- Digits in too large a number are not read. -/
theorem read_of_digits (h : ∀ d ∈ c :: digits, isAsciiDigit d) (hc : c ≠ '0')
    (hlong : digitLimit ≤ digits.length) :
    read (Text.ofChars (c :: digits)) = .error .integerTooLong := by
  have hne (d : Char) (hd : isAsciiDigit d = false) : CodePoint.char c ≠ .char d := by
    rintro ⟨⟩
    rw [h c List.mem_cons_self] at hd
    cases hd
  have hspace : ¬ (CodePoint.char c).isChar isSpace := by
    intro hspace
    simp only [CodePoint.isChar, isSpace, Bool.or_eq_true, decide_eq_true_eq] at hspace
    rcases hspace with ((rfl | rfl) | rfl) | rfl <;> exact hne _ (by decide) rfl
  have hmark : (Text.ofChars (c :: digits)).points.head? ≠ some (.char '\uFEFF') := by
    simpa [Text.ofChars] using hne '\uFEFF' (by decide)
  have hvalue : readValue depthLimit (skipSpace (Text.ofChars (c :: digits)).points) =
      .error .integerTooLong := by
    rw [show skipSpace (Text.ofChars (c :: digits)).points = (c :: digits).map .char from
      skipSpace_cons_of_neg hspace, List.map_cons, readValue]
    · rw [← List.map_cons, readAtom_of_digits h hc hlong]
    · exact fun rest heq => hne '"' (by decide) (List.cons.inj heq).1
    · exact fun rest heq => hne '[' (by decide) (List.cons.inj heq).1
    · exact fun rest heq => hne '\x7b' (by decide) (List.cons.inj heq).1
  rw [read, if_neg hmark, hvalue]
  rfl

end

end TraceExplorer.Json
