import TraceExplorer.Proofs.Text.Lower
import TraceExplorer.Schema.Basic

/-!
# Hexadecimal texts

A pattern admits hexadecimal digits of a length within its bounds, alone or with a line feed behind
them. Lowering and trimming such a text leaves the digits in lower case.
-/

namespace TraceExplorer

namespace Text

theorem chars?_eq_some_iff {s : Text} {chars : List Char} :
    s.chars? = some chars ↔ s = ofChars chars := by
  constructor
  · obtain ⟨points⟩ := s
    intro h
    induction points generalizing chars with
    | nil =>
        obtain rfl : chars = [] := by simpa [chars?] using h.symm
        rfl
    | cons a rest ih =>
        rw [chars?, List.mapM_cons] at h
        obtain ⟨c, hc, h⟩ := Option.bind_eq_some_iff.mp h
        obtain ⟨chars', hrest, h⟩ := Option.bind_eq_some_iff.mp h
        obtain rfl := Option.some.inj h
        cases a with
        | surrogate half => cases hc
        | char d =>
            obtain rfl := Option.some.inj hc
            have htail := congrArg Text.points (ih hrest)
            exact congrArg (fun tail => Text.mk (.char d :: tail)) htail
  · rintro rfl
    exact chars?_ofChars chars

theorem trim_ofChars (chars : List Char) : (ofChars chars).trim = ofChars (trimBy isBlank chars) :=
  congrArg Text.mk (trimBy_map CodePoint.char chars)

end Text

namespace Schema.HexPattern

open Text

section

variable {p : HexPattern} {s : Text} {c : Char} {digits : List Char}

/-! ## Digits -/

theorem isHex_iff : isHex c ↔
    (0x30 ≤ c.toNat ∧ c.toNat ≤ 0x39) ∨ (0x61 ≤ c.toNat ∧ c.toNat ≤ 0x66) ∨
      (0x41 ≤ c.toNat ∧ c.toNat ≤ 0x46) := by
  simp only [isHex, Bool.or_eq_true, Bool.and_eq_true, decide_eq_true_eq, or_assoc]
  rfl

theorem isBlank_of_isHex (h : isHex c) : isBlank c = false := by
  have hcode := isHex_iff.mp h
  simp only [isBlank, Bool.or_eq_false_iff, Bool.and_eq_false_iff, decide_eq_false_iff_not,
    beq_eq_false_iff_ne]
  omega

theorem isHex_toLower (h : isHex c) : isHex c.toLower := by
  by_cases hupper : 0x41 ≤ c.toNat ∧ c.toNat ≤ 0x5A
  · have hvalid : (c.toNat + 32).isValidChar := Or.inl (by omega)
    have hcode := isHex_iff.mp h
    rw [toLower_of_upper hupper, isHex_iff, toNat_ofNat hvalid]
    omega
  · rw [toLower_of_notUpper hupper]
    exact h

theorem ascii_of_isHex (h : isHex c) : c.toNat < 0x80 := by
  have hcode := isHex_iff.mp h
  omega

theorem trimmed_of_isHex (h : ∀ c ∈ digits, isHex c) : Trimmed isBlank digits :=
  ⟨fun c hc => isBlank_of_isHex (h c (List.mem_of_head? hc)),
    fun c hc => isBlank_of_isHex (h c (List.mem_of_getLast? hc))⟩

/-! ## Admitted texts -/

theorem dropFinalLineFeed_of_isHex (h : ∀ c ∈ digits, isHex c) :
    dropFinalLineFeed digits = digits := by
  rw [dropFinalLineFeed, if_neg]
  intro hlast
  have hfeed := h _ (List.mem_of_getLast? hlast)
  exact absurd hfeed (by decide)

theorem admits_iff : p.admits s ↔ ∃ digits,
    (s = ofChars digits ∨ s = ofChars (digits ++ ['\n'])) ∧ (∀ c ∈ digits, isHex c) ∧
      p.least ≤ digits.length ∧ digits.length ≤ p.most := by
  constructor
  · intro h
    rw [admits] at h
    cases hchars : s.chars? with
    | none => simp [hchars] at h
    | some chars =>
        simp only [hchars, Bool.and_eq_true, List.all_eq_true, decide_eq_true_eq] at h
        obtain ⟨⟨hhex, hleast⟩, hmost⟩ := h
        refine ⟨dropFinalLineFeed chars, ?_, hhex, hleast, hmost⟩
        obtain rfl := chars?_eq_some_iff.mp hchars
        rw [dropFinalLineFeed]
        split
        · rename_i hlast
          rw [List.dropLast_append_getLast? _ hlast]
          exact .inr rfl
        · exact .inl rfl
  · rintro ⟨digits, hs, hhex, hleast, hmost⟩
    obtain ⟨chars, hchars, hdigits⟩ :
        ∃ chars, s.chars? = some chars ∧ dropFinalLineFeed chars = digits := by
      rcases hs with rfl | rfl
      · exact ⟨_, chars?_ofChars _, dropFinalLineFeed_of_isHex hhex⟩
      · refine ⟨_, chars?_ofChars _, ?_⟩
        rw [dropFinalLineFeed, if_pos List.getLast?_concat, List.dropLast_concat]
    simp only [admits, hchars, hdigits, Bool.and_eq_true, List.all_eq_true, decide_eq_true_eq]
    exact ⟨⟨hhex, hleast⟩, hmost⟩

theorem admits_ofChars (hhex : ∀ c ∈ digits, isHex c) (hleast : p.least ≤ digits.length)
    (hmost : digits.length ≤ p.most) : p.admits (ofChars digits) :=
  admits_iff.mpr ⟨digits, .inl rfl, hhex, hleast, hmost⟩

/-- What trimming and lowering leave of an admitted text is as long and is admitted too. -/
theorem exists_lower_trim (h : p.admits s) : ∃ digits,
    s.trim.lower = ofChars digits ∧ (∀ c ∈ digits, isHex c) ∧
      p.least ≤ digits.length ∧ digits.length ≤ p.most := by
  obtain ⟨digits, hs, hhex, hleast, hmost⟩ := admits_iff.mp h
  have htrimmed := trimmed_of_isHex hhex
  have htrim : s.trim = ofChars digits := by
    rcases hs with rfl | rfl
    · rw [trim_ofChars, htrimmed.trimBy_eq]
    · rw [trim_ofChars, trimBy_append_of_pos (by decide), htrimmed.trimBy_eq]
  refine ⟨digits.map Char.toLower, ?_, ?_, ?_, ?_⟩
  · rw [htrim]
    exact lower_ofChars fun c hc => ascii_of_isHex (hhex c hc)
  · exact List.forall_mem_map.mpr fun c hc => isHex_toLower (hhex c hc)
  · rwa [List.length_map]
  · rwa [List.length_map]

end

end Schema.HexPattern

end TraceExplorer
