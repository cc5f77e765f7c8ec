import Mathlib.Data.List.Forall2
import Mathlib.Data.Nat.Bitwise
import TraceExplorer.Proofs.KeyedList
import TraceExplorer.Proofs.Text.Trim
import TraceExplorer.Text.Case

/-!
# Lowering twice

No form that lowering yields is moved again: the codes that the tables move and the codes that they
move them to are disjoint. So lowering a second time changes nothing, although a capital sigma is
lowered by its place. Lowering never erases a character and makes none blank.
-/

namespace TraceExplorer

/-- A code point that lowering keeps, wherever it stands. -/
def CodePoint.IsLow : CodePoint → Prop
  | .char c => ∀ before after, Text.lowerChar before c after = [c]
  | .surrogate _ => True

namespace Text

/-! ## Codes that are moved -/

def CaseRun.codes (run : CaseRun) : List Nat :=
  (List.range ((run.last - run.first) / run.step + 1)).map fun k => run.first + k * run.step

def movedCodes : List Nat := lowerExpansions.map (·.1) ++ lowerRuns.flatMap CaseRun.codes

def loweredCodes : List Nat :=
  lowerRuns.flatMap fun run => run.codes.map fun (code : Nat) => ((code : Int) + run.shift).toNat

/-- A set of codes as the binary digits of a number. -/
def codeMask (codes : List Nat) : Nat := codes.foldr (fun code mask => 2 ^ code ||| mask) 0

theorem testBit_codeMask {codes : List Nat} {code : Nat} :
    (codeMask codes).testBit code ↔ code ∈ codes := by
  induction codes with
  | nil => simp [codeMask]
  | cons first rest ih =>
      have hmask : codeMask (first :: rest) = 2 ^ first ||| codeMask rest := rfl
      rw [hmask, Nat.testBit_or, Bool.or_eq_true, ih, Nat.testBit_two_pow, decide_eq_true_iff,
        List.mem_cons, eq_comm]

theorem disjoint_of_codeMask {l l' : List Nat} (h : codeMask l &&& codeMask l' = 0) :
    ∀ code ∈ l, code ∉ l' := by
  intro code hl hl'
  have hboth : (codeMask l &&& codeMask l').testBit code := by
    rw [Nat.testBit_and, testBit_codeMask.mpr hl, testBit_codeMask.mpr hl']
    rfl
  simp [h] at hboth

theorem mem_codes_of_moves {run : CaseRun} {code : Nat} (h : run.moves code) :
    code ∈ run.codes := by
  simp only [CaseRun.moves, Bool.and_eq_true, decide_eq_true_eq, beq_iff_eq] at h
  obtain ⟨⟨hfirst, hlast⟩, hstep⟩ := h
  refine List.mem_map.mpr ⟨(code - run.first) / run.step, List.mem_range.mpr ?_, ?_⟩
  · have hle : (code - run.first) / run.step ≤ (run.last - run.first) / run.step :=
      Nat.div_le_div_right (by omega)
    omega
  · rw [Nat.div_mul_cancel (Nat.dvd_of_mod_eq_zero hstep)]
    omega

theorem notMem_movedCodes_of_lowered : ∀ code ∈ loweredCodes, code ∉ movedCodes :=
  disjoint_of_codeMask (by decide +kernel)

theorem valid_of_lowered :
    ∀ code ∈ loweredCodes, code.isValidChar ∧ isBlank (Char.ofNat code) = false := by
  have hall : (loweredCodes.all fun code =>
      decide code.isValidChar && !isBlank (Char.ofNat code)) = true := by decide +kernel
  simpa using hall

/-! ## Characters -/

section

variable {c : Char} {code : Nat} {before after : List CodePoint}

theorem toNat_ofNat (h : code.isValidChar) : (Char.ofNat code).toNat = code := by
  rw [Char.ofNat, dif_pos h]
  rfl

theorem toLower_of_upper (h : 0x41 ≤ c.toNat ∧ c.toNat ≤ 0x5A) :
    c.toLower = Char.ofNat (c.toNat + 32) := by
  have hvalid : (c.toNat + 32).isValidChar := Or.inl (by omega)
  have hrange : c.val ≥ 'A'.val ∧ c.val ≤ 'Z'.val := h
  have hlower : c.toLower.val = c.val + 32 := congrArg Char.val (dif_pos hrange)
  rw [← Char.toNat_inj, toNat_ofNat hvalid]
  change c.toLower.val.toNat = c.val.toNat + 32
  have hsmall : c.val.toNat ≤ 0x5A := h.2
  rw [hlower, UInt32.toNat_add]
  exact Nat.mod_eq_of_lt (by simp; omega)

theorem toLower_of_notUpper (h : ¬ (0x41 ≤ c.toNat ∧ c.toNat ≤ 0x5A)) : c.toLower = c :=
  dif_neg h

theorem mem_loweredCodes {run : CaseRun} (hrun : run ∈ lowerRuns) (hmoves : run.moves code) :
    (code + run.shift).toNat ∈ loweredCodes :=
  List.mem_flatMap.mpr ⟨run, hrun, List.mem_map.mpr ⟨code, mem_codes_of_moves hmoves, rfl⟩⟩

theorem mem_movedCodes (run : CaseRun) (hrun : run ∈ lowerRuns) (hmoves : run.moves code) :
    code ∈ movedCodes :=
  List.mem_append_right _ (List.mem_flatMap.mpr ⟨run, hrun, mem_codes_of_moves hmoves⟩)

theorem upper_moves (h : 0x41 ≤ code ∧ code ≤ 0x5A) :
    (⟨0x41, 0x5A, 1, 32⟩ : CaseRun).moves code := by
  simp [CaseRun.moves, h.1, h.2, Nat.mod_one]

theorem mapCase_of_unmoved (h : c.toNat ∉ movedCodes) :
    mapCase lowerExpansions lowerRuns c = [c] := by
  have hexpansion : lowerExpansions.lookup c.toNat = none := by
    rw [← Option.not_isSome_iff_eq_none, KeyedList.isSome_lookup_iff]
    exact fun hmem => h (List.mem_append_left _ hmem)
  have hrun : lowerRuns.find? (·.moves c.toNat) = none := by
    rw [List.find?_eq_none]
    exact fun run hmem hmoves => h (mem_movedCodes run hmem hmoves)
  rw [mapCase, hexpansion, hrun]

theorem isLow_of_kept (hsigma : c ≠ 'Σ') (hascii : c.toNat < 0x80 → c.toLower = c)
    (hmap : ¬ c.toNat < 0x80 → mapCase lowerExpansions lowerRuns c = [c]) :
    CodePoint.IsLow (.char c) := by
  intro before after
  rw [lowerChar, if_neg hsigma]
  split
  · rename_i hsmall
    rw [hascii hsmall]
  · rename_i hlarge
    exact hmap hlarge

theorem isLow_of_unmoved (h : c.toNat ∉ movedCodes) : CodePoint.IsLow (.char c) := by
  have hsigma : c ≠ 'Σ' := by
    rintro rfl
    exact h (mem_movedCodes ⟨0x3A3, 0x3AB, 1, 32⟩ (by decide) (by decide))
  have hupper : ¬ (0x41 ≤ c.toNat ∧ c.toNat ≤ 0x5A) := fun hupper =>
    h (mem_movedCodes _ (by decide) (upper_moves hupper))
  exact isLow_of_kept hsigma (fun _ => toLower_of_notUpper hupper) fun _ => mapCase_of_unmoved h

/-- What a code point becomes in lower case: some code points that lowering keeps, none of them
blank unless the code point is. -/
structure Lowers (a : CodePoint) (part : List CodePoint) : Prop where
  ne_nil : part ≠ []
  low : ∀ b ∈ part, b.IsLow
  solid : a.isChar isBlank = false → ∀ b ∈ part, b.isChar isBlank = false

theorem lowers_self {a : CodePoint} (h : a.IsLow) : Lowers a [a] :=
  ⟨List.cons_ne_nil _ _, by simpa using h, fun ha => by simpa using ha⟩

theorem lowers_lowered (h : code ∈ loweredCodes) (a : CodePoint) :
    Lowers a [.char (Char.ofNat code)] := by
  obtain ⟨hvalid, hblank⟩ := valid_of_lowered code h
  have hlow : CodePoint.IsLow (.char (Char.ofNat code)) := by
    apply isLow_of_unmoved
    rw [toNat_ofNat hvalid]
    exact notMem_movedCodes_of_lowered code h
  have hsolid : (CodePoint.char (Char.ofNat code)).isChar isBlank = false := hblank
  exact ⟨List.cons_ne_nil _ _, by simpa using hlow, fun _ => by simpa using hsolid⟩

theorem lowers_expansion {codes : List Nat} (h : lowerExpansions.lookup code = some codes)
    (a : CodePoint) : Lowers a ((codes.map Char.ofNat).map .char) := by
  obtain ⟨-, rfl⟩ : code = 0x130 ∧ codes = [0x69, 0x307] := by
    simpa [lowerExpansions] using KeyedList.mem_of_lookup h
  have hdot : 0x307 ∉ movedCodes := by decide +kernel
  have hi : 0x69 ∉ movedCodes := by decide +kernel
  refine ⟨by simp, ?_, fun _ => ?_⟩
  · intro b hb
    rcases List.mem_pair.mp hb with rfl | rfl
    · exact isLow_of_unmoved hi
    · exact isLow_of_unmoved hdot
  · intro b hb
    rcases List.mem_pair.mp hb with rfl | rfl <;> decide

theorem lowers_mapCase (hsigma : c ≠ 'Σ') (hlarge : ¬ c.toNat < 0x80) :
    Lowers (.char c) ((mapCase lowerExpansions lowerRuns c).map .char) := by
  cases hexpansion : lowerExpansions.lookup c.toNat with
  | some codes =>
      rw [mapCase, hexpansion]
      exact lowers_expansion hexpansion _
  | none =>
      cases hrun : lowerRuns.find? (·.moves c.toNat) with
      | some run =>
          have hmem := List.mem_of_find?_eq_some hrun
          have hmoves : run.moves c.toNat := by simpa using List.find?_some hrun
          rw [mapCase, hexpansion, hrun]
          exact lowers_lowered (mem_loweredCodes hmem hmoves) _
      | none =>
          have hkept : mapCase lowerExpansions lowerRuns c = [c] := by
            rw [mapCase, hexpansion, hrun]
          rw [hkept]
          exact lowers_self
            (isLow_of_kept hsigma (fun hsmall => absurd hsmall hlarge) fun _ => hkept)

theorem lowers_sigma {d : Char} (h : d = 'σ' ∨ d = 'ς') : Lowers (.char c) [.char d] := by
  have hmedial : 'σ'.toNat ∉ movedCodes := by decide +kernel
  have hfinal : 'ς'.toNat ∉ movedCodes := by decide +kernel
  have hlow : CodePoint.IsLow (.char d) := by
    rcases h with rfl | rfl
    · exact isLow_of_unmoved hmedial
    · exact isLow_of_unmoved hfinal
  have hsolid : (CodePoint.char d).isChar isBlank = false := by
    rcases h with rfl | rfl <;> decide
  exact ⟨List.cons_ne_nil _ _, by simpa using hlow, fun _ => by simpa using hsolid⟩

theorem lowers_lowerChar (c : Char) (before after : List CodePoint) :
    Lowers (.char c) ((lowerChar before c after).map .char) := by
  by_cases hsigma : c = 'Σ'
  · rw [lowerChar, if_pos hsigma]
    split
    · exact lowers_sigma (.inr rfl)
    · exact lowers_sigma (.inl rfl)
  · by_cases hsmall : c.toNat < 0x80
    · rw [lowerChar, if_neg hsigma, if_pos hsmall]
      by_cases hupper : 0x41 ≤ c.toNat ∧ c.toNat ≤ 0x5A
      · rw [toLower_of_upper hupper]
        exact lowers_lowered (mem_loweredCodes (by decide) (upper_moves hupper)) _
      · have hkept := toLower_of_notUpper hupper
        rw [hkept]
        exact lowers_self (isLow_of_kept hsigma (fun _ => hkept) fun hlarge => absurd hsmall hlarge)
    · rw [lowerChar, if_neg hsigma, if_neg hsmall]
      exact lowers_mapCase hsigma hsmall

end

/-! ## Texts -/

section

variable {s : Text} {points : List CodePoint} {parts : List (List CodePoint)}

/-- Lowering replaces each code point by its own form. -/
theorem exists_parts (before points : List CodePoint) :
    ∃ parts, List.Forall₂ Lowers points parts ∧ lowerAfter before points = parts.flatten := by
  induction points generalizing before with
  | nil => exact ⟨[], .nil, rfl⟩
  | cons a rest ih =>
      obtain ⟨parts, hparts, heq⟩ := ih (a :: before)
      cases a with
      | char c =>
          refine ⟨_ :: parts, .cons (lowers_lowerChar c before rest) hparts, ?_⟩
          rw [lowerAfter, heq, List.flatten_cons]
      | surrogate half =>
          refine ⟨[.surrogate half] :: parts, .cons (lowers_self trivial) hparts, ?_⟩
          rw [lowerAfter, heq, List.flatten_cons, List.singleton_append]
          exact fun c h => CodePoint.noConfusion h

theorem low_of_parts (h : List.Forall₂ Lowers points parts) :
    ∀ b ∈ parts.flatten, b.IsLow := by
  induction h with
  | nil => simp
  | cons hfirst _ ih =>
      intro b hb
      rw [List.flatten_cons, List.mem_append] at hb
      exact hb.elim (hfirst.low b) (ih b)

theorem flatten_eq_nil_of_parts (h : List.Forall₂ Lowers points parts) :
    parts.flatten = [] ↔ points = [] := by
  cases h with
  | nil => simp
  | cons hfirst _ => simp [hfirst.ne_nil]

theorem trimmed_of_parts (h : List.Forall₂ Lowers points parts)
    (htrimmed : Trimmed (·.isChar isBlank) points) :
    Trimmed (·.isChar isBlank) parts.flatten := by
  constructor
  · intro b hb
    cases h with
    | nil => simp at hb
    | @cons a part _ _ hfirst _ =>
        have hpart : b ∈ part := by
          rw [List.flatten_cons, List.head?_append_of_ne_nil _ hfirst.ne_nil] at hb
          exact List.mem_of_head? hb
        exact hfirst.solid (htrimmed.first a rfl) b hpart
  · intro b hb
    -- Only what is known of the last code point survives the step to the rest.
    have hlast := htrimmed.last
    clear htrimmed
    induction h with
    | nil => simp at hb
    | @cons a part points parts hfirst hrest ih =>
        cases points with
        | nil =>
            cases hrest
            have hpart : b ∈ part := List.mem_of_getLast? (by simpa using hb)
            exact hfirst.solid (hlast a rfl) b hpart
        | cons a' points =>
            have hne : parts.flatten ≠ [] := by
              rw [Ne, flatten_eq_nil_of_parts hrest]
              exact List.cons_ne_nil _ _
            rw [List.flatten_cons, List.getLast?_append_of_ne_nil _ hne] at hb
            exact ih hb hlast

theorem lowerAfter_eq_self (before : List CodePoint) (h : ∀ a ∈ points, a.IsLow) :
    lowerAfter before points = points := by
  induction points generalizing before with
  | nil => rfl
  | cons a rest ih =>
      have hrest := ih (a :: before) fun b hb => h b (List.mem_cons_of_mem _ hb)
      cases a with
      | char c =>
          have hlow := h (.char c) List.mem_cons_self before rest
          rw [lowerAfter, hlow, hrest]
          rfl
      | surrogate half =>
          rw [lowerAfter, hrest]
          exact fun c h => CodePoint.noConfusion h

theorem isLow_of_mem_lower (s : Text) : ∀ a ∈ s.lower.points, a.IsLow := by
  obtain ⟨parts, hparts, heq⟩ := exists_parts [] s.points
  intro a ha
  exact low_of_parts hparts a (heq ▸ ha)

theorem lower_eq_self (h : ∀ a ∈ s.points, a.IsLow) : s.lower = s :=
  congrArg Text.mk (lowerAfter_eq_self [] h)

/-- Lowering a second time changes nothing. -/
theorem lower_lower (s : Text) : s.lower.lower = s.lower := lower_eq_self (isLow_of_mem_lower s)

/-- Lowering erases nothing. -/
theorem isEmpty_lower (s : Text) : s.lower.isEmpty = s.isEmpty := by
  obtain ⟨parts, hparts, heq⟩ := exists_parts [] s.points
  rw [isEmpty, isEmpty, lower, heq, Bool.eq_iff_iff, List.isEmpty_iff, List.isEmpty_iff]
  exact flatten_eq_nil_of_parts hparts

theorem lower_ofChars {chars : List Char} (h : ∀ c ∈ chars, c.toNat < 0x80) :
    (ofChars chars).lower = ofChars (chars.map Char.toLower) := by
  have hafter (before : List CodePoint) :
      lowerAfter before (chars.map .char) = (chars.map Char.toLower).map .char := by
    induction chars generalizing before with
    | nil => rfl
    | cons c rest ih =>
        obtain ⟨hc, hrest⟩ := List.forall_mem_cons.mp h
        have hsigma : c ≠ 'Σ' := by
          rintro rfl
          exact absurd hc (by decide)
        rw [List.map_cons, lowerAfter, lowerChar, if_neg hsigma, if_pos hc, ih hrest]
        rfl
  exact congrArg Text.mk (hafter [])

theorem exists_lower_ofChars (chars : List Char) :
    ∃ lowered, (ofChars chars).lower = ofChars lowered := by
  have hafter (before : List CodePoint) :
      ∃ lowered : List Char, lowerAfter before (chars.map .char) = lowered.map .char := by
    induction chars generalizing before with
    | nil => exact ⟨[], rfl⟩
    | cons c rest ih =>
        obtain ⟨lowered, hrest⟩ := ih (.char c :: before)
        refine ⟨lowerChar before c (rest.map .char) ++ lowered, ?_⟩
        rw [List.map_cons, lowerAfter, hrest, List.map_append]
  obtain ⟨lowered, hlowered⟩ := hafter []
  exact ⟨lowered, congrArg Text.mk hlowered⟩

theorem trimmed_lower (h : Trimmed (·.isChar isBlank) s.points) :
    Trimmed (·.isChar isBlank) s.lower.points := by
  obtain ⟨parts, hparts, heq⟩ := exists_parts [] s.points
  rw [lower, heq]
  exact trimmed_of_parts hparts h

end

end Text

end TraceExplorer
