import Mathlib.Data.List.TakeWhile
import TraceExplorer.Proofs.Json.Yields

/-!
# What reading takes from a text

A reader takes white space and printable code points only, and what it reads does not depend on
the text behind it. A word or a number is the exception: more letters or digits could belong to it.
-/

namespace TraceExplorer.Json

open Number (hexValue?)

section

variable {depth opened width : Nat} {taken s r rest left w : List CodePoint} {t : Text} {v : Value}
  {items : List Value} {fields all : List (Text × Value)} {c : CodePoint}

/-! ## What is taken -/

/-- White space, or no control character. -/
def Permitted (c : CodePoint) : Prop := c.isChar isSpace ∨ 0x20 ≤ c.code

instance (c : CodePoint) : Decidable (Permitted c) := inferInstanceAs (Decidable (_ ∨ _))

/-- Permitted code points are taken from the start of a text. -/
def Consumes (s left : List CodePoint) : Prop :=
  ∃ read, s = read ++ left ∧ ∀ c ∈ read, Permitted c

theorem Consumes.refl (s : List CodePoint) : Consumes s s := ⟨[], rfl, by simp⟩

theorem Consumes.trans (h : Consumes s rest) (h' : Consumes rest left) : Consumes s left := by
  obtain ⟨read, rfl, hread⟩ := h
  obtain ⟨more, rfl, hmore⟩ := h'
  refine ⟨read ++ more, (List.append_assoc _ _ _).symm, ?_⟩
  rw [List.forall_mem_append]
  exact ⟨hread, hmore⟩

theorem Consumes.cons (h : Consumes s left) (hc : Permitted c) : Consumes (c :: s) left := by
  obtain ⟨read, rfl, hread⟩ := h
  exact ⟨c :: read, rfl, List.forall_mem_cons.mpr ⟨hc, hread⟩⟩

theorem Consumes.mem (h : Consumes s left) (hc : c ∈ left) : c ∈ s := by
  obtain ⟨read, rfl, -⟩ := h
  exact List.mem_append_right read hc

theorem consumes_drop {n : Nat} (h : ∀ c ∈ s.take n, Permitted c) : Consumes s (s.drop n) :=
  ⟨s.take n, (List.take_append_drop n s).symm, h⟩

theorem consumes_skipSpace (s : List CodePoint) : Consumes s (skipSpace s) :=
  ⟨s.takeWhile (·.isChar isSpace), List.takeWhile_append_dropWhile.symm,
    fun _ hc => .inl (List.mem_takeWhile_imp hc)⟩

/-- White space and one more code point. -/
theorem consumes_of_skipSpace (h : skipSpace s = c :: left) (hc : Permitted c) :
    Consumes s left := by
  have hspace := consumes_skipSpace s
  rw [h] at hspace
  exact hspace.trans ((Consumes.refl left).cons hc)

theorem skipSpace_cons_of_neg (h : ¬ c.isChar isSpace) : skipSpace (c :: s) = c :: s :=
  List.dropWhile_cons_of_neg h

theorem skipSpace_append (h : skipSpace s ≠ []) : skipSpace (s ++ w) = skipSpace s ++ w := by
  rw [skipSpace, List.dropWhile_append, if_neg]
  · rfl
  · rwa [List.isEmpty_iff]

theorem skipSpace_append_cons (h : skipSpace s = c :: left) :
    skipSpace (s ++ w) = c :: (left ++ w) := by
  rw [skipSpace_append (by simp [h]), h, List.cons_append]

theorem skipSpace_append_of_nil (h : skipSpace s = []) : skipSpace (s ++ w) = skipSpace w := by
  rw [skipSpace] at h
  rw [skipSpace, List.dropWhile_append, h]
  rfl

theorem mem_of_skipSpace (h : skipSpace s = c :: left) : c ∈ s := by
  have hmem : c ∈ skipSpace s := by rw [h]; exact List.mem_cons_self
  exact (consumes_skipSpace s).mem hmem

theorem length_lt_of_skipSpace (h : skipSpace s = c :: left) : left.length < s.length := by
  have hle := length_skipSpace_le s
  rw [h] at hle
  exact hle

/-! ## Escapes -/

theorem permitted_of_le {c d : Char} (hd : 0x20 ≤ d.toNat) (h : d ≤ c) : Permitted (.char c) :=
  .inr (Nat.le_trans hd h)

theorem permitted_of_hexValue? {c : Char} {n : Nat} (h : hexValue? c = some n) :
    Permitted (.char c) := by
  simp only [hexValue?, Bool.and_eq_true, decide_eq_true_eq] at h
  split at h
  · rename_i hc
    exact permitted_of_le (by decide) hc.1
  split at h
  · rename_i hc
    exact permitted_of_le (by decide) hc.1
  split at h
  · rename_i hc
    exact permitted_of_le (by decide) hc.1
  · cases h

theorem permitted_of_shortEscape? {e : Char} (h : c.char?.bind shortEscape? = some e) :
    Permitted c := by
  obtain ⟨d, hd, hshort⟩ := Option.bind_eq_some_iff.mp h
  cases c with
  | surrogate half => cases hd
  | char c =>
      obtain rfl := Option.some.inj hd
      unfold shortEscape? at hshort
      split at hshort <;> first | exact .inr (by decide) | cases hshort

theorem permitted_of_hexDigits {l : List CodePoint} {n m : Nat}
    (h : l.foldlM (fun n p => do return 16 * n + (← hexValue? (← p.char?))) n = some m) :
    ∀ c ∈ l, Permitted c := by
  induction l generalizing n with
  | nil => simp
  | cons c rest ih =>
      rw [List.foldlM_cons] at h
      obtain ⟨k, hk, hrest⟩ := Option.bind_eq_some_iff.mp h
      obtain ⟨d, hd, hk⟩ := Option.bind_eq_some_iff.mp hk
      obtain ⟨x, hx, -⟩ := Option.bind_eq_some_iff.mp hk
      rw [List.forall_mem_cons]
      refine ⟨?_, ih hrest⟩
      cases c with
      | surrogate half => cases hd
      | char c =>
          obtain rfl := Option.some.inj hd
          exact permitted_of_hexValue? hx

theorem permitted_of_hexFour? {n : Nat} (h : hexFour? s = some n) :
    ∀ c ∈ s.take 4, Permitted c := by
  obtain ⟨_, -, h⟩ := Option.bind_eq_some_iff.mp h
  exact permitted_of_hexDigits h

theorem hexFour?_append (h : 4 ≤ s.length) : hexFour? (s ++ w) = hexFour? s := by
  have hlong : 4 ≤ (s ++ w).length := by rw [List.length_append]; omega
  have hguard : (guard (4 ≤ (s ++ w).length) : Option Unit) = guard (4 ≤ s.length) :=
    (if_pos hlong).trans (if_pos h).symm
  rw [hexFour?, hexFour?, hguard, List.take_append_of_le_length h]

theorem readCodeEscape_spec (h : readCodeEscape s = .ok (c, width)) :
    4 < s.length ∧ ∃ high, hexFour? s = some high ∧ (width = 4 ∨
      width = 10 ∧ 10 < s.length ∧ s[4]? = some (.char '\\') ∧ s[5]? = some (.char 'u') ∧
        ∃ low, hexFour? (s.drop 6) = some low) := by
  rw [readCodeEscape] at h
  cases hhigh : hexFour? s with
  | none => simp [hhigh] at h
  | some high =>
      simp only [hhigh] at h
      split at h
      · cases h
      · rename_i hlength
        refine ⟨Nat.not_le.mp hlength, high, rfl, ?_⟩
        split at h
        · rename_i hpair
          simp only [Bool.and_eq_true, decide_eq_true_eq, beq_iff_eq] at hpair
          obtain ⟨⟨⟨-, hlong⟩, hslash⟩, hu⟩ := hpair
          cases hlow : hexFour? (s.drop 6) with
          | none => simp [hlow] at h
          | some low =>
              simp only [hlow] at h
              split at h
              · obtain ⟨-, rfl⟩ := Prod.mk.inj (Except.ok.inj h)
                exact .inr ⟨rfl, hlong, hslash, hu, low, rfl⟩
              · obtain ⟨-, rfl⟩ := Prod.mk.inj (Except.ok.inj h)
                exact .inl rfl
        · obtain ⟨-, rfl⟩ := Prod.mk.inj (Except.ok.inj h)
          exact .inl rfl

theorem consumes_readCodeEscape (h : readCodeEscape s = .ok (c, width)) :
    Consumes s (s.drop width) := by
  apply consumes_drop
  obtain ⟨-, high, hhigh, rfl | ⟨rfl, -, hslash, hu, low, hlow⟩⟩ := readCodeEscape_spec h
  · exact permitted_of_hexFour? hhigh
  · have htake : s.take 10 = s.take 4 ++ .char '\\' :: .char 'u' :: (s.drop 6).take 4 := by
      match s, hslash, hu with
      | _ :: _ :: _ :: _ :: d :: e :: rest, hslash, hu =>
          obtain rfl := Option.some.inj hslash
          obtain rfl := Option.some.inj hu
          rfl
    rw [htake, List.forall_mem_append, List.forall_mem_cons, List.forall_mem_cons]
    exact ⟨permitted_of_hexFour? hhigh, .inr (by decide), .inr (by decide),
      permitted_of_hexFour? hlow⟩

/-- More text does not change an escape that is not followed by the start of another one. -/
theorem readCodeEscape_append (h : readCodeEscape s = .ok (c, width))
    (hnext : 10 < s.length ∨
      ¬ ((s ++ w)[4]? = some (.char '\\') ∧ (s ++ w)[5]? = some (.char 'u'))) :
    readCodeEscape (s ++ w) = .ok (c, width) := by
  obtain ⟨hlength, high, hhigh, -⟩ := readCodeEscape_spec h
  have hlength' : ¬ (s ++ w).length ≤ 4 := by rw [List.length_append]; omega
  rw [readCodeEscape] at h ⊢
  rw [hexFour?_append hlength.le]
  simp only [hhigh, if_neg (Nat.not_le.mpr hlength), if_neg hlength'] at h ⊢
  by_cases hlong : 10 < s.length
  -- both escapes of a pair stand in `s`, so every test sees the same characters
  · have hlong' : 10 < (s ++ w).length := by rw [List.length_append]; omega
    have hdrop : 4 ≤ (s.drop 6).length := by rw [List.length_drop]; omega
    rw [List.drop_append_of_le_length (by omega), hexFour?_append hdrop,
      List.getElem?_append_left hlength, List.getElem?_append_left (by omega)]
    simp only [hlong, hlong'] at h ⊢
    split
    · rename_i hpair
      rw [if_pos hpair] at h
      cases hlow : hexFour? (s.drop 6) with
      | none => simp [hlow] at h
      | some low => simpa only [hlow] using h
    · rename_i hpair
      rwa [if_neg hpair] at h
  · have hnext := hnext.resolve_left hlong
    rw [if_neg (by simp [hlong])] at h
    split
    · rename_i hpair
      simp only [Bool.and_eq_true, beq_iff_eq] at hpair
      exact absurd ⟨hpair.1.2, hpair.2⟩ hnext
    · exact h

theorem width_le_of_readCodeEscape (h : readCodeEscape s = .ok (c, width)) :
    width ≤ s.length := by
  obtain ⟨hlength, high, -, rfl | ⟨rfl, hlong, -⟩⟩ := readCodeEscape_spec h
  · exact hlength.le
  · exact hlong.le

/-! ## Words and numbers -/

theorem permitted_of_isAtomChar {c : Char} (h : isAtomChar c) : Permitted (.char c) := by
  have hcontrols : ∀ n < 0x20, isAtomChar (Char.ofNat n) = false := by decide
  refine .inr (Nat.not_lt.mp fun hcontrol => ?_)
  have hnot := hcontrols c.toNat hcontrol
  rw [Char.ofNat_toNat, h] at hnot
  cases hnot

theorem length_atomChars_le (s : List CodePoint) :
    (atomChars s).length ≤ (s.takeWhile (·.isChar isAtomChar)).length :=
  List.length_filterMap_le _ _

theorem atomChars_append (h : ∃ c ∈ s, c.isChar isAtomChar = false) :
    atomChars (s ++ w) = atomChars s := by
  obtain ⟨c, hc, hatom⟩ := h
  rw [atomChars, List.takeWhile_append, if_neg, ← atomChars]
  intro hlength
  have hall : s.takeWhile (·.isChar isAtomChar) = s :=
    (List.takeWhile_prefix _).eq_of_length hlength
  rw [← hall] at hc
  have hc := List.mem_takeWhile_imp hc
  simp [hatom] at hc

/-- How much an atom takes is decided by its own characters. -/
theorem readAtom_spec (h : readAtom s = .ok (v, left)) :
    ∃ n ≤ (atomChars s).length, left = s.drop n ∧
      ∀ r, atomChars r = atomChars s → readAtom r = .ok (v, r.drop n) := by
  rw [readAtom] at h
  split at h
  · rename_i word value hword
    obtain ⟨rfl, rfl⟩ := Prod.mk.inj (Except.ok.inj h)
    have hstarts := List.find?_some hword
    refine ⟨word.length, ?_, rfl, fun r hr => ?_⟩
    · simp only [List.isPrefixOf_iff_prefix] at hstarts
      simpa only [String.length_toList] using hstarts.length_le
    · rw [readAtom, hr]
      simp only [hword]
  · rename_i hword
    cases hnumber : readNumber (atomChars s) with
    | error stop => simp [hnumber] at h
    | ok p =>
        cases p with
        | none => simp [hnumber] at h
        | some p =>
            obtain ⟨value, after⟩ := p
            simp only [hnumber] at h
            obtain ⟨rfl, rfl⟩ := Prod.mk.inj (Except.ok.inj h)
            refine ⟨_, Nat.sub_le _ after.length, rfl, fun r hr => ?_⟩
            rw [readAtom, hr]
            simp only [hword, hnumber]

theorem consumes_readAtom (h : readAtom s = .ok (v, left)) : Consumes s left := by
  obtain ⟨n, hn, rfl, -⟩ := readAtom_spec h
  apply consumes_drop
  intro c hc
  have hn := hn.trans (length_atomChars_le s)
  have hstarts : s.take n <+: s.takeWhile (·.isChar isAtomChar) :=
    List.prefix_of_prefix_length_le (List.take_prefix n s) (List.takeWhile_prefix _)
      ((List.length_take_le n s).trans hn)
  have hatom := List.mem_takeWhile_imp (hstarts.subset hc)
  cases c with
  | char c => exact permitted_of_isAtomChar hatom
  | surrogate half => cases hatom

theorem readAtom_append (h : readAtom s = .ok (v, left))
    (hstop : ∃ c ∈ s, c.isChar isAtomChar = false) : readAtom (s ++ w) = .ok (v, left ++ w) := by
  obtain ⟨n, hn, rfl, hread⟩ := readAtom_spec h
  have hn := hn.trans (length_atomChars_le s)
  have hlength : n ≤ s.length := hn.trans (List.takeWhile_prefix _).length_le
  rw [hread _ (atomChars_append hstop), List.drop_append_of_le_length hlength]

theorem number_of_readNumber {chars after : List Char}
    (h : readNumber chars = .ok (some (v, after))) : ∃ x, v = .number x := by
  simp only [readNumber] at h
  obtain ⟨-, h⟩ | ⟨-, h⟩ := ite_eq_iff.mp h
  · cases h
  split at h
  · obtain ⟨-, h⟩ | ⟨-, h⟩ := ite_eq_iff.mp h
    · cases h
    · obtain ⟨rfl, -⟩ := Prod.mk.inj (Option.some.inj (Except.ok.inj h))
      exact ⟨_, rfl⟩
  · obtain ⟨rfl, -⟩ := Prod.mk.inj (Option.some.inj (Except.ok.inj h))
    exact ⟨_, rfl⟩

theorem readAtom_ne_object : readAtom s ≠ .ok (.object fields, left) := by
  intro h
  rw [readAtom] at h
  split at h
  · rename_i word value hword
    obtain ⟨rfl, -⟩ := Prod.mk.inj (Except.ok.inj h)
    have hmem := List.mem_of_find?_eq_some hword
    simp [words] at hmem
  · split at h
    · cases h
    · cases h
    · rename_i value after hnumber
      obtain ⟨rfl, -⟩ := Prod.mk.inj (Except.ok.inj h)
      obtain ⟨x, hx⟩ := number_of_readNumber hnumber
      cases hx

end

end TraceExplorer.Json
