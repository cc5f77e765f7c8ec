import TraceExplorer.Proofs.Number.Hexadecimal
import TraceExplorer.Proofs.Span.Id

/-!
# Ids as hexadecimal numbers

Hexadecimal digits, in either case and with blanks around them, spell the id of the number that they
denote: the number in lower case, in as many digits as it is given with and in sixteen at least. So
spellings of up to sixteen digits are one id exactly if they denote one number.
-/

namespace TraceExplorer

open Number (hexNumber hexNumber_lt hexNumber_hexDigits natInBase? natInBase?_of_isHex
  length_hexDigits isHex_of_mem_hexDigits hexDigits_hexNumber hexDigits_add)
open Schema.HexPattern (isHex ascii_of_isHex trimmed_of_isHex)
open Text

/-- Hexadecimal digits in either case, at least one, with blanks around them. -/
structure HexSpelling where
  before : List Char
  digits : List Char
  after : List Char
  before_blank : ∀ c ∈ before, isBlank c
  ne_nil : digits ≠ []
  hex : ∀ c ∈ digits, isHex c
  after_blank : ∀ c ∈ after, isBlank c

namespace HexSpelling

def text (x : HexSpelling) : Text := ofChars (x.before ++ x.digits ++ x.after)

def number (x : HexSpelling) : Nat := hexNumber x.digits

/-- The number of digits of the id that is spelled. -/
def width (x : HexSpelling) : Nat := max x.digits.length idWidth

section

variable (x y : HexSpelling)

theorem trim_text : x.text.trim = ofChars x.digits := by
  rw [text, trim_ofChars, trimBy_between x.before_blank x.after_blank,
    (trimmed_of_isHex x.hex).trimBy_eq]

theorem lower_trim_text : lower x.text.trim = ofChars (hexDigits x.digits.length x.number) := by
  rw [trim_text, lower_ofChars fun c hc => ascii_of_isHex (x.hex c hc), number,
    hexDigits_hexNumber x.hex]

theorem number_lt : x.number < 16 ^ x.width :=
  (hexNumber_lt x.hex).trans_le (Nat.pow_le_pow_right (by decide) (Nat.le_max_left _ _))

/-- The id that is spelled is the number in lower case and in full width. -/
theorem normalizeId_text :
    normalizeId (.text x.text) = some (ofChars (hexDigits x.width x.number)) := by
  have hsome : x.text.trim.isEmpty = false := by
    rw [trim_text]
    exact List.isEmpty_eq_false_iff.mpr (mt List.map_eq_nil_iff.mp x.ne_nil)
  have hwidth : x.width = idWidth - x.digits.length + x.digits.length := by
    rw [width, Nat.sub_add_eq_max, Nat.max_comm]
  rw [normalizeId_eq_canonicalId, canonicalId_eq_some_iff]
  refine ⟨hsome, ?_⟩
  rw [lower_trim_text, padLeft_ofChars, length_hexDigits, hwidth]
  exact congrArg ofChars (hexDigits_add _ (hexNumber_lt x.hex)).symm

/-- Two spellings are one id exactly if they denote one number in one width. -/
theorem normalizeId_text_eq_iff : normalizeId (.text x.text) = normalizeId (.text y.text) ↔
    x.width = y.width ∧ x.number = y.number := by
  rw [normalizeId_text, normalizeId_text]
  constructor
  · intro h
    have hdigits := ofChars_injective (Option.some.inj h)
    have hwidth := congrArg List.length hdigits
    have hnumber := congrArg hexNumber hdigits
    rw [length_hexDigits, length_hexDigits] at hwidth
    rw [hexNumber_hexDigits, hexNumber_hexDigits, Nat.mod_eq_of_lt x.number_lt,
      Nat.mod_eq_of_lt y.number_lt] at hnumber
    exact ⟨hwidth, hnumber⟩
  · rintro ⟨hwidth, hnumber⟩
    rw [hwidth, hnumber]

theorem natInBase?_hexDigits : natInBase? 16 (hexDigits x.width x.number) = some x.number := by
  have hne : hexDigits x.width x.number ≠ [] := by
    rw [← List.length_pos_iff, length_hexDigits]
    exact Nat.lt_of_lt_of_le (by decide) (Nat.le_max_right _ _)
  rw [natInBase?_of_isHex hne (isHex_of_mem_hexDigits _ _), hexNumber_hexDigits,
    Nat.mod_eq_of_lt x.number_lt]

end

end HexSpelling

theorem normalizeId_blank {blanks : List Char} (h : ∀ c ∈ blanks, isBlank c) :
    normalizeId (.text (ofChars blanks)) = none := by
  have htrim : (ofChars blanks).trim = ofChars [] := by
    rw [trim_ofChars, trimBy_eq_nil_iff.mpr h]
  rw [normalizeId_eq_canonicalId, canonicalId, htrim]
  rfl

/-- An id is its own id, and what names no id goes on to name none. -/
theorem normalizeId_normalizeId (v : Json.Value) :
    normalizeId ((normalizeId v).elim .null .text) = normalizeId v := by
  cases h : normalizeId v with
  | none => rfl
  | some id => exact normalizeId_eq_self (isCanonical_of_normalizeId h)

/-- Up to sixteen digits, two spellings are one id exactly if they denote one number. The id of a
spelling has as many digits and sixteen at least, denotes the same number, and is its own id. Blanks
without a digit are no id, and the id of an id, or of none, is the same again. -/
theorem normalizeId_represents_numbers :
    (∀ x y : HexSpelling, x.digits.length ≤ idWidth → y.digits.length ≤ idWidth →
        (normalizeId (.text x.text) = normalizeId (.text y.text) ↔ x.number = y.number)) ∧
      (∀ x : HexSpelling, natInBase? 16 x.digits = some x.number ∧
        ∃ digits, normalizeId (.text x.text) = some (ofChars digits) ∧
          digits.length = max x.digits.length idWidth ∧
          natInBase? 16 digits = some x.number ∧
          normalizeId (.text (ofChars digits)) = some (ofChars digits)) ∧
      (∀ blanks : List Char, (∀ c ∈ blanks, isBlank c) →
        normalizeId (.text (ofChars blanks)) = none) ∧
      ∀ v, normalizeId ((normalizeId v).elim .null .text) = normalizeId v := by
  refine ⟨fun x y hx hy => ?_, fun x => ⟨natInBase?_of_isHex x.ne_nil x.hex, ?_⟩,
    fun blanks => normalizeId_blank, normalizeId_normalizeId⟩
  · have hwidth : x.width = y.width := by
      rw [HexSpelling.width, HexSpelling.width, Nat.max_eq_right hx, Nat.max_eq_right hy]
    rw [x.normalizeId_text_eq_iff, and_iff_right hwidth]
  · have hid := x.normalizeId_text
    have hagain := normalizeId_eq_self (isCanonical_of_normalizeId hid)
    exact ⟨_, hid, length_hexDigits _ _, x.natInBase?_hexDigits, hagain⟩

/-- Case, zeros in front and blanks of any script do not matter, but the last digit does. -/
theorem normalizeId_represents_numbers_of_capitals :
    let x : HexSpelling := {
      before := [], digits := ['0', 'a', 'F', '7'], after := ['\n']
      before_blank := List.all_eq_true.mp rfl, ne_nil := List.cons_ne_nil _ _
      hex := List.all_eq_true.mp rfl, after_blank := List.all_eq_true.mp rfl }
    let y : HexSpelling := {
      before := ['\u2003', ' '], digits := ['A', 'f', '7'], after := []
      before_blank := List.all_eq_true.mp rfl, ne_nil := List.cons_ne_nil _ _
      hex := List.all_eq_true.mp rfl, after_blank := List.all_eq_true.mp rfl }
    let z : HexSpelling := {
      before := [], digits := ['a', 'f', '8'], after := []
      before_blank := List.all_eq_true.mp rfl, ne_nil := List.cons_ne_nil _ _
      hex := List.all_eq_true.mp rfl, after_blank := List.all_eq_true.mp rfl }
    x.digits.length ≤ idWidth ∧ y.digits.length ≤ idWidth ∧ z.digits.length ≤ idWidth ∧
      x.number = 0xAF7 ∧ y.number = 0xAF7 ∧ z.number = 0xAF8 ∧
      normalizeId (.text x.text) = normalizeId (.text y.text) ∧
      normalizeId (.text x.text) ≠ normalizeId (.text z.text) ∧
      (∀ c ∈ ['\t', '\u00A0'], isBlank c) ∧
      normalizeId (.text (ofChars ['\t', '\u00A0'])) = none := by
  intro x y z
  obtain ⟨hsame, -, hblank, -⟩ := normalizeId_represents_numbers
  have hx : x.digits.length ≤ idWidth := by decide
  have hy : y.digits.length ≤ idWidth := by decide
  have hz : z.digits.length ≤ idWidth := by decide
  have hxy : x.number = y.number := by decide
  have hxz : x.number ≠ z.number := by decide
  have hblanks : ∀ c ∈ ['\t', '\u00A0'], isBlank c := List.all_eq_true.mp rfl
  exact ⟨hx, hy, hz, rfl, rfl, rfl, (hsame x y hx hy).mpr hxy, mt (hsame x z hx hz).mp hxz,
    hblanks, hblank _ hblanks⟩

end TraceExplorer
