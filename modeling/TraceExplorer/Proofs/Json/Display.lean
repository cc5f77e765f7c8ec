import TraceExplorer.Json.Value

/-!
# Texts of values

A value that counts as present has a text.
-/

namespace TraceExplorer.Json.Value

open Number (Scalar)

section

variable {s t : String}

theorem isEmpty_ofString_iff : (Text.ofString s).isEmpty ↔ s = "" := by
  rw [Text.isEmpty, Text.ofString, Text.ofChars, List.isEmpty_iff, List.map_eq_nil_iff,
    String.toList_eq_nil_iff]

theorem append_ne_empty (h : s ≠ "") : s ++ t ≠ "" := by
  intro hempty
  exact h (String.append_eq_empty_iff.mp hempty).1

theorem ofList_ne_empty {chars : List Char} {c : Char} (h : c ∈ chars) :
    String.ofList chars ≠ "" := by
  intro hempty
  rw [String.ofList_eq_empty_iff] at hempty
  simp [hempty] at h

end

theorem point_mem_positionalText (digits : List Char) (leading : Int) :
    '.' ∈ Number.positionalText digits leading := by
  rw [Number.positionalText]
  split <;> simp

theorem mark_mem_scientificText (digits : List Char) (leading : Int) :
    'e' ∈ Number.scientificText digits leading := by
  simp [Number.scientificText]

theorem shortestText_ne_empty (style : Number.DecimalStyle) (q : Rat) :
    String.ofList (Number.shortestText style q) ≠ "" := by
  rw [Number.shortestText]
  dsimp only
  split
  · exact ofList_ne_empty (point_mem_positionalText _ _)
  · exact ofList_ne_empty (mark_mem_scientificText _ _)

theorem scalar_display_ne_empty (x : Scalar) : x.display ≠ "" := by
  have hdigits (n : Nat) : Nat.repr n ≠ "" := by
    obtain ⟨c, hc⟩ := List.exists_mem_of_ne_nil _ (Nat.toDigits_ne_nil (n := n) (b := 10))
    exact ofList_ne_empty hc
  cases x with
  | whole n =>
      cases n with
      | ofNat n => exact hdigits n
      | negSucc n => exact append_ne_empty (by decide)
  | real x =>
      cases x with
      | nan => decide
      | infinite negative => cases negative <;> decide
      | negativeZero => decide
      | finite q =>
          rw [Scalar.display, Number.Double.toText]
          split
          · decide
          · split
            · exact append_ne_empty (by decide)
            · exact shortestText_ne_empty _ _

/-- A value that counts as present has a text. -/
theorem isEmpty_display {v : Value} (h : v.isTruthy) : v.display.isEmpty = false := by
  rw [Bool.eq_false_iff]
  cases v with
  | text s => simpa [isTruthy, display] using h
  | null => cases h
  | bool b =>
      obtain rfl : b = true := h
      decide
  | number x => exact fun hempty => scalar_display_ne_empty x (isEmpty_ofString_iff.mp hempty)
  | list items =>
      intro hempty
      have hquoted : quoted (.list items) = "" := isEmpty_ofString_iff.mp hempty
      rw [quoted] at hquoted
      exact append_ne_empty (append_ne_empty (by decide)) hquoted
  | object fields =>
      intro hempty
      have hquoted : quoted (.object fields) = "" := isEmpty_ofString_iff.mp hempty
      rw [quoted] at hquoted
      exact append_ne_empty (append_ne_empty (by decide)) hquoted

end TraceExplorer.Json.Value
