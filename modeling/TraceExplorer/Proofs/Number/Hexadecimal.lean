import TraceExplorer.Number.Numeral
import TraceExplorer.Proofs.Schema.HexPattern
import TraceExplorer.Text.Quoted

/-!
# Hexadecimal numbers

Hexadecimal digits denote a number in either case. Written in lower case and in as many digits, the
number is the same text in lower case, and in more digits there are zeros in front. Read back, some
of its last digits are the remainder by that power of sixteen.
-/

namespace TraceExplorer.Number

open Schema.HexPattern (isHex ascii_of_isHex)
open Text (hexDigit hexDigits)

def hexNumber (digits : List Char) : Nat :=
  digits.foldl (fun n c => 16 * n + (hexValue? c).getD 0) 0

section

variable {c : Char} {digits : List Char} {n : Nat}

/-! ## Digits -/

-- All digits are in ASCII, where each code can be checked.
theorem hexValue?_ofNat : ∀ code < 0x80, isHex (Char.ofNat code) →
    ∃ d < 16, hexValue? (Char.ofNat code) = some d ∧ hexDigit d = (Char.ofNat code).toLower := by
  decide +kernel

/-- A digit has a value, and written in lower case it is the digit of that value. -/
theorem exists_hexValue? (h : isHex c) :
    ∃ d < 16, hexValue? c = some d ∧ hexDigit d = c.toLower := by
  have hdigit := hexValue?_ofNat c.toNat (ascii_of_isHex h)
  rw [Char.ofNat_toNat] at hdigit
  exact hdigit h

theorem hexValue?_hexDigit : ∀ d < 16, hexValue? (hexDigit d) = some d := by
  decide

theorem isHex_hexDigit : ∀ d < 16, isHex (hexDigit d) := by
  decide

/-! ## Reading -/

theorem hexNumber_concat (digits : List Char) (c : Char) :
    hexNumber (digits ++ [c]) = 16 * hexNumber digits + (hexValue? c).getD 0 := by
  rw [hexNumber, List.foldl_concat]
  rfl

/-- Behind any number, the digits are read to the end. -/
theorem foldlM_digitValue? (h : ∀ c ∈ digits, isHex c) (n : Nat) :
    digits.foldlM (fun n c => (digitValue? 16 c).map (16 * n + ·)) n =
      some (digits.foldl (fun n c => 16 * n + (hexValue? c).getD 0) n) := by
  induction digits generalizing n with
  | nil => rfl
  | cons c rest ih =>
      obtain ⟨hc, hrest⟩ := List.forall_mem_cons.mp h
      obtain ⟨d, hlt, hd, -⟩ := exists_hexValue? hc
      have hvalue : digitValue? 16 c = some d := by simp [digitValue?, hd, hlt]
      rw [List.foldlM_cons, List.foldl_cons, hvalue, hd]
      exact ih hrest _

theorem natInBase?_of_isHex (hne : digits ≠ []) (h : ∀ c ∈ digits, isHex c) :
    natInBase? 16 digits = some (hexNumber digits) := by
  have hsome : ¬ digits.isEmpty := by simpa using hne
  rw [natInBase?, if_neg hsome, foldlM_digitValue? h, hexNumber]

theorem hexNumber_lt (h : ∀ c ∈ digits, isHex c) : hexNumber digits < 16 ^ digits.length := by
  induction digits using List.reverseRecOn with
  | nil => exact Nat.one_pos
  | append_singleton digits c ih =>
      obtain ⟨hdigits, hc⟩ := List.forall_mem_append.mp h
      obtain ⟨d, hlt, hd, -⟩ := exists_hexValue? (hc c List.mem_cons_self)
      have hbound := ih hdigits
      rw [hexNumber_concat, hd, Option.getD_some, List.length_append, List.length_singleton,
        pow_succ]
      omega

/-! ## Writing -/

theorem length_hexDigits (width n : Nat) : (hexDigits width n).length = width := by
  induction width generalizing n with
  | zero => rfl
  | succ width ih => rw [hexDigits, List.length_append, ih, List.length_singleton]

theorem isHex_of_mem_hexDigits (width n : Nat) : ∀ c ∈ hexDigits width n, isHex c := by
  induction width generalizing n with
  | zero => exact fun c hc => absurd hc List.not_mem_nil
  | succ width ih =>
      rw [hexDigits, List.forall_mem_append, List.forall_mem_singleton]
      exact ⟨ih _, isHex_hexDigit _ (Nat.mod_lt _ (by decide))⟩

theorem hexNumber_hexDigits (width n : Nat) : hexNumber (hexDigits width n) = n % 16 ^ width := by
  induction width generalizing n with
  | zero => exact (Nat.mod_one n).symm
  | succ width ih =>
      rw [hexDigits, hexNumber_concat, ih, hexValue?_hexDigit _ (Nat.mod_lt _ (by decide)),
        Option.getD_some, pow_succ', Nat.mod_mul, Nat.add_comm]

/-- Written in as many digits as it was read from, a number is the same digits in lower case. -/
theorem hexDigits_hexNumber (h : ∀ c ∈ digits, isHex c) :
    hexDigits digits.length (hexNumber digits) = digits.map Char.toLower := by
  induction digits using List.reverseRecOn with
  | nil => rfl
  | append_singleton digits c ih =>
      obtain ⟨hdigits, hc⟩ := List.forall_mem_append.mp h
      obtain ⟨d, hlt, hd, hlower⟩ := exists_hexValue? (hc c List.mem_cons_self)
      have hfront : (16 * hexNumber digits + d) / 16 = hexNumber digits := by omega
      have hlast : (16 * hexNumber digits + d) % 16 = d := by omega
      rw [hexNumber_concat, hd, Option.getD_some, List.length_append, List.length_singleton,
        hexDigits, hfront, hlast, ih hdigits, hlower, List.map_append, List.map_singleton]

theorem hexDigits_zero (width : Nat) : hexDigits width 0 = List.replicate width '0' := by
  induction width with
  | zero => rfl
  | succ width ih =>
      rw [hexDigits, Nat.zero_div, ih, List.replicate_succ']
      rfl

/-- In more digits than it needs, a number has zeros in front. -/
theorem hexDigits_add {width : Nat} (zeros : Nat) (h : n < 16 ^ width) :
    hexDigits (zeros + width) n = List.replicate zeros '0' ++ hexDigits width n := by
  induction width generalizing n with
  | zero =>
      obtain rfl := Nat.lt_one_iff.mp h
      rw [Nat.add_zero, hexDigits_zero, hexDigits, List.append_nil]
  | succ width ih =>
      have hfront : n / 16 < 16 ^ width := Nat.div_lt_of_lt_mul (by rwa [pow_succ'] at h)
      rw [Nat.add_succ, hexDigits, ih hfront, hexDigits, List.append_assoc]

end

end TraceExplorer.Number
