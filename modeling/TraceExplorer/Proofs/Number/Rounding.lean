import Mathlib.Algebra.Order.Field.Power
import Mathlib.Data.Nat.Log
import Mathlib.Data.Rat.Floor
import Mathlib.Tactic.Linarith
import TraceExplorer.Number.Double

/-!
# How far rounding moves a number

A number moves by at most half the spacing of the doubles around it, so it stays finite as long as
it is far from the largest double.
-/

namespace TraceExplorer.Number

section

variable {q bound : Rat}

theorem abs_roundHalfEven_sub_le (q : Rat) : |(roundHalfEven q : Rat) - q| ≤ 1 / 2 := by
  have hfloor : (q.floor : Rat) ≤ q := Int.floor_le q
  have hnext : q < q.floor + 1 := Int.lt_floor_add_one q
  rw [abs_le, roundHalfEven]
  split_ifs <;> push_cast <;> constructor <;> linarith

theorem roundHalfEven_nonneg (hq : 0 ≤ q) : 0 ≤ roundHalfEven q := by
  have hfloor : 0 ≤ q.floor := Int.floor_nonneg.mpr hq
  rw [roundHalfEven]
  split_ifs <;> omega

theorem power_two (e : Int) : power 2 e = (2 : Rat) ^ e := by
  rw [power]
  split
  · rename_i hpos
    obtain ⟨n, rfl⟩ := Int.eq_ofNat_of_zero_le hpos
    rw [zpow_natCast, Int.toNat_natCast]
    exact_mod_cast rfl
  · rename_i hneg
    obtain ⟨n, hn⟩ := Int.eq_ofNat_of_zero_le (Int.le_of_lt (Int.neg_pos_of_neg (not_le.mp hneg)))
    obtain rfl : e = -(n : Int) := by omega
    rw [zpow_neg, zpow_natCast, neg_neg, Int.toNat_natCast, one_div]
    exact_mod_cast rfl

/-- The leading binary digit of a positive rational does not exceed it. -/
theorem power_binaryExponent_le (hq : 0 < q) : power 2 (binaryExponent q) ≤ q := by
  rw [binaryExponent, settleExponent]
  split
  · have hnum : q.num.natAbs ≠ 0 := Int.natAbs_ne_zero.mpr (ne_of_gt (Rat.num_pos.mpr hq))
    have hlow : (2 : Rat) ^ q.num.natAbs.log2 ≤ q.num := by
      have h : (2 : Rat) ^ q.num.natAbs.log2 ≤ (q.num.natAbs : Rat) := by
        exact_mod_cast Nat.log2_self_le hnum
      rwa [← Int.cast_natCast, Int.natAbs_of_nonneg (le_of_lt (Rat.num_pos.mpr hq))] at h
    have hhigh : (q.den : Rat) ≤ 2 ^ (q.den.log2 + 1) := by
      exact_mod_cast le_of_lt Nat.lt_log2_self
    have hden : (0 : Rat) < q.den := by exact_mod_cast q.den_pos
    have hsplit : (2 : Rat) ^ ((q.num.natAbs.log2 : Int) - q.den.log2 - 1) =
        2 ^ q.num.natAbs.log2 / 2 ^ (q.den.log2 + 1) := by
      rw [sub_sub, zpow_sub₀ two_ne_zero]
      exact_mod_cast rfl
    calc power 2 ((q.num.natAbs.log2 : Int) - q.den.log2 - 1)
        = 2 ^ q.num.natAbs.log2 / 2 ^ (q.den.log2 + 1) := by rw [power_two, hsplit]
      _ ≤ q.num / q.den := div_le_div₀ (le_trans (by positivity) hlow) hlow hden hhigh
      _ = q := q.num_div_den
  · exact not_lt.mp ‹_›

theorem spacing_pos (q : Rat) : 0 < spacing q := by
  rw [spacing, power_two]
  positivity

/-- The doubles around a positive rational lie no further apart than the rational and one more. -/
theorem spacing_le (hq : 0 < q) : spacing q ≤ q + 1 := by
  have hmono {a b : Int} (h : a ≤ b) : power 2 a ≤ power 2 b := by
    rw [power_two, power_two]
    exact zpow_le_zpow_right₀ one_le_two h
  rw [spacing]
  rcases le_total (binaryExponent q) (-1022) with h | h
  · have hone : power 2 0 = 1 := by rw [power_two, zpow_zero]
    have hsmall : power 2 (max (binaryExponent q) (-1022) - 52) ≤ power 2 0 := hmono (by omega)
    linarith
  · have hlarge : power 2 (max (binaryExponent q) (-1022) - 52) ≤ power 2 (binaryExponent q) :=
      hmono (by omega)
    linarith [power_binaryExponent_le hq]

theorem abs_nearestMultiple_sub_le (q : Rat) : |nearestMultiple q - q| ≤ spacing q / 2 := by
  have hpos := spacing_pos q
  have hscaled : nearestMultiple q - q =
      ((roundHalfEven (q / spacing q) : Rat) - q / spacing q) * spacing q := by
    rw [nearestMultiple, sub_mul, div_mul_cancel₀ q (ne_of_gt hpos)]
  rw [hscaled, abs_mul, abs_of_pos hpos]
  linarith [mul_le_mul_of_nonneg_right (abs_roundHalfEven_sub_le (q / spacing q)) hpos.le]

theorem nearestMultiple_le (hq : 0 < q) : nearestMultiple q ≤ 2 * q + 1 := by
  linarith [le_abs_self (nearestMultiple q - q), abs_nearestMultiple_sub_le q, spacing_le hq]

theorem nearestMultiple_nonneg (hq : 0 < q) : 0 ≤ nearestMultiple q := by
  have hpos := spacing_pos q
  have hround : (0 : Rat) ≤ roundHalfEven (q / spacing q) := by
    exact_mod_cast roundHalfEven_nonneg (div_pos hq hpos).le
  exact mul_nonneg hround hpos.le

theorem roundHalfEven_le {k : Int} (h : q ≤ k) : roundHalfEven q ≤ k := by
  have hfloor : (q.floor : Rat) ≤ q := Int.floor_le q
  have hle : q.floor ≤ k := by exact_mod_cast hfloor.trans h
  rcases hle.lt_or_eq with hlt | heq
  · rw [roundHalfEven]
    split_ifs <;> omega
  · -- The number is whole, so that nothing is rounded.
    have hrest : q - q.floor < 1 / 2 := by
      rw [heq]
      linarith
    rw [roundHalfEven, if_pos hrest]
    exact hle

/-- Rounding does not pass a multiple of the spacing. -/
theorem nearestMultiple_le_multiple {k : Int} (h : q ≤ k * spacing q) :
    nearestMultiple q ≤ k * spacing q := by
  have hpos := spacing_pos q
  have hround : roundHalfEven (q / spacing q) ≤ k :=
    roundHalfEven_le ((div_le_iff₀ hpos).mpr h)
  exact mul_le_mul_of_nonneg_right (by exact_mod_cast hround) hpos.le

/-- Rounding does not pass a natural number that is a double. -/
theorem nearestMultiple_le_natCast {n : Nat} (hq : 0 < q) (hle : q ≤ n) (hn : n < 2 ^ 53) :
    nearestMultiple q ≤ n := by
  have hexponent : binaryExponent q < 53 := by
    have hlow := (power_binaryExponent_le hq).trans hle
    have hhigh : (n : Rat) < 2 ^ (53 : Int) := by exact_mod_cast hn
    rw [power_two] at hlow
    exact (zpow_lt_zpow_iff_right₀ one_lt_two).mp (hlow.trans_lt hhigh)
  -- The spacing is one over a power of two, so that the bound is a multiple of it.
  obtain ⟨m, hm⟩ := Int.eq_ofNat_of_zero_le
    (show 0 ≤ -(max (binaryExponent q) (-1022) - 52) by omega)
  have hspacing : (n : Rat) = ((n * 2 ^ m : Int) : Rat) * spacing q := by
    have hone : 2 ^ m * spacing q = 1 := by
      rw [spacing, power_two, ← zpow_natCast, ← zpow_add₀ two_ne_zero]
      rw [show (m : Int) + (max (binaryExponent q) (-1022) - 52) = 0 by omega, zpow_zero]
    push_cast
    rw [mul_assoc, hone, mul_one]
  rw [hspacing] at hle ⊢
  exact nearestMultiple_le_multiple hle

/-- A rational that is far from the largest double has a finite double near it. -/
theorem exists_value_ofRat (hq : 0 ≤ q) (hfar : 2 * q + 1 < Double.overflowBound) :
    ∃ v, (Double.ofRat q).value? = some v ∧ 0 ≤ v ∧ v ≤ 2 * q + 1 := by
  rcases hq.eq_or_lt with rfl | hq
  · exact ⟨0, rfl, le_rfl, by norm_num⟩
  · have hle := nearestMultiple_le hq
    have hfits : ¬ Double.overflowBound ≤ nearestMultiple q := not_le.mpr (hle.trans_lt hfar)
    have hsign : ¬ q < 0 := not_lt.mpr hq.le
    refine ⟨nearestMultiple q, ?_, nearestMultiple_nonneg hq, hle⟩
    rw [Double.ofRat, if_neg hq.ne', if_neg hsign]
    dsimp only
    rw [if_neg hfits]
    split
    · rename_i hzero
      rw [hzero, decide_eq_false hsign]
      rfl
    · rfl

end

end TraceExplorer.Number
