import TraceExplorer.Proofs.Number.Rounding

/-!
# Rounding keeps the order

No two numbers are rounded past each other. Where the doubles around both lie equally far apart,
this is so because both are rounded to multiples of one spacing. Else there is a power of two
between the two numbers, and neither is rounded past it.
-/

namespace TraceExplorer.Number

section

variable {p q : Rat} {k : Int}

theorem le_roundHalfEven (h : k ≤ q) : k ≤ roundHalfEven q := by
  have hfloor : k ≤ q.floor := Int.le_floor.mpr h
  rw [roundHalfEven]
  split_ifs <;> omega

theorem roundHalfEven_mono (h : p ≤ q) : roundHalfEven p ≤ roundHalfEven q := by
  have hfloor : p.floor ≤ q.floor := Int.floor_mono h
  rcases hfloor.eq_or_lt with heq | hlt
  · rw [roundHalfEven, roundHalfEven, heq]
    split_ifs <;> first | omega | linarith
  · have hbetween : p ≤ q.floor := by
      have hnext : (p.floor : Rat) + 1 ≤ q.floor := by exact_mod_cast hlt
      exact (Int.lt_floor_add_one p).le.trans hnext
    exact (roundHalfEven_le hbetween).trans (le_roundHalfEven (Int.floor_le q))

/-- A positive rational has no binary digit before its leading one. -/
theorem lt_power_binaryExponent_succ (hq : 0 < q) : q < power 2 (binaryExponent q + 1) := by
  rw [binaryExponent, settleExponent]
  split
  · rw [sub_add_cancel]
    exact ‹_›
  · have hhigh : (q.num : Rat) < 2 ^ (q.num.natAbs.log2 + 1) := by
      have h : (q.num.natAbs : Rat) < 2 ^ (q.num.natAbs.log2 + 1) := by
        exact_mod_cast Nat.lt_log2_self
      rwa [← Int.cast_natCast, Int.natAbs_of_nonneg (Rat.num_pos.mpr hq).le] at h
    have hlow : (2 : Rat) ^ q.den.log2 ≤ q.den := by
      exact_mod_cast Nat.log2_self_le q.den_ne_zero
    have hsplit : (2 : Rat) ^ ((q.num.natAbs.log2 : Int) - q.den.log2 + 1) =
        2 ^ (q.num.natAbs.log2 + 1) / 2 ^ q.den.log2 := by
      rw [sub_add_eq_add_sub, zpow_sub₀ two_ne_zero]
      exact_mod_cast rfl
    calc q = q.num / q.den := q.num_div_den.symm
      _ < 2 ^ (q.num.natAbs.log2 + 1) / 2 ^ q.den.log2 :=
          div_lt_div₀ hhigh hlow (by positivity) (by positivity)
      _ = power 2 ((q.num.natAbs.log2 : Int) - q.den.log2 + 1) := by rw [power_two, hsplit]

theorem binaryExponent_mono (hp : 0 < p) (h : p ≤ q) : binaryExponent p ≤ binaryExponent q := by
  have hlow := power_binaryExponent_le hp
  have hhigh := lt_power_binaryExponent_succ (hp.trans_le h)
  rw [power_two] at hlow hhigh
  have hlt := (zpow_lt_zpow_iff_right₀ one_lt_two).mp ((hlow.trans h).trans_lt hhigh)
  omega

/-! ## Multiples of the spacing -/

theorem le_nearestMultiple (h : k * spacing q ≤ q) : k * spacing q ≤ nearestMultiple q := by
  have hpos := spacing_pos q
  have hround : k ≤ roundHalfEven (q / spacing q) :=
    le_roundHalfEven ((le_div_iff₀ hpos).mpr h)
  exact mul_le_mul_of_nonneg_right (by exact_mod_cast hround) hpos.le

/-- A power of two is a multiple of the spacing of all numbers below it, and of those from it on up
to the next one. -/
theorem exists_multiple {e : Int} (hnormal : -1022 ≤ e) (h : binaryExponent q ≤ e) :
    ∃ k : Int, power 2 e = k * spacing q := by
  obtain ⟨n, hn⟩ := Int.eq_ofNat_of_zero_le
    (show 0 ≤ e - (max (binaryExponent q) (-1022) - 52) by omega)
  refine ⟨2 ^ n, ?_⟩
  rw [spacing, power_two, power_two]
  push_cast
  rw [← zpow_natCast, ← zpow_add₀ two_ne_zero, ← hn, sub_add_cancel]

theorem nearestMultiple_mono (hp : 0 < p) (h : p ≤ q) : nearestMultiple p ≤ nearestMultiple q := by
  have hle := binaryExponent_mono hp h
  rcases (max_le_max_right (-1022) hle).eq_or_lt with heq | hlt
  · have hspacing : spacing p = spacing q := by rw [spacing, spacing, heq]
    have hpos := spacing_pos q
    have hround : roundHalfEven (p / spacing q) ≤ roundHalfEven (q / spacing q) :=
      roundHalfEven_mono ((div_le_div_iff_of_pos_right hpos).mpr h)
    rw [nearestMultiple, nearestMultiple, hspacing]
    exact mul_le_mul_of_nonneg_right (by exact_mod_cast hround) hpos.le
  · have hnormal : -1022 ≤ binaryExponent q := by omega
    have hbelow : p ≤ power 2 (binaryExponent q) := by
      refine (lt_power_binaryExponent_succ hp).le.trans ?_
      rw [power_two, power_two]
      exact zpow_le_zpow_right₀ one_le_two (by omega)
    have habove := power_binaryExponent_le (hp.trans_le h)
    obtain ⟨k, hk⟩ := exists_multiple hnormal hle
    obtain ⟨k', hk'⟩ := exists_multiple hnormal (le_refl (binaryExponent q))
    calc nearestMultiple p ≤ power 2 (binaryExponent q) := by
          rw [hk] at hbelow ⊢
          exact nearestMultiple_le_multiple hbelow
      _ ≤ nearestMultiple q := by
          rw [hk'] at habove ⊢
          exact le_nearestMultiple habove

end

end TraceExplorer.Number
