import TraceExplorer.Proofs.Summary.Ranking

/-!
# How percentages are cut

A percentage is computed with two roundings and then cut to a whole number. It ends up less than
`2 ^ (-45)` away from the exact one, so that it is cut to the same number unless the exact one is
nearly whole. Of the whole ones up to a hundred, three come out too low by one.
-/

namespace TraceExplorer

open Number (Double Scalar spacing nearestMultiple binaryExponent)

/-- The whole percentages that come out too low by one. -/
def lowPercentages : List Int := [29, 57, 58]

/-- The percentage of a part is cut to a whole number. However large the whole is, only a percentage
next to a whole one can become that one, or the one below it. -/
def IsNearlyCut (part whole percent : Int) : Prop :=
  percent = 100 * part / whole ∨
    ∃ k, 2 ^ 45 * |100 * part - k * whole| < whole ∧ (percent = k ∨ percent = k - 1)

structure ShowsPercentage (part whole percent : Int) : Prop where
  /-- A whole percentage is shown as it is, but for the three low ones. -/
  exact : ∀ k, 100 * part = k * whole → percent = if k ∈ lowPercentages then k - 1 else k
  /-- Any other one is cut, if the whole is not too large. -/
  cut : whole ≤ 2 ^ 45 → ¬ whole ∣ 100 * part → percent = 100 * part / whole
  near : IsNearlyCut part whole percent

/-- The percentages in the row of a summary: what the trace is of the longest one, and what the time
of the chosen service is of the trace. -/
structure TraceListItem.ShowsPercentages (item : TraceListItem) (options : ListOptions)
    (longest : Int) (s : TraceSummary) : Prop where
  traceId : item.traceId = s.traceId.getD ""
  duration : item.duration = s.duration
  width : 0 < s.duration →
    ∃ width, item.width = some width ∧ ShowsPercentage s.duration longest width
  share : ∀ intervals, chosenIntervals? options s = some intervals →
    0 ≤ Interval.totalDuration intervals → Interval.totalDuration intervals ≤ s.duration →
    0 < s.duration → ∃ share, item.servicePercentage = some share ∧
      ShowsPercentage (Interval.totalDuration intervals) s.duration share

section

variable {part whole part' whole' percent k e : Int} {q v : Rat}

/-! ## Two roundings -/

theorem spacing_le_power (hq : 0 < q) (hlt : q < 2 ^ (e + 1)) (he : -1022 ≤ e) :
    spacing q ≤ 2 ^ (e - 52) := by
  have hlow := Number.power_binaryExponent_le hq
  rw [Number.power_two] at hlow
  have hexponent := (zpow_lt_zpow_iff_right₀ one_lt_two).mp (hlow.trans_lt hlt)
  rw [spacing, Number.power_two]
  exact zpow_le_zpow_right₀ one_le_two (by omega)

/-- A rounded number lies within half the distance of the doubles around it. -/
theorem abs_value_ofResult_sub_le {negative : Bool} (hq : 0 ≤ q) (hlt : q < 2 ^ (e + 1))
    (he : -1022 ≤ e) (hv : (Double.ofResult negative q).value? = some v) :
    |v - q| ≤ 2 ^ (e - 53) := by
  rcases hq.eq_or_lt with rfl | hpos
  · rw [Double.ofResult, if_pos rfl] at hv
    obtain rfl : v = 0 := by cases negative <;> exact (Option.some.inj hv).symm
    rw [sub_zero, abs_zero]
    positivity
  · rw [Double.ofResult, if_neg hpos.ne'] at hv
    rw [value_ofRat hpos hv]
    calc |nearestMultiple q - q| ≤ spacing q / 2 := Number.abs_nearestMultiple_sub_le q
      _ ≤ 2 ^ (e - 52) / 2 := by linarith [spacing_le_power hpos hlt he]
      _ = 2 ^ (e - 53) := by
          rw [show e - 52 = e - 53 + 1 by omega, zpow_add_one₀ two_ne_zero]
          ring

theorem exists_near_product (hpart : 0 ≤ part) (hle : part ≤ whole) (hwhole : 0 < whole)
    (h : percentage part whole = .ok percent) :
    ∃ product : Rat, percent = ⌊product⌋ ∧ |product - 100 * part / whole| < 1 / 2 ^ 45 := by
  obtain ⟨_, _, share, product, hshare, hproduct, rfl⟩ := percentage_eq_ok hwhole h
  have hwhole' : (0 : Rat) < whole := by exact_mod_cast hwhole
  have hquotient : (0 : Rat) ≤ (part : Rat) / whole :=
    div_nonneg (by exact_mod_cast hpart) hwhole'.le
  have hone : (part : Rat) / whole ≤ 1 := (div_le_one hwhole').mpr (by exact_mod_cast hle)
  have hshare0 : 0 ≤ share * 100 := mul_nonneg (value_ofResult hquotient hshare).1 (by norm_num)
  have hshare1 : |share - part / whole| ≤ 2 ^ ((0 : Int) - 53) :=
    abs_value_ofResult_sub_le hquotient (hone.trans_lt (by norm_num)) (by norm_num) hshare
  have hfirst := abs_le.mp hshare1
  norm_num at hfirst
  have hproduct1 : |product - share * 100| ≤ 2 ^ ((6 : Int) - 53) :=
    abs_value_ofResult_sub_le hshare0 (by norm_num; linarith) (by norm_num) hproduct
  have hsecond := abs_le.mp hproduct1
  norm_num at hsecond
  have hproduct0 : 0 ≤ product := (value_ofResult hshare0 hproduct).1
  refine ⟨product, if_neg (not_lt.mpr hproduct0), ?_⟩
  rw [mul_div_assoc, abs_lt]
  constructor <;> norm_num <;> linarith

/-! ## Whole percentages -/

/-- A percentage depends on the quotient only. -/
theorem percentage_congr (hpart : 0 ≤ part) (hpart' : 0 ≤ part') (hwhole : 0 < whole)
    (hwhole' : 0 < whole') (h : part * whole' = part' * whole) :
    percentage part whole = percentage part' whole' := by
  have hquotient : (part : Rat) / whole = part' / whole' := by
    rw [div_eq_div_iff (by exact_mod_cast hwhole.ne') (by exact_mod_cast hwhole'.ne')]
    exact_mod_cast h
  have hshare : Double.ofQuotient part whole = Double.ofQuotient part' whole' := by
    rw [Double.ofQuotient, Double.ofQuotient, if_neg hwhole.ne', if_neg hwhole'.ne', hquotient,
      decide_eq_false (not_lt.mpr hpart), decide_eq_false (not_lt.mpr hpart'),
      decide_eq_false (not_lt.mpr hwhole.le), decide_eq_false (not_lt.mpr hwhole'.le)]
  rw [percentage, percentage, Scalar.div, Scalar.div, hshare]

theorem percentage_of_hundred : ∀ k ∈ List.range 101, percentage k 100 =
    .ok (if (k : Int) ∈ lowPercentages then (k : Int) - 1 else k) := by
  decide +kernel

theorem percentage_of_exact (hpart : 0 ≤ part) (hle : part ≤ whole) (hwhole : 0 < whole)
    (hk : 100 * part = k * whole) :
    percentage part whole = .ok (if k ∈ lowPercentages then k - 1 else k) := by
  have hlow : 0 ≤ k := by
    by_contra hneg
    nlinarith
  have hhigh : k ≤ 100 := by
    by_contra hover
    nlinarith
  obtain ⟨n, rfl⟩ := Int.eq_ofNat_of_zero_le hlow
  rw [percentage_congr hpart hlow hwhole (by norm_num : (0 : Int) < 100) (by linarith)]
  exact percentage_of_hundred n (List.mem_range.mpr (by omega))

/-! ## Any percentages -/

/-- Cutting two numbers that are close gives the same, unless there is a whole number between
them. -/
theorem isNearlyCut_floor {product : Rat} (hwhole : 0 < whole)
    (h : |product - 100 * part / whole| < 1 / 2 ^ 45) :
    IsNearlyCut part whole ⌊product⌋ := by
  have hwhole' : (0 : Rat) < whole := by exact_mod_cast hwhole
  set n := 100 * part / whole
  set e : Rat := 100 * part / whole with he
  have hlow : (n : Rat) ≤ e := by
    rw [he, le_div_iff₀ hwhole']
    exact_mod_cast Int.ediv_mul_le (100 * part) hwhole.ne'
  have hhigh : e < n + 1 := by
    rw [he, div_lt_iff₀ hwhole']
    exact_mod_cast Int.lt_ediv_add_one_mul_self (100 * part) hwhole
  have hscaled (k : Int) (hk : |e - k| < 1 / 2 ^ 45) :
      2 ^ 45 * |100 * part - k * whole| < whole := by
    have hdistance : |(100 * part - k * whole : Rat)| = |e - k| * whole := by
      rw [← abs_of_pos hwhole', ← abs_mul, abs_of_pos hwhole', sub_mul, he,
        div_mul_cancel₀ _ hwhole'.ne']
    have hlt : 2 ^ 45 * |(100 * part - k * whole : Rat)| < whole := by
      calc 2 ^ 45 * |(100 * part - k * whole : Rat)|
          = 2 ^ 45 * |e - k| * (whole : Rat) := by rw [hdistance, mul_assoc]
        _ < 1 * (whole : Rat) := by
            refine mul_lt_mul_of_pos_right ?_ hwhole'
            linarith
        _ = whole := one_mul _
    exact_mod_cast hlt
  obtain ⟨hbelow, habove⟩ := abs_lt.mp h
  rcases lt_trichotomy ⌊product⌋ n with hlt | heq | hgt
  · have hproduct : product < n := Int.floor_lt.mp hlt
    have hnext : n - 1 ≤ ⌊product⌋ := Int.le_floor.mpr (by push_cast; linarith)
    refine .inr ⟨n, hscaled n ?_, .inr (by omega)⟩
    rw [abs_of_nonneg (by linarith)]
    linarith
  · exact .inl heq
  · have hproduct : ((n + 1 : Int) : Rat) ≤ product := Int.le_floor.mp hgt
    have hnext : ⌊product⌋ < n + 2 := Int.floor_lt.mpr (by push_cast at hproduct ⊢; linarith)
    push_cast at hproduct
    refine .inr ⟨n + 1, hscaled (n + 1) ?_, .inl (by omega)⟩
    rw [abs_of_nonpos (by push_cast; linarith)]
    push_cast
    linarith

/-- Percentages of a whole that is not too large are whole or far enough from the whole ones. -/
theorem IsNearlyCut.eq_div (h : IsNearlyCut part whole percent) (hlarge : whole ≤ 2 ^ 45)
    (hinexact : ¬ whole ∣ 100 * part) : percent = 100 * part / whole := by
  refine h.resolve_right ?_
  rintro ⟨k, hk, -⟩
  have hzero : 100 * part - k * whole = 0 := by
    rw [← Int.abs_lt_one_iff]
    linarith
  exact hinexact ⟨k, by linarith⟩

theorem exists_percentage_shown (hpart : 0 ≤ part) (hle : part ≤ whole) (hwhole : 0 < whole) :
    ∃ percent, percentage part whole = .ok percent ∧ ShowsPercentage part whole percent := by
  obtain ⟨percent, hpercent⟩ := exists_percentage hpart hle hwhole
  obtain ⟨product, rfl, hproduct⟩ := exists_near_product hpart hle hwhole hpercent
  have hnear := isNearlyCut_floor hwhole hproduct
  refine ⟨_, hpercent, fun k hk => ?_, hnear.eq_div, hnear⟩
  exact Except.ok.inj (hpercent.symm.trans (percentage_of_exact hpart hle hwhole hk))

end

namespace Batch

open TraceListItem

section

variable {options : ListOptions} {longest : Int} {s : TraceSummary} {item : TraceListItem}

/-! ## Rows -/

theorem width_shown (hle : s.duration ≤ longest) (hpos : 0 < s.duration)
    (h : ofSummary options longest s = .ok item) :
    ∃ width, item.width = some width ∧ ShowsPercentage s.duration longest width := by
  obtain ⟨-, ⟨hzero, -⟩ | ⟨-, width, hwidth, hpercentage⟩⟩ := width_of_ofSummary h
  · omega
  · obtain ⟨percent, hpercent, hshows⟩ := exists_percentage_shown hpos.le hle (by omega)
    obtain rfl := Except.ok.inj (hpercentage.symm.trans hpercent)
    exact ⟨width, hwidth, hshows⟩

theorem share_shown {intervals : List Interval}
    (hchosen : chosenIntervals? options s = some intervals)
    (htime : 0 ≤ Interval.totalDuration intervals)
    (hle : Interval.totalDuration intervals ≤ s.duration) (hpos : 0 < s.duration)
    (h : ofSummary options longest s = .ok item) :
    ∃ share, item.servicePercentage = some share ∧
      ShowsPercentage (Interval.totalDuration intervals) s.duration share := by
  obtain ⟨_, _, share, -, -, hshare, rfl⟩ := ofSummary_eq_ok_iff.mp h
  obtain ⟨percent, hpercent, hshows⟩ := exists_percentage_shown htime hle hpos
  refine ⟨percent, ?_, hshows⟩
  simp only [shareOfService, hchosen, if_neg hpos.ne', hpercent, Except.map] at hshare
  exact (Except.ok.inj hshare).symm

/-- What the rows of a list show can be computed before they are sorted. -/
theorem exists_rank_of_rows {α : Type} {summaries : List TraceSummary} {shown : List α}
    (observe : TraceListItem → α)
    (h : (summaries.mapM (ofSummary options
      ((summaries.map (·.duration)).max?.getD 0))).toOption.map (·.map observe) = some shown) :
    ∃ items, rank options summaries = .ok items ∧ (items.map observe).Perm shown := by
  obtain ⟨rows, hrows, rfl⟩ := Option.map_eq_some_iff.mp h
  exact ⟨_, rank_eq_ok_iff.mpr ⟨rows, toOption_eq_some_iff.mp hrows, rfl⟩,
    (List.mergeSort_perm _ _).map _⟩

end

/-- Every width and every share of a list is a percentage that is cut to a whole number, but for
the roundings before the cut. -/
theorem rank_shows_percentages {options : ListOptions} {summaries : List TraceSummary}
    {items : List TraceListItem} {longest : Int}
    (hlongest : (summaries.map (·.duration)).max? = some longest)
    (hitems : rank options summaries = .ok items) :
    ∀ item ∈ items, ∃ s ∈ summaries, item.ShowsPercentages options longest s := by
  intro item hitem
  obtain ⟨rows, hrows, rfl⟩ := rank_eq_ok_iff.mp hitems
  obtain ⟨s, hs, hduration, hrow⟩ := exists_summary_of_row hrows hitem
  have hle : s.duration ≤ (summaries.map (·.duration)).max?.getD 0 := duration_le_longest hs
  rw [hlongest, Option.getD_some] at hrow hle
  exact ⟨s, hs, {
    traceId := (copied_of_ofSummary hrow).1
    duration := hduration
    width := fun hpos => width_shown hle hpos hrow
    share := fun _ hchosen htime hwithin hpos => share_shown hchosen htime hwithin hpos hrow }⟩

/-- A trace of two thirds of the longest one, and a service that takes two sevenths of it. -/
theorem rank_shows_percentages_of_fractions :
    let long : TraceSummary := {
      traceId := some "a", timestamp := 1000000, duration := 21, spanCount := 1
      errorType := .none }
    let short : TraceSummary := {
      traceId := some "b", timestamp := 1000000, duration := 14, spanCount := 1, errorType := .none
      grouped := [("web", [⟨1000000, 4⟩])] }
    let options : ListOptions := { serviceName := some "web", utc := true }
    ([short, long].map (·.duration)).max? = some 21 ∧
      ∃ items, rank options [short, long] = .ok items ∧
        (items.map fun item => (item.width, item.servicePercentage)).Perm
          [(some 66, some 28), (some 100, none)] ∧
        ∀ item ∈ items, ∃ s ∈ [short, long], item.ShowsPercentages options 21 s := by
  intro long short options
  have hlongest : ([short, long].map (·.duration)).max? = some 21 := by decide
  have hlisted : ∃ items, rank options [short, long] = .ok items ∧
      (items.map fun item => (item.width, item.servicePercentage)).Perm
        [(some 66, some 28), (some 100, none)] :=
    exists_rank_of_rows (fun item => (item.width, item.servicePercentage)) (by decide +kernel)
  obtain ⟨items, hitems, hshown⟩ := hlisted
  exact ⟨hlongest, items, hitems, hshown, rank_shows_percentages hlongest hitems⟩

/-- A trace of 29 percent of the longest one is 28 wide, and so is the share of a service that takes
29 percent of a trace. -/
theorem rank_shows_less :
    let long : TraceSummary := {
      traceId := some "a", timestamp := 1000000, duration := 100, spanCount := 1
      errorType := .none, grouped := [("web", [⟨1000000, 29⟩])] }
    let short : TraceSummary := {
      traceId := some "b", timestamp := 1000000, duration := 29, spanCount := 1
      errorType := .none }
    (∃ items, rank { serviceName := some "web", utc := true } [long, short] = .ok items ∧
      (items.map fun item => (item.duration, item.width, item.servicePercentage)).Perm
        [(100, some 100, some 28), (29, some 28, none)]) ∧
      (100 * 29 / 100 : Int) ≠ 28 :=
  ⟨exists_rank_of_rows (fun item => (item.duration, item.width, item.servicePercentage))
    (by decide +kernel), by decide⟩

end Batch

end TraceExplorer
