import TraceExplorer.Proofs.Timeline.Rows
import TraceExplorer.Timeline.Zoom

/-!
# Rows cut to a window

Over the rationals a zoom is one formula: both ends of a row are moved into the window, and what is
left is measured against the window. The cases of the computation differ only in which ends they
move, so rows that touch an edge of the window agree with those beside them.
-/

namespace TraceExplorer

open Number (Quantity)

/-- The time in a window that is nearest to the given one. -/
def clamp (first last t : Rat) : Rat := min (max t first) last

def ZoomedRow.place {α : Type} (z : ZoomedRow α) : Row α := ⟨z.id, z.offset, z.width⟩

namespace Row

def start (row : Row Rat) (duration : Rat) : Rat := row.offset * duration / 100

def finish (row : Row Rat) (duration : Rat) : Rat :=
  row.start duration + row.width * duration / 100

/-- A row with both ends moved into the window. It is highlighted if it reaches into the window, or
if it starts at its end. -/
def clipped (row : Row Rat) (duration first last : Rat) : ZoomedRow Rat where
  id := row.id
  offset := (clamp first last (row.start duration) - first) / (last - first) * 100
  width := (clamp first last (row.finish duration) - clamp first last (row.start duration)) /
    (last - first) * 100
  highlighted := row.start duration ≤ last ∧
    (first ≤ row.start duration ∨ first < row.finish duration)

end Row

section

variable {row : Row Rat} {rows : List (Row Rat)} {duration first last t u : Rat}

/-! ## Times in a window -/

theorem clamp_of_le_first (hwindow : first < last) (h : t ≤ first) :
    clamp first last t = first := by
  rw [clamp, max_eq_right h, min_eq_left hwindow.le]

theorem clamp_of_first_le (h : first ≤ t) : clamp first last t = min t last := by
  rw [clamp, max_eq_left h]

theorem clamp_of_last_le (hwindow : first < last) (h : last ≤ t) : clamp first last t = last := by
  rw [clamp_of_first_le (hwindow.le.trans h), min_eq_right h]

theorem clamp_of_mem (hfirst : first ≤ t) (hlast : t ≤ last) : clamp first last t = t := by
  rw [clamp_of_first_le hfirst, min_eq_left hlast]

theorem first_le_clamp (hwindow : first < last) (t : Rat) : first ≤ clamp first last t :=
  le_min (le_max_right t first) hwindow.le

theorem clamp_le_last (first last t : Rat) : clamp first last t ≤ last := min_le_right _ _

theorem clamp_mono (h : t ≤ u) : clamp first last t ≤ clamp first last u :=
  min_le_min_right last (max_le_max_right first h)

namespace Row

theorem start_le_finish (hforward : 0 ≤ row.width * duration) :
    row.start duration ≤ row.finish duration :=
  le_add_of_nonneg_right (div_nonneg hforward (by norm_num))

/-! ## One row -/

theorem timeAt_eq_ok (percent duration : Rat) :
    timeAt percent duration = .ok (percent * duration / 100) := by
  have hhundred : (Quantity.count 100 : Rat) ≠ 0 := by decide
  exact div_eq_ok hhundred

theorem percentOfWindow_eq_ok {window : Rat} (hwindow : window ≠ 0) (t u : Rat) :
    percentOfWindow t u window = .ok ((u - t) / window * 100) := by
  change (Quantity.div (u - t) window >>= fun share => Quantity.mul share (Quantity.count 100)) = _
  rw [div_eq_ok hwindow]
  rfl

theorem zoomTo_eq (row : Row Rat) (duration : Rat) (hwindow : last - first ≠ 0) :
    row.zoomTo duration first last =
      if last ≤ row.start duration then .ok ⟨row.id, 100, 0, row.start duration ≤ last⟩
      else if first ≤ row.start duration then
        .ok ⟨row.id, (row.start duration - first) / (last - first) * 100,
          (min (row.finish duration) last - row.start duration) / (last - first) * 100, true⟩
      else if row.finish duration ≤ first then .ok ⟨row.id, 0, 0, false⟩
      else if row.finish duration ≤ last then
        .ok ⟨row.id, 0, (row.finish duration - first) / (last - first) * 100, true⟩
      else .ok ⟨row.id, 0, 100, true⟩ := by
  have hstart : row.offset * duration / 100 = row.start duration := rfl
  have hfinish : row.start duration + row.width * duration / 100 = row.finish duration := rfl
  have hzero : ((0 : Int) : Rat) = 0 := rfl
  have hhundred : ((100 : Int) : Rat) = 100 := rfl
  rw [zoomTo, timeAt_eq_ok, timeAt_eq_ok, min_def]
  simp only [Quantity.sub, Quantity.add, Quantity.le, Quantity.level, bind, Except.bind, pure,
    Except.pure, percentOfWindow_eq_ok hwindow, decide_eq_true_iff, hstart, hfinish, hzero,
    hhundred]

theorem exists_zoomTo (row : Row Rat) (duration : Rat) (hwindow : first < last) :
    ∃ z, row.zoomTo duration first last = .ok z ∧ z.id = row.id := by
  rw [zoomTo_eq row duration (sub_pos.mpr hwindow).ne']
  split_ifs <;> exact ⟨_, rfl, rfl⟩

/-- In every case of the computation a row is cut to the window. -/
theorem zoomTo_eq_clipped (hwindow : first < last) (hforward : 0 ≤ row.width * duration) :
    row.zoomTo duration first last = .ok (row.clipped duration first last) := by
  have hlength : last - first ≠ 0 := (sub_pos.mpr hwindow).ne'
  have horder := start_le_finish hforward
  rw [zoomTo_eq row duration hlength, clipped]
  by_cases hlate : last ≤ row.start duration
  · have hfirst : first ≤ row.start duration := hwindow.le.trans hlate
    rw [if_pos hlate, clamp_of_last_le hwindow hlate,
      clamp_of_last_le hwindow (hlate.trans horder), sub_self, zero_div, zero_mul,
      div_self hlength, one_mul]
    simp [hfirst]
  · rw [if_neg hlate]
    by_cases hinside : first ≤ row.start duration
    · rw [if_pos hinside, clamp_of_mem hinside (le_of_not_ge hlate),
        clamp_of_first_le (hinside.trans horder)]
      simp [hinside, le_of_not_ge hlate]
    · -- The row starts before the window, so its start is moved to that of the window.
      have hearly := le_of_not_ge hinside
      have hbefore : row.start duration ≤ last := hearly.trans hwindow.le
      rw [if_neg hinside, clamp_of_le_first hwindow hearly, sub_self, zero_div, zero_mul]
      by_cases hover : row.finish duration ≤ first
      · rw [if_pos hover, clamp_of_le_first hwindow hover, sub_self, zero_div, zero_mul]
        simp [hinside, hover]
      · have hreach : first < row.finish duration := lt_of_not_ge hover
        rw [if_neg hover]
        by_cases hended : row.finish duration ≤ last
        · rw [if_pos hended, clamp_of_mem hreach.le hended]
          simp [hbefore, hreach]
        · rw [if_neg hended, clamp_of_last_le hwindow (le_of_not_ge hended), div_self hlength,
            one_mul]
          simp [hbefore, hreach]

theorem isOnTimeline_clipped (hwindow : first < last) (hforward : 0 ≤ row.width * duration) :
    (row.clipped duration first last).place.IsOnTimeline := by
  have hlength : 0 < last - first := sub_pos.mpr hwindow
  have hstart := first_le_clamp hwindow (row.start duration)
  have hfinish := clamp_le_last first last (row.finish duration)
  have horder : clamp first last (row.start duration) ≤ clamp first last (row.finish duration) :=
    clamp_mono (start_le_finish hforward)
  refine ⟨?_, ?_, ?_⟩
  · apply mul_nonneg (div_nonneg (sub_nonneg.mpr hstart) hlength.le)
    norm_num
  · apply mul_nonneg (div_nonneg (sub_nonneg.mpr horder) hlength.le)
    norm_num
  · calc (row.clipped duration first last).offset + (row.clipped duration first last).width
      _ = (clamp first last (row.finish duration) - first) / (last - first) * 100 := by
          rw [clipped]
          ring
      _ ≤ 1 * 100 := by
          gcongr
          rw [div_le_one hlength]
          gcongr
      _ = 100 := one_mul 100

/-- The window of the whole timeline leaves a row where it is. -/
theorem place_clipped_whole (hduration : 0 < duration) (h : row.IsOnTimeline) :
    (row.clipped duration 0 duration).place = row := by
  have hforward : 0 ≤ row.width * duration := mul_nonneg h.width hduration.le
  have hstart : 0 ≤ row.start duration :=
    div_nonneg (mul_nonneg h.offset hduration.le) (by norm_num)
  have hfinish : row.finish duration ≤ duration := by
    have hreach := mul_le_mul_of_nonneg_right h.reach hduration.le
    rw [finish, start]
    linarith
  have horder := start_le_finish hforward
  rw [ZoomedRow.place, clipped, clamp_of_mem hstart (horder.trans hfinish),
    clamp_of_mem (hstart.trans horder) hfinish, sub_zero, sub_zero, finish, add_sub_cancel_left,
    start]
  congr 1
  · field_simp
  · field_simp

/-! ## All rows -/

/-- Over the rationals every row can be drawn in a window that starts before it ends. -/
theorem exists_zoom (rows : List (Row Rat)) (duration : Rat) (hwindow : first < last) :
    ∃ zoomed, zoom rows first last duration = .ok zoomed ∧
      List.Forall₂ (fun row z => row.zoomTo duration first last = .ok z) rows zoomed := by
  have hrange : ¬ Quantity.le last first := by
    change ¬ decide (last ≤ first) = true
    rw [decide_eq_true_iff]
    exact not_le_of_gt hwindow
  obtain ⟨zoomed, hzoomed⟩ := exists_mapM_iff.mpr fun row (_ : row ∈ rows) =>
    (exists_zoomTo row duration hwindow).imp fun _ hz => hz.1
  refine ⟨zoomed, ?_, Reordering.mapM_eq_ok_iff.mp hzoomed⟩
  rw [zoom, if_neg hrange, hzoomed]

end Row

end

/-- Over the rationals a zoom keeps the rows and their order. It cuts each row that does not end
before it starts to the window, so that the row lies within it. The window of the whole timeline
leaves all rows that lie on the timeline where they are. -/
theorem zoom_clips {rows : List (Row Rat)} {duration first last : Rat} (hwindow : first < last) :
    ∃ zoomed, Row.zoom rows first last duration = .ok zoomed ∧
      List.Forall₂ (fun row z => z.id = row.id ∧
        (0 ≤ row.width * duration →
          z = row.clipped duration first last ∧ z.place.IsOnTimeline)) rows zoomed ∧
      (first = 0 → last = duration →
        List.Forall₂ (fun row z => row.IsOnTimeline → z.place = row) rows zoomed) := by
  obtain ⟨zoomed, hzoom, hdrawn⟩ := Row.exists_zoom rows duration hwindow
  have hclipped {row : Row Rat} {z : ZoomedRow Rat}
      (hz : row.zoomTo duration first last = .ok z) (hforward : 0 ≤ row.width * duration) :
      z = row.clipped duration first last :=
    Except.ok.inj (hz.symm.trans (Row.zoomTo_eq_clipped hwindow hforward))
  refine ⟨zoomed, hzoom, ?_, ?_⟩
  · refine hdrawn.imp fun row z hz => ⟨?_, fun hforward => ?_⟩
    · obtain ⟨z', hz', hid⟩ := Row.exists_zoomTo row duration hwindow
      rwa [Except.ok.inj (hz.symm.trans hz')]
    · rw [hclipped hz hforward]
      exact ⟨rfl, Row.isOnTimeline_clipped hwindow hforward⟩
  · rintro rfl rfl
    refine hdrawn.imp fun row z hz hplaced => ?_
    rw [hclipped hz (mul_nonneg hplaced.width hwindow.le)]
    exact Row.place_clipped_whole hwindow hplaced

/-- A row that ends where the window starts, one without width there, one that starts where the
window ends, and one that covers the window. -/
theorem zoom_clips_of_edges :
    (20 : Rat) < 60 ∧ ∃ zoomed,
      Row.zoom [⟨"a", 10, 10⟩, ⟨"b", 20, 0⟩, ⟨"c", 60, 10⟩, ⟨"d", 10, 80⟩] 20 60 (100 : Rat) =
        .ok zoomed ∧
      (∀ z ∈ zoomed, z.place.IsOnTimeline) ∧
      zoomed.map (fun z => (z.offset, z.width, z.highlighted)) =
        [(0, 0, false), (0, 0, true), (100, 0, true), (0, 100, true)] := by
  have hwindow : (20 : Rat) < 60 := by norm_num
  obtain ⟨zoomed, hzoom, hrows, -⟩ := @zoom_clips
    [⟨"a", 10, 10⟩, ⟨"b", 20, 0⟩, ⟨"c", 60, 10⟩, ⟨"d", 10, 80⟩] 100 20 60 hwindow
  obtain _ | ⟨⟨-, ha⟩, _ | ⟨⟨-, hb⟩, _ | ⟨⟨-, hc⟩, _ | ⟨⟨-, hd⟩, ⟨⟩⟩⟩⟩⟩ := hrows
  obtain ⟨rfl, ha⟩ := ha (by norm_num)
  obtain ⟨rfl, hb⟩ := hb (by norm_num)
  obtain ⟨rfl, hc⟩ := hc (by norm_num)
  obtain ⟨rfl, hd⟩ := hd (by norm_num)
  refine ⟨hwindow, _, hzoom, by simp [ha, hb, hc, hd], ?_⟩
  decide +kernel

end TraceExplorer
