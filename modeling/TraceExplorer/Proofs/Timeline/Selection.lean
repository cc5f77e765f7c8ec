import TraceExplorer.Proofs.Success
import TraceExplorer.Proofs.Timeline.Clipping
import TraceExplorer.Timeline.Selection

/-!
# Windows under a rectangle

Drawing a stretch of time and selecting a rectangle undo each other over the rationals: the window
under a rectangle is drawn where the rectangle is, but for what lies left of the view. So selecting
a row where it is drawn and zooming shows that row, and nothing beside it.
-/

namespace TraceExplorer

open Number (Quantity)

namespace PixelSpan

def right (s : PixelSpan Rat) : Rat := s.left + s.width

/-- What lies right of an edge. The right edge stays, and the width is what is left. -/
def cutAt (s : PixelSpan Rat) (edge : Rat) : PixelSpan Rat :=
  ⟨max s.left edge, s.right - max s.left edge⟩

/-- Where a view of a whole shows the stretch from `first` to `last`. -/
def image (view : PixelSpan Rat) (whole first last : Rat) : PixelSpan Rat :=
  ⟨view.left + first / whole * view.width, (last - first) / whole * view.width⟩

/-- The time that a view of the timeline shows at a place of the screen. -/
def timeAt (view : PixelSpan Rat) (duration x : Rat) : Rat :=
  (x - view.left) * (duration / view.width)

def imageOfRow (view : PixelSpan Rat) (row : Row Rat) : PixelSpan Rat :=
  view.image 100 row.offset (row.offset + row.width)

end PixelSpan

section

variable {selection view : PixelSpan Rat} {row : Row Rat} {duration x y : Rat}

namespace PixelSpan

/-! ## Places and times -/

theorem timeAt_le_iff (hview : 0 < view.width) (hduration : 0 < duration) :
    view.timeAt duration x ≤ view.timeAt duration y ↔ x ≤ y := by
  rw [timeAt, timeAt, mul_le_mul_iff_left₀ (div_pos hduration hview), sub_le_sub_iff_right]

theorem timeAt_nonneg (hview : 0 < view.width) (hduration : 0 < duration) (h : view.left ≤ x) :
    0 ≤ view.timeAt duration x :=
  mul_nonneg (sub_nonneg.mpr h) (div_pos hduration hview).le

/-- What a view shows between two times is where they were read off. -/
theorem image_timeAt (hview : 0 < view.width) (hduration : 0 < duration) :
    view.image duration (view.timeAt duration x) (view.timeAt duration y) = ⟨x, y - x⟩ := by
  rw [image, timeAt, timeAt]
  congr 1
  · field_simp
    ring
  · field_simp
    ring

theorem timeAt_left_imageOfRow (hview : 0 < view.width) :
    view.timeAt duration (view.imageOfRow row).left = row.start duration := by
  rw [timeAt, imageOfRow, image, add_sub_cancel_left, Row.start]
  field_simp

theorem timeAt_right_imageOfRow (hview : 0 < view.width) :
    view.timeAt duration (view.imageOfRow row).right = row.finish duration := by
  rw [timeAt, right, imageOfRow, image, add_sub_cancel_left, Row.finish, Row.start]
  field_simp
  ring

/-! ## The window under a rectangle -/

theorem clipLeft_eq_ok (selection : PixelSpan Rat) (edge : Rat) :
    selection.clipLeft edge = .ok (selection.cutAt edge) := by
  rw [clipLeft, cutAt, right]
  by_cases hleft : selection.left < edge
  · have hlt : Quantity.lt selection.left edge = true := decide_eq_true hleft
    rw [if_pos hlt, max_eq_right hleft.le]
    simp only [Quantity.sub, bind, Except.bind, pure, Except.pure]
    rw [sub_sub_eq_add_sub, add_comm]
  · have hlt : ¬ Quantity.lt selection.left edge = true := by
      change ¬ decide (selection.left < edge) = true
      rwa [decide_eq_true_iff]
    rw [if_neg hlt, max_eq_left (le_of_not_gt hleft), add_sub_cancel_left]

theorem toWindow?_eq_ok (selection : PixelSpan Rat) (duration : Rat) (hview : 0 < view.width) :
    selection.toWindow? view duration = .ok
      (if view.timeAt duration selection.right ≤
          view.timeAt duration (max selection.left view.left) then none
        else some (view.timeAt duration (max selection.left view.left),
          view.timeAt duration selection.right)) := by
  rw [toWindow?, clipLeft_eq_ok, div_eq_ok hview.ne']
  simp only [Quantity.sub, Quantity.add, Quantity.mul, Quantity.le, bind, Except.bind, pure,
    Except.pure, decide_eq_true_iff, cutAt, add_sub_cancel, timeAt]
  congr

theorem toWindow?_eq_none_iff (hview : 0 < view.width) (hduration : 0 < duration) :
    selection.toWindow? view duration = .ok none ↔
      selection.right ≤ max selection.left view.left := by
  rw [toWindow?_eq_ok selection duration hview, Except.ok.injEq, ite_eq_left_iff]
  simp only [reduceCtorEq, imp_false, not_not]
  exact timeAt_le_iff hview hduration

theorem toWindow?_of_lt (hview : 0 < view.width) (hduration : 0 < duration)
    (h : max selection.left view.left < selection.right) :
    selection.toWindow? view duration = .ok (some
      (view.timeAt duration (max selection.left view.left),
        view.timeAt duration selection.right)) := by
  have hwide : ¬ view.timeAt duration selection.right ≤
      view.timeAt duration (max selection.left view.left) := by
    rw [timeAt_le_iff hview hduration]
    exact not_le_of_gt h
  rw [toWindow?_eq_ok selection duration hview, if_neg hwide]

theorem exists_window (hview : 0 < view.width) (hduration : 0 < duration)
    (h : max selection.left view.left < selection.right) :
    ∃ first last, selection.toWindow? view duration = .ok (some (first, last)) ∧
      0 ≤ first ∧ first < last ∧ view.image duration first last = selection.cutAt view.left := by
  refine ⟨_, _, toWindow?_of_lt hview hduration h, ?_, ?_, image_timeAt hview hduration⟩
  · exact timeAt_nonneg hview hduration (le_max_right _ _)
  · rw [← not_le, timeAt_le_iff hview hduration]
    exact not_le_of_gt h

/-! ## Selecting a row -/

/-- The window under a row is the row itself. -/
theorem toWindow?_imageOfRow (hview : 0 < view.width) (hduration : 0 < duration)
    (hoffset : 0 ≤ row.offset) (hwidth : 0 < row.width) :
    (view.imageOfRow row).toWindow? view duration =
      .ok (some (row.start duration, row.finish duration)) := by
  have hleft : max (view.imageOfRow row).left view.left = (view.imageOfRow row).left := by
    apply max_eq_left
    rw [imageOfRow, image]
    exact le_add_of_nonneg_right (by positivity)
  have hwide : (view.imageOfRow row).left < (view.imageOfRow row).right := by
    rw [right, imageOfRow, image, add_sub_cancel_left]
    exact lt_add_of_pos_right _ (by positivity)
  have hwindow : (view.imageOfRow row).toWindow? view duration = _ :=
    toWindow?_of_lt hview hduration (by rwa [hleft])
  rwa [hleft, timeAt_left_imageOfRow hview, timeAt_right_imageOfRow hview] at hwindow

end PixelSpan

namespace Row

theorem start_lt_finish (hduration : 0 < duration) (hwidth : 0 < row.width) :
    row.start duration < row.finish duration :=
  lt_add_of_pos_right _ (by positivity)

/-- In its own window a row takes the full width. -/
theorem clipped_self (hduration : 0 < duration) (hwidth : 0 < row.width) :
    row.clipped duration (row.start duration) (row.finish duration) = ⟨row.id, 0, 100, true⟩ := by
  have hwindow := start_lt_finish hduration hwidth
  rw [clipped, clamp_of_le_first hwindow le_rfl, clamp_of_last_le hwindow le_rfl, sub_self,
    zero_div, zero_mul, div_self (sub_pos.mpr hwindow).ne', one_mul]
  simp [hwindow.le]

end Row

end

/-- A rectangle selects nothing exactly if its right edge is not right of its left edge and of the
view's. Otherwise it selects a window that the view shows where the rectangle is, cut at the left
edge of the view. The rectangle where the view shows a row selects the window in which the row is
drawn over the full width. -/
theorem toWindow?_undoes_image {view : PixelSpan Rat} {duration : Rat} (hview : 0 < view.width)
    (hduration : 0 < duration) :
    (∀ selection : PixelSpan Rat,
      (selection.toWindow? view duration = .ok none ↔
        selection.right ≤ max selection.left view.left) ∧
      (max selection.left view.left < selection.right →
        ∃ first last, selection.toWindow? view duration = .ok (some (first, last)) ∧
          0 ≤ first ∧ first < last ∧
          view.image duration first last = selection.cutAt view.left)) ∧
    ∀ (rows : List (Row Rat)) (i : Nat) (row : Row Rat),
      rows[i]? = some row → 0 ≤ row.offset → 0 < row.width →
        ∃ first last zoomed,
          (view.imageOfRow row).toWindow? view duration = .ok (some (first, last)) ∧
          Row.zoom rows first last duration = .ok zoomed ∧
          zoomed[i]? = some ⟨row.id, 0, 100, true⟩ := by
  refine ⟨fun selection => ⟨?_, ?_⟩, fun rows i row hrow hoffset hwidth => ?_⟩
  · exact PixelSpan.toWindow?_eq_none_iff hview hduration
  · exact PixelSpan.exists_window hview hduration
  · have hwindow := Row.start_lt_finish hduration hwidth
    have hforward : 0 ≤ row.width * duration := by positivity
    obtain ⟨zoomed, hzoom, hdrawn⟩ := Row.exists_zoom rows duration hwindow
    refine ⟨_, _, zoomed, PixelSpan.toWindow?_imageOfRow hview hduration hoffset hwidth, hzoom, ?_⟩
    obtain ⟨hi, rfl⟩ := List.getElem?_eq_some_iff.mp hrow
    have hi' : i < zoomed.length := hdrawn.length_eq ▸ hi
    have hz := hdrawn.get hi hi'
    rw [List.getElem?_eq_getElem hi', ← Row.clipped_self hduration hwidth]
    apply congrArg some
    apply Except.ok.inj
    exact hz.symm.trans (Row.zoomTo_eq_clipped hwindow hforward)

/-- A rectangle that begins left of the view, one that lies left of it, and a row in the middle. -/
theorem toWindow?_undoes_image_of_overhang :
    ∃ view : PixelSpan Rat, 0 < view.width ∧ (0 : Rat) < 1000 ∧
      (∃ first last, PixelSpan.toWindow? ⟨50, 100⟩ view 1000 = .ok (some (first, last)) ∧
        0 ≤ first ∧ first < last ∧ view.image 1000 first last = ⟨100, 50⟩) ∧
      PixelSpan.toWindow? ⟨20, 50⟩ view 1000 = .ok none ∧
      ∃ first last zoomed,
        (view.imageOfRow ⟨"b", 25, 50⟩).toWindow? view 1000 = .ok (some (first, last)) ∧
        Row.zoom [⟨"a", 0, 100⟩, ⟨"b", 25, 50⟩] first last 1000 = .ok zoomed ∧
        zoomed[1]? = some ⟨"b", 0, 100, true⟩ := by
  have hview : 0 < (⟨100, 200⟩ : PixelSpan Rat).width := by norm_num
  have hduration : (0 : Rat) < 1000 := by norm_num
  obtain ⟨hselect, hrow⟩ := toWindow?_undoes_image hview hduration
  refine ⟨⟨100, 200⟩, hview, hduration, ?_, ?_, ?_⟩
  · obtain ⟨first, last, hwindow, hfirst, horder, himage⟩ :=
      (hselect ⟨50, 100⟩).2 (by decide +kernel)
    exact ⟨first, last, hwindow, hfirst, horder, himage.trans (by decide +kernel)⟩
  · exact (hselect ⟨20, 50⟩).1.mpr (by decide +kernel)
  · exact hrow [⟨"a", 0, 100⟩, ⟨"b", 25, 50⟩] 1 ⟨"b", 25, 50⟩ rfl (by norm_num) (by norm_num)

end TraceExplorer
