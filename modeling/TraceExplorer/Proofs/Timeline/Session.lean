import Mathlib.Data.List.Induction
import TraceExplorer.Proofs.Reordering
import TraceExplorer.Proofs.Success
import TraceExplorer.Timeline.Mapper

/-!
# A timeline in use

A viewer zooms into a timeline and out of it again, and some zooms are refused. The window is that
of the last call that was not refused, and a zoom draws the rows as they were laid out, whatever was
shown before. A refused zoom leaves the timeline as it was, also where the timeline is changed in
place and the row that cannot be drawn is one in the middle.
-/

namespace TraceExplorer

open Number (Quantity)

inductive ZoomCall (α : Type) where
  | zoom (first last : α)
  | zoomOut

/-- What a call shows: the rows drawn for a window, or all rows as they were laid out. -/
inductive Picture (α : Type) where
  | window (rows : List (ZoomedRow α))
  | whole (rows : List (Row α))

structure Answered (α : Type) where
  call : ZoomCall α
  outcome : Except (ZoomError α) (Picture α)

def lastDone? {α : Type} (history : List (Answered α)) : Option (ZoomCall α) :=
  (history.filter (·.outcome.isOk)).getLast?.map (·.call)

structure ZoomSession (α : Type) where
  timeline : Mapper α
  history : List (Answered α) := []

/-- A part of a call in place. What is changed before a failure stays changed. -/
abbrev Redraw (α β : Type) := EStateM (ZoomError α) (Mapper α) β

section

variable {α : Type} [Quantity α]

namespace Redraw

def draw (first last : α) (row : Row α) : Redraw α (ZoomedRow α) := do
  match row.zoomTo (← get).duration first last with
  | .ok zoomed => return zoomed
  | .error e => throw (.arithmetic e)

def zoom (first last : α) : Redraw α (List (ZoomedRow α)) := do
  if (← get).isZoomed then throw .alreadyActive
  if Quantity.le last first then throw (.invalidRange first last)
  let zoomed ← (← get).rows.mapM (draw first last)
  modify fun m => { m with window := some (first, last) }
  return zoomed

def zoomOut : Redraw α (List (Row α)) := do
  modify fun m => { m with window := none }
  return (← get).rows

def ofCall : ZoomCall α → Redraw α (Picture α)
  | .zoom first last => do return .window (← zoom first last)
  | .zoomOut => do return .whole (← zoomOut)

end Redraw

namespace ZoomSession

def start (rows : List (Row α)) (duration : α) : ZoomSession α where
  timeline := { rows, duration }

/-- Makes one more call. The timeline is what the call leaves, also if it is refused. -/
def proceed (s : ZoomSession α) (call : ZoomCall α) : ZoomSession α :=
  match (Redraw.ofCall call).run s.timeline with
  | .ok picture m => ⟨m, s.history ++ [⟨call, .ok picture⟩]⟩
  | .error e m => ⟨m, s.history ++ [⟨call, .error e⟩]⟩

end ZoomSession

def DrawnRows (rows : List (Row α)) (duration first last : α) (zoomed : List (ZoomedRow α)) :
    Prop :=
  List.Forall₂ (fun row z => row.zoomTo duration first last = .ok z) rows zoomed

/-- What comes of a zoom. It is refused while a window is shown, then for a window that does not
start before it ends, then for the first row that cannot be drawn. Otherwise all rows are drawn, and
the window is the only thing that changes. -/
inductive ZoomResult (m : Mapper α) (first last : α) :
    Except (ZoomError α) (List (ZoomedRow α) × Mapper α) → Prop
  | active (zoomed : m.isZoomed) : ZoomResult m first last (.error .alreadyActive)
  | invalid (free : ¬ m.isZoomed) (range : Quantity.le last first) :
      ZoomResult m first last (.error (.invalidRange first last))
  | undrawn {before after : List (Row α)} {row : Row α} {e : Number.ArithmeticError}
      (free : ¬ m.isZoomed) (range : ¬ Quantity.le last first)
      (rows : m.rows = before ++ row :: after)
      (drawn : ∀ r ∈ before, ∃ z, r.zoomTo m.duration first last = .ok z)
      (failed : row.zoomTo m.duration first last = .error e) :
      ZoomResult m first last (.error (.arithmetic e))
  | shown {zoomed : List (ZoomedRow α)} (free : ¬ m.isZoomed) (range : ¬ Quantity.le last first)
      (drawn : DrawnRows m.rows m.duration first last zoomed) :
      ZoomResult m first last (.ok (zoomed, { m with window := some (first, last) }))

/-- A call that was not refused showed what is laid out: a zoom the rows drawn for its window,
zooming out the rows themselves. -/
def Answered.Shows (rows : List (Row α)) (duration : α) : Answered α → Prop
  | ⟨.zoom first last, .ok picture⟩ =>
    ∃ zoomed, picture = .window zoomed ∧ DrawnRows rows duration first last zoomed
  | ⟨.zoom _ _, .error _⟩ => True
  | ⟨.zoomOut, outcome⟩ => outcome = .ok (.whole rows)

structure ZoomSession.Follows (rows : List (Row α)) (duration : α) (calls : List (ZoomCall α))
    (s : ZoomSession α) : Prop where
  calls_eq : s.history.map (·.call) = calls
  rows_eq : s.timeline.rows = rows
  duration_eq : s.timeline.duration = duration
  /-- A window is shown exactly if the last call that was not refused zoomed into it. -/
  window_iff : ∀ first last,
    s.timeline.window = some (first, last) ↔ lastDone? s.history = some (.zoom first last)
  shows : ∀ answered ∈ s.history, answered.Shows rows duration

variable {m : Mapper α} {s : ZoomSession α} {first last : α} {rows : List (Row α)} {duration : α}
  {calls : List (ZoomCall α)}

/-! ## One call -/

theorem Redraw.run_mapM_draw (rows : List (Row α)) :
    (rows.mapM (draw first last)).run m =
      match rows.mapM fun row => row.zoomTo m.duration first last with
      | .ok zoomed => .ok zoomed m
      | .error e => .error (.arithmetic e) m := by
  induction rows with
  | nil => rfl
  | cons row rest ih =>
      rw [List.mapM_cons, List.mapM_cons, EStateM.run_bind]
      simp only [draw, EStateM.run_bind, EStateM.run_get]
      cases row.zoomTo m.duration first last with
      | error e => rfl
      | ok z =>
          simp only [EStateM.run_pure, ih]
          cases rest.mapM fun row => row.zoomTo m.duration first last <;> rfl

/-- A zoom in place does what a zoom does, and if it is refused it leaves the timeline as it was. -/
theorem Redraw.run_zoom (m : Mapper α) (first last : α) :
    (zoom first last).run m =
      match m.zoom first last with
      | .ok (zoomed, next) => .ok zoomed next
      | .error e => .error e m := by
  simp only [zoom, EStateM.run_bind, EStateM.run_get]
  by_cases hzoomed : m.isZoomed
  · rw [Mapper.zoom, if_pos hzoomed, if_pos hzoomed]
    rfl
  · rw [Mapper.zoom, if_neg hzoomed, if_neg hzoomed, Row.zoom]
    by_cases hrange : Quantity.le last first
    · rw [if_pos hrange, if_pos hrange]
      rfl
    · rw [if_neg hrange, if_neg hrange]
      simp only [EStateM.run_bind, EStateM.run_get, run_mapM_draw]
      cases m.rows.mapM fun row => row.zoomTo m.duration first last <;> rfl

theorem Mapper.zoomResult (m : Mapper α) (first last : α) :
    ZoomResult m first last (m.zoom first last) := by
  rw [Mapper.zoom]
  split
  · rename_i hzoomed
    exact .active hzoomed
  · rename_i hfree
    rw [Row.zoom]
    split
    · rename_i hrange
      exact .invalid hfree hrange
    · rename_i hrange
      cases hrows : m.rows.mapM fun row => row.zoomTo m.duration first last with
      | ok zoomed => exact .shown hfree hrange (Reordering.mapM_eq_ok_iff.mp hrows)
      | error e =>
          obtain ⟨before, row, after, heq, hdrawn, hfailed⟩ := mapM_eq_error_iff.mp hrows
          exact .undrawn hfree hrange heq hdrawn hfailed

/-! ## Many calls -/

omit [Quantity α] in
theorem lastDone?_concat_ok (history : List (Answered α)) (call : ZoomCall α)
    (picture : Picture α) : lastDone? (history ++ [⟨call, .ok picture⟩]) = some call := by
  simp [lastDone?, Except.isOk, Except.toBool]

omit [Quantity α] in
theorem lastDone?_concat_error (history : List (Answered α)) (call : ZoomCall α)
    (e : ZoomError α) : lastDone? (history ++ [⟨call, .error e⟩]) = lastDone? history := by
  simp [lastDone?, Except.isOk, Except.toBool]

namespace ZoomSession

theorem proceed_zoom (s : ZoomSession α) (first last : α) :
    s.proceed (.zoom first last) =
      match s.timeline.zoom first last with
      | .ok (zoomed, next) => ⟨next, s.history ++ [⟨.zoom first last, .ok (.window zoomed)⟩]⟩
      | .error e => ⟨s.timeline, s.history ++ [⟨.zoom first last, .error e⟩]⟩ := by
  rw [proceed, Redraw.ofCall, EStateM.run_bind, Redraw.run_zoom]
  cases s.timeline.zoom first last <;> rfl

theorem proceed_zoomOut (s : ZoomSession α) :
    s.proceed .zoomOut =
      ⟨{ s.timeline with window := none },
        s.history ++ [⟨.zoomOut, .ok (.whole s.timeline.rows)⟩]⟩ :=
  rfl

theorem map_call_proceed (s : ZoomSession α) (call : ZoomCall α) :
    (s.proceed call).history.map (·.call) = s.history.map (·.call) ++ [call] := by
  rw [proceed]
  split <;> simp

theorem follows_start (rows : List (Row α)) (duration : α) :
    (start rows duration).Follows rows duration [] :=
  ⟨rfl, rfl, rfl, by simp [start, lastDone?], by simp [start]⟩

theorem Follows.zoom (h : s.Follows rows duration calls) (first last : α) :
    (s.proceed (.zoom first last)).Follows rows duration (calls ++ [.zoom first last]) := by
  have hcalls := map_call_proceed s (.zoom first last)
  rw [h.calls_eq] at hcalls
  have hresult := s.timeline.zoomResult first last
  rw [proceed_zoom] at hcalls ⊢
  cases hzoom : s.timeline.zoom first last with
  | error e =>
      rw [hzoom] at hcalls
      refine ⟨hcalls, h.rows_eq, h.duration_eq, fun start finish => ?_,
        List.forall_mem_append.mpr ⟨h.shows, List.forall_mem_singleton.mpr trivial⟩⟩
      rw [lastDone?_concat_error]
      exact h.window_iff start finish
  | ok shown =>
      rw [hzoom] at hcalls hresult
      cases hresult with
      | @shown zoomed _ _ hdrawn =>
          rw [h.rows_eq, h.duration_eq] at hdrawn
          refine ⟨hcalls, h.rows_eq, h.duration_eq, fun start finish => ?_,
            List.forall_mem_append.mpr
              ⟨h.shows, List.forall_mem_singleton.mpr ⟨zoomed, rfl, hdrawn⟩⟩⟩
          rw [lastDone?_concat_ok]
          simp

theorem Follows.zoomOut (h : s.Follows rows duration calls) :
    (s.proceed .zoomOut).Follows rows duration (calls ++ [.zoomOut]) := by
  have hcalls := map_call_proceed s .zoomOut
  rw [h.calls_eq] at hcalls
  have hshown : (.ok (.whole s.timeline.rows) : Except (ZoomError α) (Picture α)) =
      .ok (.whole rows) := by rw [h.rows_eq]
  rw [proceed_zoomOut] at hcalls ⊢
  refine ⟨hcalls, h.rows_eq, h.duration_eq, fun start finish => ?_,
    List.forall_mem_append.mpr ⟨h.shows, List.forall_mem_singleton.mpr hshown⟩⟩
  rw [lastDone?_concat_ok]
  simp

theorem follows_foldl (rows : List (Row α)) (duration : α) (calls : List (ZoomCall α)) :
    (calls.foldl proceed (start rows duration)).Follows rows duration calls := by
  induction calls using List.reverseRecOn with
  | nil => exact follows_start rows duration
  | append_singleton calls call ih =>
      rw [List.foldl_append, List.foldl_cons, List.foldl_nil]
      cases call with
      | zoom first last => exact ih.zoom first last
      | zoomOut => exact ih.zoomOut

end ZoomSession

/-- After any calls on a timeline its window is that of the last call that was not refused, all that
was shown was drawn from the rows as they were laid out, and these rows are still there. A further
zoom is refused for the first reason there is or shows its window; where the timeline is changed in
place, a refusal leaves it as it was. -/
theorem timeline_follows_calls (rows : List (Row α)) (duration : α) (calls : List (ZoomCall α)) :
    let s := calls.foldl ZoomSession.proceed (.start rows duration)
    s.Follows rows duration calls ∧
      ∀ first last, ZoomResult s.timeline first last (s.timeline.zoom first last) ∧
        (Redraw.zoom first last).run s.timeline =
          match s.timeline.zoom first last with
          | .ok (zoomed, next) => .ok zoomed next
          | .error e => .error e s.timeline := by
  intro s
  exact ⟨ZoomSession.follows_foldl rows duration calls, fun first last =>
    ⟨s.timeline.zoomResult first last, Redraw.run_zoom s.timeline first last⟩⟩

end

end TraceExplorer
