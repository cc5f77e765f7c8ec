import TraceExplorer.Proofs.Timeline.Clipping

/-!
# The spans under a row

A row starts with the earliest span of its node and ends with the latest end of those that last. So
it covers every span that lasts. A span that lasts no time is covered unless it comes after the end
of all those that do, and after the start of another one.
-/

namespace TraceExplorer

namespace TraceTree

def startOf (t : TraceTree) (row : Row Rat) : Rat :=
  t.firstInstant + row.start (extentLength (instantsOf t.spans))

def finishOf (t : TraceTree) (row : Row Rat) : Rat :=
  t.firstInstant + row.finish (extentLength (instantsOf t.spans))

end TraceTree

/-- A time that is after the start of a node and after all that lasts in it is over. -/
structure SpanGroup.IsOver (g : SpanGroup) (u : Int) : Prop where
  started : ∃ s ∈ g.spans, ∃ start, s.timestamp = some start ∧ start < u
  ended : ∀ s ∈ g.spans, s.length ≠ 0 → ∀ start, s.timestamp = some start → start + s.length < u

section

variable {t : TraceTree} {g : SpanGroup} {s : Span} {first length start u : Int}

theorem start_exact (hlength : length ≠ 0) (h : g.timestamp = some start) :
    (Row.exact first length g).start length = start - first := by
  have hlength' : (length : Rat) ≠ 0 := Int.cast_ne_zero.mpr hlength
  rw [Row.start, Row.exact, h]
  push_cast
  field_simp

theorem finish_exact (hlength : length ≠ 0) (h : g.timestamp = some start) :
    (Row.exact first length g).finish length = g.endAfter start - first := by
  have hlength' : (length : Rat) ≠ 0 := Int.cast_ne_zero.mpr hlength
  rw [Row.finish, start_exact hlength h, Row.exact, h]
  push_cast
  field_simp
  ring

/-- A node ends before a time exactly if it is over by then. -/
theorem endAfter_lt_iff (hlengths : ∀ s ∈ g.spans, 0 ≤ s.length) (h : g.timestamp = some start) :
    g.endAfter start < u ↔ g.IsOver u := by
  constructor
  · intro hlate
    obtain ⟨s, hs, hstart⟩ := exists_first_span h
    refine ⟨⟨s, hs, start, hstart, (start_le_endAfter hlengths h).trans_lt hlate⟩, ?_⟩
    intro r hr hlasting v hv
    have hend : v + r.length ≤ g.endAfter start := le_endAfter hr hv hlasting
    exact hend.trans_lt hlate
  · rintro ⟨⟨s, hs, v, hv, hlater⟩, hended⟩
    rcases endAfter_cases g start with ⟨r, hr, hlasting, w, hw, heq⟩ | heq
    · rw [heq]
      exact hended r hr hlasting w hw
    · rw [heq]
      exact (start_le h hs hv).trans_lt hlater

/-- What lasts is not over when it starts, nor when it ends. -/
theorem not_isOver_of_lasting (hs : s ∈ g.spans) (hu : s.timestamp = some u)
    (hlasting : s.length ≠ 0) : ¬ g.IsOver (u + s.length) :=
  fun h => lt_irrefl _ (h.ended s hs hlasting u hu)

/-- A row starts with the first span of its node, and a span ends within the row unless the node is
over by then. -/
theorem covers_exact (hlength : extentLength (instantsOf t.spans) ≠ 0)
    (hlengths : ∀ s ∈ g.spans, 0 ≤ s.length) (hs : s ∈ g.spans) (hu : s.timestamp = some u) :
    let row := Row.exact t.firstInstant (extentLength (instantsOf t.spans)) g
    t.startOf row ≤ u ∧
      ((u + s.length : Int) ≤ t.finishOf row ↔ ¬ g.IsOver (u + s.length)) := by
  obtain ⟨start, hstart⟩ : ∃ start, g.timestamp = some start :=
    Option.ne_none_iff_exists'.mp fun hnone => by
      have hnone' := List.filterMap_eq_nil_iff.mp (List.min?_eq_none_iff.mp hnone) s hs
      simp [hnone'] at hu
  intro row
  have hfirst : t.startOf row = start := by
    rw [TraceTree.startOf, start_exact hlength hstart, add_sub_cancel]
  have hlast : t.finishOf row = g.endAfter start := by
    rw [TraceTree.finishOf, finish_exact hlength hstart, add_sub_cancel]
  rw [hfirst, hlast, Int.cast_le, Int.cast_le, ← endAfter_lt_iff hlengths hstart, not_lt]
  exact ⟨start_le hstart hs hu, Iff.rfl⟩

end

/-- In the tree of any spans whose trace has a length, each row starts no later than any span of its
node. It ends no earlier than the span unless the span lasts no time and the node is over when it
comes; so a node of which every span with a start lasts is covered as a whole. -/
theorem covers_layout {spans : List Span} {t : TraceTree}
    (hdurations : ∀ s ∈ spans, ∀ d, s.duration = some d → 0 ≤ d)
    (ht : TraceTree.build spans = .ok t) (hlength : extentLength (instantsOf t.spans) ≠ 0) :
    ∃ rows : List (Row Rat), Row.layout t = .ok rows ∧
      List.Forall₂ (fun g row => row.id = g.id ∧
        ∀ s ∈ g.spans, ∀ u : Int, s.timestamp = some u → t.startOf row ≤ u ∧
          ((u + s.length : Int) ≤ t.finishOf row ↔ ¬ (s.length = 0 ∧ g.IsOver u)))
        t.nodes rows := by
  have hperm := (TraceTree.Built.of_build ht).spans_perm
  refine ⟨_, layout_eq_ok t, ?_⟩
  rw [List.forall₂_map_right_iff]
  refine List.forall₂_same.mpr fun g hg => ⟨id_exact, fun s hs u hu => ?_⟩
  have hlengths : ∀ s ∈ g.spans, 0 ≤ s.length := by
    intro s hs
    have hmem : s ∈ spans := hperm.mem_iff.mp (List.mem_flatMap.mpr ⟨g, hg, hs⟩)
    cases hduration : s.duration with
    | none => simp [Span.length, hduration]
    | some d => simpa [Span.length, hduration] using hdurations s hmem d hduration
  obtain ⟨hfirst, hlast⟩ := covers_exact hlength hlengths hs hu
  refine ⟨hfirst, hlast.trans (not_congr ?_)⟩
  by_cases hbrief : s.length = 0
  · simp [hbrief]
  · simp [hbrief, not_isOver_of_lasting hs hu hbrief]

/-- A client, its server that ends later, and a report of the server at that end. -/
theorem covers_layout_of_legs :
    let spans : List Span := [
      { traceId := "1", id := "a", timestamp := some (-5), duration := some 20 },
      { traceId := "1", id := "a", timestamp := some 3, duration := some 40, shared := true },
      { traceId := "1", id := "a", timestamp := some 43, duration := some 0, shared := true }]
    ∃ (t : TraceTree) (rows : List (Row Rat)),
      (∀ s ∈ spans, ∀ d, s.duration = some d → 0 ≤ d) ∧ TraceTree.build spans = .ok t ∧
      extentLength (instantsOf t.spans) ≠ 0 ∧ Row.layout t = .ok rows ∧ t.nodes.length = 1 ∧
      List.Forall₂ (fun g row => row.id = g.id ∧
        ∀ s ∈ g.spans, ∀ u : Int, s.timestamp = some u → t.startOf row ≤ u ∧
          ((u + s.length : Int) ≤ t.finishOf row ↔ ¬ (s.length = 0 ∧ g.IsOver u)))
        t.nodes rows := by
  intro spans
  have hdurations : ∀ s ∈ spans, ∀ d, s.duration = some d → 0 ≤ d := by
    simp [spans]
  have hview : (TraceTree.build spans).toOption.map
      (fun t => (extentLength (instantsOf t.spans), t.nodes.length)) = some (48, 1) := by
    decide +kernel
  obtain ⟨t, ht, hview⟩ := Option.map_eq_some_iff.mp hview
  obtain ⟨hextent, hnodes⟩ := Prod.mk.inj hview
  have ht := toOption_eq_some_iff.mp ht
  have hlength : extentLength (instantsOf t.spans) ≠ 0 := by
    rw [hextent]
    decide
  obtain ⟨rows, hrows, hcovers⟩ := covers_layout hdurations ht hlength
  exact ⟨t, rows, hdurations, ht, hlength, hrows, hnodes, hcovers⟩

/-- A server reports without a duration after its client has ended, so the row ends before it. -/
theorem finishOf_layout_lt_leg :
    let spans : List Span := [
      { traceId := "1", id := "a", timestamp := some 10, duration := some 5 },
      { traceId := "1", id := "a", timestamp := some 20, shared := true }]
    ∃ (t : TraceTree) (g : SpanGroup) (row : Row Rat),
      (∀ s ∈ spans, ∀ d, s.duration = some d → 0 ≤ d) ∧ TraceTree.build spans = .ok t ∧
      extentLength (instantsOf t.spans) ≠ 0 ∧ t.nodes = [g] ∧ Row.layout t = .ok [row] ∧
      ∃ s ∈ g.spans, ∃ u : Int, s.timestamp = some u ∧
        t.finishOf row < (u + s.length : Int) := by
  intro spans
  have hview : (TraceTree.build spans).toOption.bind (fun t =>
      (Row.layout t).toOption.map fun rows => (extentLength (instantsOf t.spans),
        t.nodes.map (·.spans.map fun s => (s.timestamp, s.length)),
        rows.map t.finishOf)) =
      some ((10 : Int), [[(some 10, 5), (some 20, 0)]], [(15 : Rat)]) := by decide +kernel
  obtain ⟨t, ht, hview⟩ := Option.bind_eq_some_iff.mp hview
  obtain ⟨rows, hrows, hview⟩ := Option.map_eq_some_iff.mp hview
  rw [toOption_eq_some_iff] at ht hrows
  obtain ⟨hextent, hview⟩ := Prod.mk.inj hview
  obtain ⟨hnodes, hfinish⟩ := Prod.mk.inj hview
  obtain ⟨g, hg, hspans⟩ := List.map_eq_singleton_iff.mp hnodes
  obtain ⟨row, rfl, hend⟩ := List.map_eq_singleton_iff.mp hfinish
  obtain ⟨s, hs, hlast⟩ : ∃ s ∈ g.spans, (s.timestamp, s.length) = (some 20, 0) :=
    List.mem_map.mp (hspans ▸ by simp)
  obtain ⟨hstart, hlength⟩ := Prod.mk.inj hlast
  refine ⟨t, g, row, by simp [spans], ht, by rw [hextent]; decide, hg, hrows, s, hs, 20,
    hstart, ?_⟩
  rw [hend, hlength]
  norm_num

end TraceExplorer
