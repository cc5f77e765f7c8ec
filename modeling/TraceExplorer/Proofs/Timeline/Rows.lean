import TraceExplorer.Proofs.Summary.Share
import TraceExplorer.Timeline.Row

/-!
# Rows on the timeline

Over the rationals every node has a row, which never ends before it starts. The row lies on the
timeline if no span of the node starts at time zero. Such a span is drawn from zero on, but it adds
nothing to the extent of the trace, so it may lie outside.
-/

namespace TraceExplorer

open Reordering (mapM_eq_ok_iff)

structure Row.IsOnTimeline (row : Row Rat) : Prop where
  offset : 0 ≤ row.offset
  width : 0 ≤ row.width
  reach : row.offset + row.width ≤ 100

namespace TraceTree

def firstInstant (t : TraceTree) : Int := (instantsOf t.spans).min?.getD 0

def lastInstant (t : TraceTree) : Int := (instantsOf t.spans).max?.getD 0

/-- What starts at time zero in a node lies within the extent of the tree. -/
structure ZeroFits (t : TraceTree) (g : SpanGroup) : Prop where
  start : g.timestamp = some 0 → t.firstInstant ≤ 0 ∧ 0 ≤ t.lastInstant
  finish : ∀ s ∈ g.spans, s.timestamp = some 0 → s.length ≠ 0 → s.length ≤ t.lastInstant

end TraceTree

section

variable {t : TraceTree} {g : SpanGroup} {s : Span} {spans : List Span}
  {first length start finish d u : Int}

/-! ## Exact rows -/

def Row.exact (first length : Int) (g : SpanGroup) : Row Rat :=
  match g.timestamp with
  | none => ⟨g.id, 0, 0⟩
  | some start =>
    ⟨g.id, ((start - first : Int) : Rat) / length * 100,
      ((g.endAfter start - start : Int) : Rat) / length * 100⟩

theorem div_eq_ok {a b : Rat} (h : b ≠ 0) : Number.Quantity.div a b = .ok (a / b) := if_neg h

theorem percentOf_eq_ok (part : Int) (h : length ≠ 0) :
    Row.percentOf part length = .ok ((part : Rat) / length * 100) := by
  have hlength : (Number.Quantity.count length : Rat) ≠ 0 := Int.cast_ne_zero.mpr h
  rw [Row.percentOf, div_eq_ok hlength]
  rfl

theorem ofGroup_eq_ok (first length : Int) (g : SpanGroup) :
    Row.ofGroup first length g = .ok (Row.exact first length g) := by
  rw [Row.ofGroup, Row.exact]
  cases g.timestamp with
  | none => rfl
  | some start =>
      by_cases hzero : length = 0
      · subst hzero
        simp
        rfl
      · simp only [if_neg hzero, percentOf_eq_ok _ hzero]
        rfl

theorem layout_eq_ok (t : TraceTree) :
    Row.layout t = .ok (t.nodes.map
      (Row.exact t.firstInstant (extentLength (instantsOf t.spans)))) := by
  apply mapM_eq_ok_iff.mpr
  rw [List.forall₂_map_right_iff]
  exact List.forall₂_same.mpr fun g _ => ofGroup_eq_ok _ _ g

theorem id_exact : (Row.exact first length g).id = g.id := by
  rw [Row.exact]
  cases g.timestamp <;> rfl

/-! ## Instants -/

theorem mem_instants_of_start (h : s.timestamp = some u) (hne : u ≠ 0) : u ∈ s.instants := by
  have hstart : s.startTime? = some u := by simp [Span.startTime?, h, hne]
  exact Span.mem_instants_iff.mpr ⟨u, hstart, .inl rfl⟩

theorem mem_instants_of_finish (h : s.timestamp = some u) (hne : u ≠ 0) :
    u + s.length ∈ s.instants := by
  have hstart : s.startTime? = some u := by simp [Span.startTime?, h, hne]
  exact Span.mem_instants_iff.mpr ⟨u, hstart, .inr rfl⟩

theorem mem_ends_iff :
    u ∈ g.ends ↔ ∃ s ∈ g.spans, s.length ≠ 0 ∧ ∃ start, s.timestamp = some start ∧
      u = start + s.length := by
  rw [SpanGroup.ends, List.mem_filterMap]
  refine exists_congr fun s => and_congr_right fun _ => ?_
  rw [Span.filter_duration]
  cases s.timestamp with
  | none => simp
  | some start =>
      by_cases hzero : s.length = 0
      · simp [hzero]
      · simpa [hzero] using eq_comm

theorem within_extent (h : u ∈ instantsOf t.spans) : t.firstInstant ≤ u ∧ u ≤ t.lastInstant := by
  rw [TraceTree.firstInstant, TraceTree.lastInstant]
  constructor
  · cases hfirst : (instantsOf t.spans).min? with
    | none => simp [List.min?_eq_none_iff.mp hfirst] at h
    | some first => exact (List.min?_eq_some_iff.mp hfirst).2 u h
  · cases hlast : (instantsOf t.spans).max? with
    | none => simp [List.max?_eq_none_iff.mp hlast] at h
    | some last => exact (List.max?_eq_some_iff.mp hlast).2 u h

theorem extentLength_eq (t : TraceTree) :
    extentLength (instantsOf t.spans) = t.lastInstant - t.firstInstant := by
  rw [TraceTree.firstInstant, TraceTree.lastInstant, extentLength]
  cases instantsOf t.spans with
  | nil => rfl
  | cons u rest => rw [List.max?_cons', List.min?_cons']; rfl

/-! ## Nodes -/

theorem exists_first_span (h : g.timestamp = some start) :
    ∃ s ∈ g.spans, s.timestamp = some start := by
  obtain ⟨hmem, -⟩ := List.min?_eq_some_iff.mp h
  exact List.mem_filterMap.mp hmem

theorem start_le (h : g.timestamp = some start) (hs : s ∈ g.spans) (hu : s.timestamp = some u) :
    start ≤ u :=
  (List.min?_eq_some_iff.mp h).2 u (List.mem_filterMap.mpr ⟨s, hs, hu⟩)

theorem endAfter_cases (g : SpanGroup) (start : Int) :
    (∃ s ∈ g.spans, s.length ≠ 0 ∧ ∃ u, s.timestamp = some u ∧
      g.endAfter start = u + s.length) ∨ g.endAfter start = start := by
  rw [SpanGroup.endAfter]
  cases hlast : g.ends.max? with
  | none => exact .inr rfl
  | some finish => exact .inl (mem_ends_iff.mp (List.max?_eq_some_iff.mp hlast).1)

theorem le_endAfter (hs : s ∈ g.spans) (hu : s.timestamp = some u) (hlasting : s.length ≠ 0) :
    u + s.length ≤ g.endAfter start := by
  have hmem : u + s.length ∈ g.ends := mem_ends_iff.mpr ⟨s, hs, hlasting, u, hu, rfl⟩
  rw [SpanGroup.endAfter]
  cases hlast : g.ends.max? with
  | none => simp [List.max?_eq_none_iff.mp hlast] at hmem
  | some finish => exact (List.max?_eq_some_iff.mp hlast).2 _ hmem

theorem start_le_endAfter (hlengths : ∀ s ∈ g.spans, 0 ≤ s.length)
    (h : g.timestamp = some start) : start ≤ g.endAfter start := by
  rcases endAfter_cases g start with ⟨s, hs, -, u, hu, heq⟩ | heq
  · have hlength := hlengths s hs
    have hstart := start_le h hs hu
    omega
  · exact heq.ge

/-- A node lies within the extent of its tree if what starts at time zero in it does. -/
theorem within_extent_iff (hg : g ∈ t.nodes) (hlengths : ∀ s ∈ g.spans, 0 ≤ s.length)
    (h : g.timestamp = some start) :
    (t.firstInstant ≤ start ∧ g.endAfter start ≤ t.lastInstant) ↔ t.ZeroFits g := by
  have hinstant {s : Span} {u : Int} (hs : s ∈ g.spans) (hu : u ∈ s.instants) :
      t.firstInstant ≤ u ∧ u ≤ t.lastInstant := by
    apply within_extent
    exact List.mem_flatMap.mpr ⟨s, List.mem_flatMap.mpr ⟨g, hg, hs⟩, hu⟩
  have hforward := start_le_endAfter hlengths h
  constructor
  · rintro ⟨hfirst, hlast⟩
    constructor
    · intro hzero
      obtain rfl := Option.some.inj (h.symm.trans hzero)
      exact ⟨hfirst, hforward.trans hlast⟩
    · intro s hs hzero hlasting
      have hfinish : 0 + s.length ≤ g.endAfter start := le_endAfter hs hzero hlasting
      omega
  · intro hfits
    -- What does not start at zero has its start and its end among the instants of the tree.
    obtain ⟨s, hs, hstart⟩ := exists_first_span h
    have hplaced : t.firstInstant ≤ start ∧ start ≤ t.lastInstant := by
      by_cases hzero : start = 0
      · subst hzero
        exact hfits.start h
      · exact hinstant hs (mem_instants_of_start hstart hzero)
    refine ⟨hplaced.1, ?_⟩
    rcases endAfter_cases g start with ⟨s, hs, hlasting, u, hu, heq⟩ | heq
    · rw [heq]
      by_cases hzero : u = 0
      · subst hzero
        rw [zero_add]
        exact hfits.finish s hs hu hlasting
      · exact (hinstant hs (mem_instants_of_finish hu hzero)).2
    · rw [heq]
      exact hplaced.2

/-! ## Percentages -/

theorem percent_nonneg_iff (hlength : 0 < length) :
    (0 : Rat) ≤ (d : Rat) / length * 100 ↔ 0 ≤ d := by
  have hlength' : (0 : Rat) < length := Int.cast_pos.mpr hlength
  rw [mul_nonneg_iff_of_pos_right (by norm_num), le_div_iff₀ hlength', zero_mul,
    Int.cast_nonneg_iff]

theorem percent_le_hundred_iff (hlength : 0 < length) :
    (d : Rat) / length * 100 ≤ 100 ↔ d ≤ length := by
  have hlength' : (0 : Rat) < length := Int.cast_pos.mpr hlength
  rw [mul_le_iff_le_one_left (by norm_num), div_le_one hlength', Int.cast_le]

theorem isOnTimeline_exact_iff (hlength : 0 < length) (h : g.timestamp = some start) :
    (Row.exact first length g).IsOnTimeline ↔
      first ≤ start ∧ start ≤ g.endAfter start ∧ g.endAfter start ≤ first + length := by
  have hsum : ((start - first : Int) : Rat) / length * 100 +
      ((g.endAfter start - start : Int) : Rat) / length * 100 =
      ((g.endAfter start - first : Int) : Rat) / length * 100 := by
    push_cast
    ring
  rw [Row.exact, h]
  constructor
  · rintro ⟨hoffset, hwidth, hreach⟩
    dsimp only at hoffset hwidth hreach
    rw [percent_nonneg_iff hlength] at hoffset hwidth
    rw [hsum, percent_le_hundred_iff hlength] at hreach
    omega
  · rintro ⟨hoffset, hwidth, hreach⟩
    refine ⟨(percent_nonneg_iff hlength).mpr (by omega),
      (percent_nonneg_iff hlength).mpr (by omega), ?_⟩
    dsimp only
    rw [hsum, percent_le_hundred_iff hlength]
    omega

theorem isOnTimeline_iff (hg : g ∈ t.nodes) (hlengths : ∀ s ∈ g.spans, 0 ≤ s.length) :
    (Row.exact t.firstInstant (extentLength (instantsOf t.spans)) g).IsOnTimeline ↔
      extentLength (instantsOf t.spans) = 0 ∨ t.ZeroFits g := by
  cases h : g.timestamp with
  | none =>
      have hnone : ∀ s ∈ g.spans, s.timestamp = none := by
        have hnil := List.min?_eq_none_iff.mp h
        exact fun s hs => List.filterMap_eq_nil_iff.mp hnil s hs
      have hfits : t.ZeroFits g :=
        ⟨by simp [h], fun s hs hzero => by simp [hnone s hs] at hzero⟩
      simp only [hfits, or_true, iff_true, Row.exact, h]
      exact ⟨le_rfl, le_rfl, by norm_num⟩
  | some start =>
      by_cases hlength : extentLength (instantsOf t.spans) = 0
      · simp only [hlength, true_or, iff_true, Row.exact, h]
        constructor <;> simp
      · have hpos : 0 < extentLength (instantsOf t.spans) := by
          have hnonneg := Batch.extentLength_nonneg (instantsOf t.spans)
          omega
        rw [isOnTimeline_exact_iff hpos h, ← within_extent_iff hg hlengths h, extentLength_eq]
        have hforward := start_le_endAfter hlengths h
        rw [extentLength_eq] at hlength
        constructor
        · rintro ⟨hfirst, -, hlast⟩
          exact .inr ⟨hfirst, by omega⟩
        · rintro (hzero | ⟨hfirst, hlast⟩)
          · exact absurd hzero hlength
          · exact ⟨hfirst, hforward, by omega⟩

theorem width_exact_nonneg (hlengths : ∀ s ∈ g.spans, 0 ≤ s.length) (hlength : 0 ≤ length) :
    0 ≤ (Row.exact first length g).width := by
  rw [Row.exact]
  cases h : g.timestamp with
  | none => exact le_rfl
  | some start =>
      have hforward : (0 : Rat) ≤ ((g.endAfter start - start : Int) : Rat) :=
        Int.cast_nonneg (Int.sub_nonneg.mpr (start_le_endAfter hlengths h))
      have hlength' : (0 : Rat) ≤ length := Int.cast_nonneg hlength
      positivity

end

/-- Every node of the tree of any spans has a row of no negative width. A row lies on the timeline
unless something in its node starts at time zero and lies outside of the extent of the trace; so all
rows do if no span starts at time zero. -/
theorem isOnTimeline_layout {spans : List Span} {t : TraceTree}
    (hdurations : ∀ s ∈ spans, ∀ d, s.duration = some d → 0 ≤ d)
    (ht : TraceTree.build spans = .ok t) :
    ∃ rows : List (Row Rat), Row.layout t = .ok rows ∧
      List.Forall₂ (fun g row => row.id = g.id ∧ 0 ≤ row.width ∧
        (row.IsOnTimeline ↔ extentLength (instantsOf t.spans) = 0 ∨ t.ZeroFits g)) t.nodes rows ∧
      ((∀ s ∈ spans, s.timestamp ≠ some 0) → ∀ row ∈ rows, row.IsOnTimeline) := by
  have hperm := (TraceTree.Built.of_build ht).spans_perm
  have hmem {g : SpanGroup} {s : Span} (hg : g ∈ t.nodes) (hs : s ∈ g.spans) : s ∈ spans :=
    hperm.mem_iff.mp (List.mem_flatMap.mpr ⟨g, hg, hs⟩)
  have hlengths {g : SpanGroup} (hg : g ∈ t.nodes) : ∀ s ∈ g.spans, 0 ≤ s.length := by
    intro s hs
    cases hduration : s.duration with
    | none => simp [Span.length, hduration]
    | some d => simpa [Span.length, hduration] using hdurations s (hmem hg hs) d hduration
  refine ⟨_, layout_eq_ok t, ?_, fun hplaced row hrow => ?_⟩
  · rw [List.forall₂_map_right_iff]
    exact List.forall₂_same.mpr fun g hg => ⟨id_exact,
      width_exact_nonneg (hlengths hg) (Batch.extentLength_nonneg _),
      isOnTimeline_iff hg (hlengths hg)⟩
  · obtain ⟨g, hg, rfl⟩ := List.mem_map.mp hrow
    refine (isOnTimeline_iff hg (hlengths hg)).mpr (.inr ⟨fun hzero => ?_, fun s hs hzero => ?_⟩)
    · obtain ⟨s, hs, hstart⟩ := exists_first_span hzero
      exact absurd hstart (hplaced s (hmem hg hs))
    · exact absurd hzero (hplaced s (hmem hg hs))

/-- A client and its server that starts earlier and ends later, and a child without a time. -/
theorem isOnTimeline_layout_of_legs :
    ∃ (spans : List Span) (t : TraceTree) (rows : List (Row Rat)),
      (∀ s ∈ spans, ∀ d, s.duration = some d → 0 ≤ d) ∧ TraceTree.build spans = .ok t ∧
      Row.layout t = .ok rows ∧ rows.length = 2 ∧ ∀ row ∈ rows, row.IsOnTimeline := by
  let spans : List Span := [
    { traceId := "1", id := "a", timestamp := some (-5), duration := some 20 },
    { traceId := "1", id := "a", timestamp := some (-8), duration := some 40, shared := true },
    { traceId := "1", id := "b", parentId := some "a", duration := some 3 }]
  have hdurations : ∀ s ∈ spans, ∀ d, s.duration = some d → 0 ≤ d := by
    simp [spans]
  have hbuilt : (TraceTree.build spans).toOption.map (·.nodes.length) = some 2 := by
    decide +kernel
  obtain ⟨t, ht, hnodes⟩ := Option.map_eq_some_iff.mp hbuilt
  have ht := toOption_eq_some_iff.mp ht
  obtain ⟨rows, hrows, heach, hall⟩ := isOnTimeline_layout hdurations ht
  exact ⟨spans, t, rows, hdurations, ht, hrows, heach.length_eq ▸ hnodes, hall (by simp [spans])⟩

/-- A root that starts at time zero, before the instants of the trace. -/
theorem layout_left_of_timeline :
    ∃ (spans : List Span) (t : TraceTree) (rows : List (Row Rat)),
      (∀ s ∈ spans, ∀ d, s.duration = some d → 0 ≤ d) ∧ TraceTree.build spans = .ok t ∧
      Row.layout t = .ok rows ∧ ∃ row ∈ rows, ¬ row.IsOnTimeline := by
  let spans : List Span := [
    { traceId := "1", id := "a", timestamp := some 0, duration := some 500 },
    { traceId := "1", id := "b", parentId := some "a", timestamp := some 1000
      duration := some 1000 }]
  have hrows : (TraceTree.build spans).toOption.bind (fun t => (Row.layout t).toOption) =
      some [(⟨"a", -100, 50⟩ : Row Rat), ⟨"b", 0, 100⟩] := by decide +kernel
  obtain ⟨t, ht, hrows⟩ := Option.bind_eq_some_iff.mp hrows
  refine ⟨spans, t, _, by simp [spans], toOption_eq_some_iff.mp ht,
    toOption_eq_some_iff.mp hrows, _, List.mem_cons_self, fun hrow => ?_⟩
  exact absurd hrow.offset (by decide)

end TraceExplorer
