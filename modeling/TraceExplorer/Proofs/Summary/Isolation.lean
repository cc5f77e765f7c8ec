import TraceExplorer.Proofs.Number.Rounding
import TraceExplorer.Proofs.Success
import TraceExplorer.Proofs.Summary.Batch
import TraceExplorer.Span.Reader

/-!
# Traces of a batch side by side

A trace that cannot be summarized costs a batch only its own row. A trace that can be summarized but
not written as a row costs it the whole list.
-/

namespace TraceExplorer

open Number (Double Scalar ArithmeticError)

section

variable {part whole : Int} {q : Rat} {x : Double}

/-! ## Widths -/

theorem exists_value_ofResult (negative : Bool) (hq : 0 ≤ q)
    (hfar : 2 * q + 1 < Double.overflowBound) :
    ∃ v, (Double.ofResult negative q).value? = some v ∧ 0 ≤ v ∧ v ≤ 2 * q + 1 := by
  rw [Double.ofResult]
  split
  · refine ⟨0, by cases negative <;> rfl, le_rfl, by linarith⟩
  · exact Number.exists_value_ofRat hq hfar

theorem exists_share {n : Nat} (hpart : 0 ≤ part) (hle : part ≤ n * whole) (hwhole : 0 < whole)
    (hfar : 2 * (n : Rat) + 1 < Double.overflowBound) :
    ∃ x v, Double.ofQuotient part whole = .ok x ∧ x.value? = some v ∧ 0 ≤ v ∧ v ≤ 2 * n + 1 := by
  have hwhole' : (0 : Rat) < whole := by exact_mod_cast hwhole
  have hnonneg : (0 : Rat) ≤ (part : Rat) / whole :=
    div_nonneg (by exact_mod_cast hpart) hwhole'.le
  have hle' : (part : Rat) / whole ≤ n := by
    rw [div_le_iff₀ hwhole']
    exact_mod_cast hle
  obtain ⟨v, hv, hv0, hvn⟩ :=
    exists_value_ofResult (decide (part < 0) != decide (whole < 0)) hnonneg (by linarith)
  refine ⟨_, v, ?_, hv, hv0, by linarith⟩
  rw [Double.ofQuotient, if_neg hwhole.ne']
  split
  · rename_i hinfinite
    rw [hinfinite] at hv
    cases hv
  · rfl

theorem mul_hundred {v : Rat} (hx : x.value? = some v) (hv0 : 0 ≤ v)
    (hfar : 2 * (v * 100) + 1 < Double.overflowBound) :
    ∃ w, (Double.mul x (.finite 100)).value? = some w := by
  have hproduct (negative : Bool) : ∃ w, (Double.ofResult negative (v * 100)).value? = some w := by
    obtain ⟨w, hw, -⟩ := exists_value_ofResult negative (q := v * 100) (by linarith) hfar
    exact ⟨w, hw⟩
  cases x with
  | finite q =>
      obtain rfl := Option.some.inj hx
      exact hproduct _
  | negativeZero =>
      obtain rfl := Option.some.inj hx
      exact hproduct _
  | infinite negative => cases hx
  | nan => cases hx

theorem scalar_mul_hundred (x : Double) :
    (Scalar.real x).mul (.whole 100) = .ok (.real (Double.mul x (.finite 100))) := by
  have hhundred : Double.ofInt 100 = .ok (.finite 100) := by decide +kernel
  rw [Scalar.mul, Scalar.liftReal, Scalar.toDouble, Scalar.toDouble, hhundred]
  · rfl
  · intro a b h
    cases h

/-- The percentage of a part that is not too many times as large as the whole is a number. -/
theorem exists_percentage_of_le {n : Nat} (hpart : 0 ≤ part) (hle : part ≤ n * whole)
    (hwhole : 0 < whole) (hfar : 400 * (n : Rat) + 201 < Double.overflowBound) :
    ∃ percent, percentage part whole = .ok percent := by
  obtain ⟨x, v, hshare, hv, hv0, hvn⟩ := exists_share hpart hle hwhole (by linarith)
  obtain ⟨w, hw⟩ := mul_hundred hv hv0 (by linarith)
  have hdiv : (Scalar.whole part).div (.whole whole) = .ok (.real x) := by
    rw [Scalar.div, hshare]
    rfl
  obtain ⟨percent, hpercent⟩ : ∃ percent, (Double.mul x (.finite 100)).truncate? = some percent :=
    ⟨_, congrArg (Option.map _) hw⟩
  refine ⟨percent, bind_eq_ok_iff.mpr ⟨_, hdiv, bind_eq_ok_iff.mpr ⟨_, scalar_mul_hundred x, ?_⟩⟩⟩
  simp only [Scalar.exact, hpercent]
  rfl

/-- The width of a row is a number, however long the traces are. -/
theorem exists_percentage (hpart : 0 ≤ part) (hle : part ≤ whole) (hwhole : 0 < whole) :
    ∃ n, percentage part whole = .ok n := by
  have hfar : 400 * ((1 : Nat) : Rat) + 201 < Double.overflowBound := by decide +kernel
  exact exists_percentage_of_le hpart (by omega) hwhole hfar

end

/-! ## Rows -/

/-- A row but for its width, which depends on the longest trace of the list. -/
def TraceListItem.unscaled (item : TraceListItem) : TraceListItem := { item with width := none }

/-- The row of a summary but for its length and the share of a service. -/
def TraceListItem.untimed (s : TraceSummary) (startText : String) : TraceListItem := {
  traceId := s.traceId.getD ""
  timestamp := s.timestamp
  startText
  spanCount := s.spanCount
  services := ServiceSummary.all s.grouped
  errorClass :=
    if s.errorType = .none then none else some ("trace-error-" ++ s.errorType.name) }

section

variable {options : ListOptions} {s : TraceSummary} {item timed : TraceListItem}
  {duration longest longest' : Int}

theorem liftArithmetic_eq_ok_iff {α : Type} {x : Except ArithmeticError α} {a : α} :
    liftArithmetic x = .ok a ↔ x = .ok a := by
  cases x <;> simp [liftArithmetic]

theorem withDuration_eq_ok_iff : item.withDuration duration longest = .ok timed ↔
    ∃ width milliseconds text, percentage duration longest = .ok width ∧
      Double.ofQuotient duration 1000 = .ok milliseconds ∧
      durationText (.whole duration) = .ok text ∧
      timed = { item with
        duration, width := some width, milliseconds := some milliseconds
        durationText := text } := by
  simp only [TraceListItem.withDuration, bind_eq_ok_iff]
  constructor
  · rintro ⟨width, hwidth, milliseconds, hmilliseconds, text, htext, h⟩
    exact ⟨width, milliseconds, text, hwidth, hmilliseconds, htext, (Except.ok.inj h).symm⟩
  · rintro ⟨width, milliseconds, text, hwidth, hmilliseconds, htext, rfl⟩
    exact ⟨width, hwidth, milliseconds, hmilliseconds, text, htext, rfl⟩

/-- A summary has a row if its start, its length and the share of the service can be written. -/
theorem ofSummary_eq_ok_iff : TraceListItem.ofSummary options longest s = .ok item ↔
    ∃ startText timed share,
      Calendar.formatStamp s.timestamp options.utc options.zone = .ok startText ∧
      (if s.duration = 0 then .ok (.untimed s startText)
        else (TraceListItem.untimed s startText).withDuration s.duration longest) = .ok timed ∧
      TraceListItem.shareOfService options s = .ok share ∧
      item = { timed with servicePercentage := share } := by
  simp only [TraceListItem.ofSummary, bind_eq_ok_iff, liftArithmetic_eq_ok_iff]
  constructor
  · rintro ⟨startText, hstart, timed, htimed, share, hshare, h⟩
    exact ⟨startText, timed, share, hstart, htimed, hshare, (Except.ok.inj h).symm⟩
  · rintro ⟨startText, timed, share, hstart, htimed, hshare, rfl⟩
    exact ⟨startText, hstart, timed, htimed, share, hshare, rfl⟩

/-- What a row takes over from its summary, however long it is. -/
theorem copied_of_ofSummary (h : TraceListItem.ofSummary options longest s = .ok item) :
    item.traceId = s.traceId.getD "" ∧ item.timestamp = s.timestamp ∧
      item.spanCount = s.spanCount ∧ item.services = ServiceSummary.all s.grouped := by
  obtain ⟨startText, timed, share, -, htimed, -, rfl⟩ := ofSummary_eq_ok_iff.mp h
  split at htimed
  · obtain rfl := Except.ok.inj htimed
    exact ⟨rfl, rfl, rfl, rfl⟩
  · obtain ⟨width, milliseconds, text, -, -, -, rfl⟩ := withDuration_eq_ok_iff.mp htimed
    exact ⟨rfl, rfl, rfl, rfl⟩

theorem timed_longest (hnonneg : 0 ≤ duration) (hle : duration ≤ longest')
    (h : (if duration = 0 then .ok item else item.withDuration duration longest) = .ok timed) :
    ∃ timed', (if duration = 0 then .ok item else item.withDuration duration longest') =
        .ok timed' ∧ timed'.unscaled = timed.unscaled := by
  by_cases hzero : duration = 0
  · rw [if_pos hzero] at h ⊢
    exact ⟨timed, h, rfl⟩
  · rw [if_neg hzero] at h ⊢
    obtain ⟨width, milliseconds, text, -, hmilliseconds, htext, rfl⟩ :=
      withDuration_eq_ok_iff.mp h
    obtain ⟨width', hwidth'⟩ := exists_percentage hnonneg hle (by omega)
    exact ⟨_, withDuration_eq_ok_iff.mpr
      ⟨width', milliseconds, text, hwidth', hmilliseconds, htext, rfl⟩, rfl⟩

/-- Whether a summary has a row does not depend on the longest trace, and only the width of the row
does. -/
theorem ofSummary_longest (hnonneg : 0 ≤ s.duration) (hle : s.duration ≤ longest')
    (h : TraceListItem.ofSummary options longest s = .ok item) :
    ∃ item', TraceListItem.ofSummary options longest' s = .ok item' ∧
      item'.unscaled = item.unscaled := by
  obtain ⟨startText, timed, share, hstart, htimed, hshare, rfl⟩ := ofSummary_eq_ok_iff.mp h
  obtain ⟨timed', htimed', hsame⟩ := timed_longest hnonneg hle htimed
  refine ⟨_, ofSummary_eq_ok_iff.mpr
    ⟨startText, timed', share, hstart, htimed', hshare, rfl⟩, ?_⟩
  exact congrArg (fun item => { item with servicePercentage := share }) hsame

end

namespace Batch

open TraceListItem

def listOf (options : ListOptions) (traces : List (List Span)) : List TraceListItem :=
  (ofTraces options traces).items.toOption.getD []

def outcomeOf (spans : List Span) : Outcome :=
  ((Outcome.ofSpans Except.ok (Classifier.standard (σ := Unit)) spans).run ()).1

def plainRow? (options : ListOptions) (s : TraceSummary) : Option TraceListItem :=
  (ofSummary options s.duration s).toOption.map (·.unscaled)

section

variable {options : ListOptions} {spans : List Span} {traces : List (List Span)}
  {s : TraceSummary} {summaries : List TraceSummary} {items : List TraceListItem}

/-! ## Skipped traces -/

theorem skipped_eq :
    (ofTraces options traces).skipped =
      traces.filterMap fun spans => (outcomeOf spans).skipped? := by
  change List.filterMap (·.skipped?)
    ((traces.mapM (Outcome.ofSpans Except.ok (Classifier.standard (σ := Unit)))).run ()).1 = _
  rw [run_mapM, List.filterMap_map]
  rfl

theorem skipped_ofTraces :
    (ofTraces options traces).skipped =
      traces.flatMap fun spans => (ofTraces options [spans]).skipped := by
  simp only [skipped_eq, List.filterMap_eq_flatMap_toList, List.flatMap_singleton]

/-! ## Listed traces -/

theorem extentLength_nonneg (instants : List Int) : 0 ≤ extentLength instants := by
  rw [extentLength]
  split
  · rename_i last first hlast hfirst
    have hle := (List.max?_eq_some_iff.mp hlast).2 first (List.min?_eq_some_iff.mp hfirst).1
    omega
  · exact le_rfl

theorem grouped_and_duration {errorType : ErrorType}
    (h : TraceSummary.ofSpans spans errorType = .ok s) :
    s.grouped = .ofSpans spans ∧ s.duration = extentLength (instantsOf spans) :=
  ⟨(TraceSummary.summarizes_of_ofSpans h).grouped, (TraceSummary.summarizes_of_ofSpans h).duration⟩

/-- A summary is that of the spans of a tree. -/
theorem exists_tree_of_summary (h : summaryOf? spans = some s) :
    ∃ t errorType, TraceTree.build spans = .ok t ∧
      TraceSummary.ofSpans t.spans errorType = .ok s := by
  by_cases hne : spans = []
  · subst hne
    cases h
  · cases htree : TraceTree.build spans with
    | error e =>
        have hfailed : Outcome.treeOf Except.ok spans = .error e := by
          simp [Outcome.treeOf, hne, bind, Except.bind, htree]
        simp only [summaryOf?, Outcome.ofSpans, hfailed] at h
        cases h
    | ok tree =>
        rw [summaryOf?_eq htree hne, plainSummary?, toOption_eq_some_iff] at h
        exact ⟨tree, _, rfl, h⟩

theorem duration_nonneg (h : summaryOf? spans = some s) : 0 ≤ s.duration := by
  obtain ⟨_, _, -, hsummary⟩ := exists_tree_of_summary h
  rw [(grouped_and_duration hsummary).2]
  exact extentLength_nonneg _

theorem duration_le_longest (h : s ∈ summaries) :
    s.duration ≤ (summaries.map (·.duration)).max?.getD 0 := by
  have hmem : s.duration ∈ summaries.map (·.duration) := List.mem_map_of_mem h
  cases hmax : (summaries.map (·.duration)).max? with
  | none => simp [List.max?_eq_none_iff.mp hmax] at hmem
  | some longest => exact (List.max?_eq_some_iff.mp hmax).2 _ hmem

theorem exists_rank_iff (hnonneg : ∀ s ∈ summaries, 0 ≤ s.duration) :
    (∃ items, rank options summaries = .ok items) ↔
      ∀ s ∈ summaries, ∃ item, ofSummary options s.duration s = .ok item := by
  have hrank : (∃ items, rank options summaries = .ok items) ↔
      ∃ rows, summaries.mapM (ofSummary options ((summaries.map (·.duration)).max?.getD 0)) =
        .ok rows :=
    ⟨fun ⟨_, h⟩ => (rank_eq_ok_iff.mp h).imp fun _ => And.left,
      fun ⟨rows, h⟩ => ⟨_, rank_eq_ok_iff.mpr ⟨rows, h, rfl⟩⟩⟩
  rw [hrank, exists_mapM_iff]
  refine forall₂_congr fun s hs => ⟨fun ⟨item, h⟩ => ?_, fun ⟨item, h⟩ => ?_⟩
  · exact (ofSummary_longest (hnonneg s hs) le_rfl h).imp fun _ => And.left
  · exact (ofSummary_longest (hnonneg s hs) (duration_le_longest hs) h).imp fun _ => And.left

theorem plainRow?_of_row {longest : Int} {item : TraceListItem} (hnonneg : 0 ≤ s.duration)
    (h : ofSummary options longest s = .ok item) : plainRow? options s = some item.unscaled := by
  obtain ⟨item', hitem', hsame⟩ := ofSummary_longest hnonneg le_rfl h
  rw [plainRow?, hitem', ← hsame]
  rfl

theorem map_unscaled_rank (hnonneg : ∀ s ∈ summaries, 0 ≤ s.duration)
    (h : rank options summaries = .ok items) :
    (items.map (·.unscaled)).Perm (summaries.filterMap (plainRow? options)) := by
  obtain ⟨rows, hrows, rfl⟩ := rank_eq_ok_iff.mp h
  have hplain : rows.map (·.unscaled) = summaries.filterMap (plainRow? options) := by
    generalize (summaries.map (·.duration)).max?.getD 0 = longest at hrows
    have heach := Reordering.mapM_eq_ok_iff.mp hrows
    clear hrows h
    induction heach with
    | nil => rfl
    | cons hfirst _ ih =>
        obtain ⟨hhead, htail⟩ := List.forall_mem_cons.mp hnonneg
        rw [List.map_cons, List.filterMap_cons, plainRow?_of_row hhead hfirst, ih htail]
  exact ((List.mergeSort_perm rows le).map _).trans (hplain ▸ .refl _)

theorem plainRows_of_items (h : (ofTraces options traces).items = .ok items) :
    (items.map (·.unscaled)).Perm
      ((traces.filterMap summaryOf?).filterMap (plainRow? options)) := by
  rw [items_ofTraces] at h
  refine map_unscaled_rank (fun s hs => ?_) h
  obtain ⟨spans, -, hspans⟩ := List.mem_filterMap.mp hs
  exact duration_nonneg hspans

theorem exists_items_iff :
    (∃ items, (ofTraces options traces).items = .ok items) ↔
      ∀ spans ∈ traces, ∀ s, summaryOf? spans = some s →
        ∃ item, ofSummary options s.duration s = .ok item := by
  rw [items_ofTraces, exists_rank_iff]
  · simp only [List.mem_filterMap]
    exact ⟨fun h spans hspans s hs => h s ⟨spans, hspans, hs⟩,
      fun h s ⟨spans, hspans, hs⟩ => h spans hspans s hs⟩
  · intro s hs
    obtain ⟨spans, -, hspans⟩ := List.mem_filterMap.mp hs
    exact duration_nonneg hspans

theorem length_of_items (h : (ofTraces options traces).items = .ok items) :
    items.length = (traces.filterMap summaryOf?).length := by
  rw [items_ofTraces] at h
  obtain ⟨rows, hrows, rfl⟩ := rank_eq_ok_iff.mp h
  rw [List.length_mergeSort, (Reordering.mapM_eq_ok_iff.mp hrows).length_eq]

/-- Every trace is either summarized or skipped. -/
theorem length_summary_add_skipped (o : Outcome) :
    o.summary?.toList.length + o.skipped?.toList.length = 1 := by
  rw [Outcome.summary?, Outcome.skipped?]
  cases o.result <;> rfl

end

/-- What each trace of a batch does to the others. What is skipped is what each trace on its own
skips. There is a list if each trace on its own has one, and then it has the rows of all of them,
widths apart. A trace on its own that has a list is either its only row or skipped. -/
structure SideBySide (options : ListOptions) (traces : List (List Span)) : Prop where
  skipped : (ofTraces options traces).skipped =
    traces.flatMap fun spans => (ofTraces options [spans]).skipped
  listed : (∃ items, (ofTraces options traces).items = .ok items) ↔
    ∀ spans ∈ traces, ∃ items, (ofTraces options [spans]).items = .ok items
  rows : ∀ items, (ofTraces options traces).items = .ok items →
    (items.map (·.unscaled)).Perm
      (traces.flatMap fun spans => (listOf options [spans]).map (·.unscaled))
  once : ∀ spans ∈ traces, ∀ items, (ofTraces options [spans]).items = .ok items →
    items.length + (ofTraces options [spans]).skipped.length = 1

/-- A trace that cannot be summarized is skipped for itself, but one summary that cannot be written
as a row leaves the whole batch without a list. -/
theorem sideBySide_ofTraces (options : ListOptions) (traces : List (List Span)) :
    SideBySide options traces where
  skipped := skipped_ofTraces
  listed := by
    simp only [exists_items_iff, List.mem_singleton, forall_eq]
  rows := by
    intro items hitems
    have halone : ∀ spans ∈ traces, ∃ rows, (ofTraces options [spans]).items = .ok rows := by
      have hlisted := exists_items_iff.mp ⟨items, hitems⟩
      intro spans hspans
      refine exists_items_iff.mpr fun spans' hspans' => ?_
      obtain rfl := List.mem_singleton.mp hspans'
      exact hlisted spans' hspans
    -- The rows of the batch, as those of the lists of one trace each.
    have hsplit : (traces.filterMap summaryOf?).filterMap (plainRow? options) =
        traces.flatMap fun spans =>
          ([spans].filterMap summaryOf?).filterMap (plainRow? options) := by
      rw [List.filterMap_filterMap, List.filterMap_eq_flatMap_toList]
      refine List.flatMap_congr fun spans _ => ?_
      rw [List.filterMap_filterMap, List.filterMap_eq_flatMap_toList, List.flatMap_singleton]
    refine (plainRows_of_items hitems).trans ?_
    rw [hsplit]
    refine List.Perm.flatMap_left _ fun spans hspans => ?_
    obtain ⟨rows, hrows⟩ := halone spans hspans
    rw [listOf, hrows]
    exact (plainRows_of_items hrows).symm
  once := by
    intro spans _ items hitems
    rw [length_of_items hitems, skipped_eq, List.filterMap_eq_flatMap_toList,
      List.flatMap_singleton, List.filterMap_eq_flatMap_toList, List.flatMap_singleton]
    exact length_summary_add_skipped (outcomeOf spans)

/-- A trace whose start is too far in the future for a calendar is not skipped. It leaves the batch
without a list, although the other trace on its own has one. -/
theorem items_error_of_late_start :
    ∃ late early : Span,
      Span.ofJson (.object [("traceId", .text "1"), ("id", .text "1"),
        ("timestamp", .whole 1000000000000000000), ("duration", .whole 5)]) = .ok late ∧
      Span.ofJson (.object [("traceId", .text "2"), ("id", .text "2"),
        ("timestamp", .whole 1000000), ("duration", .whole 7)]) = .ok early ∧
      (ofTraces { utc := true } [[late], [early]]).items =
        .error (.unusableValue "year is out of range") ∧
      (ofTraces { utc := true } [[late], [early]]).skipped = [] ∧
      (listOf { utc := true } [[early]]).length = 1 := by
  refine ⟨{
      traceId := "0000000000000001", id := "0000000000000001"
      timestamp := some 1000000000000000000, duration := some 5 }, {
      traceId := "0000000000000002", id := "0000000000000002"
      timestamp := some 1000000, duration := some 7 }, ?_, ?_, ?_, ?_, ?_⟩
  · rfl
  · rfl
  · decide +kernel
  · decide +kernel
  · decide +kernel

end Batch

end TraceExplorer
