import TraceExplorer.Proofs.Span.WellFormed
import TraceExplorer.Proofs.Summary.Isolation

/-!
# The share of a service

A service takes no more than all of a trace, as long as its spans lie within the extent of the
trace. A span that lasts but has no start does not: it counts from zero on for its services and
adds nothing to the extent.
-/

namespace TraceExplorer

/-- The span lasts but has no start. -/
def Span.isAdrift (s : Span) : Bool := s.startTime?.isNone && s.length != 0

open Number (Double Scalar)

section

variable {part whole percent : Int} {q v : Rat} {x : Double}

/-! ## Percentages -/

theorem value_ofRat (hq : 0 < q) (hv : (Double.ofRat q).value? = some v) :
    v = Number.nearestMultiple q := by
  have hsign : ¬ q < 0 := not_lt.mpr hq.le
  rw [Double.ofRat, if_neg hq.ne', if_neg hsign] at hv
  dsimp only at hv
  split at hv
  · cases hv
  · split at hv
    · rename_i hzero
      rw [decide_eq_false hsign] at hv
      rw [hzero]
      exact (Option.some.inj hv).symm
    · exact (Option.some.inj hv).symm

theorem value_ofResult {negative : Bool} (hq : 0 ≤ q)
    (hv : (Double.ofResult negative q).value? = some v) :
    0 ≤ v ∧ ∀ n : Nat, n < 2 ^ 53 → q ≤ n → v ≤ n := by
  rcases hq.eq_or_lt with rfl | hpos
  · rw [Double.ofResult, if_pos rfl] at hv
    obtain rfl : v = 0 := by cases negative <;> exact (Option.some.inj hv).symm
    exact ⟨le_rfl, fun n _ hn => hn⟩
  · rw [Double.ofResult, if_neg hpos.ne'] at hv
    rw [value_ofRat hpos hv]
    exact ⟨Number.nearestMultiple_nonneg hpos,
      fun n hn hle => Number.nearestMultiple_le_natCast hpos hle hn⟩

theorem truncate_mul_hundred (h : (Double.mul x (.finite 100)).truncate? = some percent) :
    ∃ negative share product, x.value? = some share ∧
      (Double.ofResult negative (share * 100)).value? = some product ∧
      percent = if product < 0 then -(-product).floor else product.floor := by
  obtain ⟨product, hproduct, rfl⟩ := Option.map_eq_some_iff.mp h
  cases x with
  | finite q => exact ⟨_, q, product, rfl, hproduct, rfl⟩
  | negativeZero => exact ⟨_, 0, product, rfl, hproduct, rfl⟩
  | infinite negative => simp [Double.mul, Double.value?] at hproduct
  | nan => cases hproduct

/-- A percentage is the integer part of a rounded product of a rounded quotient. -/
theorem percentage_eq_ok (hwhole : 0 < whole) (h : percentage part whole = .ok percent) :
    ∃ negative negative' share product,
      (Double.ofResult negative ((part : Rat) / whole)).value? = some share ∧
      (Double.ofResult negative' (share * 100)).value? = some product ∧
      percent = if product < 0 then -(-product).floor else product.floor := by
  obtain ⟨share, hshare, h⟩ := bind_eq_ok_iff.mp h
  obtain ⟨product, hproduct, h⟩ := bind_eq_ok_iff.mp h
  obtain ⟨x, hx, rfl⟩ : ∃ x, Double.ofQuotient part whole = .ok x ∧ share = .real x := by
    rw [Scalar.div] at hshare
    cases hx : Double.ofQuotient part whole with
    | error e => simp [hx, Except.map] at hshare
    | ok x =>
        rw [hx] at hshare
        exact ⟨x, rfl, (Except.ok.inj hshare).symm⟩
  obtain rfl := Except.ok.inj ((scalar_mul_hundred x).symm.trans hproduct)
  have htruncate : (Double.mul x (.finite 100)).truncate? = some percent := by
    rw [Scalar.exact] at h
    split at h
    · rename_i n hn
      rw [hn, Except.ok.inj h]
    · cases h
  obtain ⟨negative, share, product, hshare, hresult⟩ := truncate_mul_hundred htruncate
  rw [Double.ofQuotient, if_neg hwhole.ne'] at hx
  split at hx
  · cases hx
  · exact ⟨_, negative, share, product, Except.ok.inj hx ▸ hshare, hresult⟩

theorem percentage_bounds (hpart : 0 ≤ part) (hwhole : 0 < whole)
    (h : percentage part whole = .ok percent) : 0 ≤ percent ∧ (part ≤ whole → percent ≤ 100) := by
  obtain ⟨_, _, share, product, hshare, hproduct, rfl⟩ := percentage_eq_ok hwhole h
  have hwhole' : (0 : Rat) < whole := by exact_mod_cast hwhole
  have hquotient : (0 : Rat) ≤ (part : Rat) / whole :=
    div_nonneg (by exact_mod_cast hpart) hwhole'.le
  -- Neither the quotient nor the product is rounded past one or a hundred: both are doubles.
  obtain ⟨hshare0, hshare1⟩ := value_ofResult hquotient hshare
  obtain ⟨hproduct0, hproduct1⟩ := value_ofResult (mul_nonneg hshare0 (by norm_num)) hproduct
  rw [if_neg (not_lt.mpr hproduct0)]
  refine ⟨Int.floor_nonneg.mpr hproduct0, fun hle => ?_⟩
  have hone : share ≤ (1 : Nat) := by
    refine hshare1 1 (by norm_num) ?_
    rw [div_le_iff₀ hwhole']
    simpa using hle
  have hhundred : product ≤ (100 : Nat) := hproduct1 100 (by norm_num) (by
    push_cast at hone ⊢
    linarith)
  have hfloor : (product.floor : Rat) ≤ product := Int.floor_le product
  exact_mod_cast hfloor.trans hhundred

end

/-! ## Time within a trace -/

section

variable {spans : List Span} {s : Span} {service : Text} {i : Interval}

theorem exists_extent (instants : List Int) :
    ∃ first last, first ≤ last ∧ extentLength instants = last - first ∧
      ∀ u ∈ instants, first ≤ u ∧ u ≤ last := by
  rw [extentLength]
  split
  · rename_i last first hlast hfirst
    obtain ⟨hmem, hlow⟩ := List.min?_eq_some_iff.mp hfirst
    obtain ⟨-, hhigh⟩ := List.max?_eq_some_iff.mp hlast
    exact ⟨first, last, hhigh first hmem, rfl, fun u hu => ⟨hlow u hu, hhigh u hu⟩⟩
  · rename_i hnone
    cases instants with
    | nil => exact ⟨0, 0, le_rfl, rfl, by simp⟩
    | cons u rest =>
        exact (hnone _ _ List.max?_cons' List.min?_cons').elim

/-- A span that lasts and is not adrift starts and ends at instants of its trace. -/
theorem Span.instants_of_lasting (h : s.isAdrift = false) (hlasting : s.length ≠ 0) :
    s.timestamp.getD 0 ∈ s.instants ∧ s.timestamp.getD 0 + s.length ∈ s.instants := by
  obtain ⟨start, hstart⟩ := Option.ne_none_iff_exists'.mp
    (show s.startTime? ≠ none by simpa [isAdrift, hlasting] using h)
  obtain ⟨htimestamp, -⟩ := Option.filter_eq_some_iff.mp hstart
  rw [htimestamp, Option.getD_some]
  constructor
  · exact mem_instants_iff.mpr ⟨start, hstart, .inl rfl⟩
  · exact mem_instants_iff.mpr ⟨start, hstart, .inr rfl⟩

theorem exists_span_of_intervalsFor
    (hi : i ∈ intervalsFor service (spans.flatMap (·.entries))) :
    ∃ s ∈ spans, service ∈ s.serviceNames ∧ i = ⟨s.timestamp.getD 0, s.length⟩ := by
  obtain ⟨entry, hentry, rfl⟩ := List.mem_map.mp hi
  obtain ⟨hmem, hservice⟩ := List.mem_filter.mp hentry
  obtain ⟨s, hs, hentry⟩ := List.mem_flatMap.mp hmem
  obtain ⟨name, hname, rfl⟩ := List.mem_map.mp hentry
  obtain rfl : name = service := by simpa using hservice
  exact ⟨s, hs, List.mem_eraseDups.mpr hname, rfl⟩

/-- A service of which no span is adrift covers no more time than the extent of the trace. -/
theorem totalDuration_le_extent (hlengths : ∀ s ∈ spans, 0 ≤ s.length)
    (h : ∀ s ∈ spans, service ∈ s.serviceNames → s.isAdrift = false) :
    Interval.totalDuration (intervalsFor service (spans.flatMap (·.entries))) ≤
      extentLength (instantsOf spans) := by
  obtain ⟨first, last, hle, hextent, hwithin⟩ := exists_extent (instantsOf spans)
  rw [hextent]
  refine Interval.totalDuration_le (fun i hi => ServiceIntervals.duration_nonneg hlengths hi) hle
    fun i hi hlasting => ?_
  obtain ⟨s, hs, hservice, rfl⟩ := exists_span_of_intervalsFor hi
  obtain ⟨hstart, hfinish⟩ := Span.instants_of_lasting (h s hs hservice) hlasting
  exact ⟨(hwithin _ (List.mem_flatMap.mpr ⟨s, hs, hstart⟩)).1,
    (hwithin _ (List.mem_flatMap.mpr ⟨s, hs, hfinish⟩)).2⟩

end

namespace Batch

open TraceListItem

section

variable {options : ListOptions} {spans : List Span} {traces : List (List Span)}
  {s : TraceSummary} {items : List TraceListItem} {item : TraceListItem} {percent : Int}

/-! ## Rows -/

/-- Every row is that of one trace, but for its width. -/
theorem exists_trace_of_listed (h : (ofTraces options traces).items = .ok items)
    (hitem : item ∈ items) :
    ∃ spans ∈ traces, (summaryOf? spans).bind (plainRow? options) = some item.unscaled := by
  have hrow := (plainRows_of_items h).mem_iff.mp (List.mem_map_of_mem hitem)
  rw [List.filterMap_filterMap] at hrow
  exact List.mem_filterMap.mp hrow

theorem shareOfService_of_row (h : plainRow? options s = some item.unscaled)
    (hpercent : item.servicePercentage = some percent) :
    ∃ service intervals, options.serviceName = some service ∧
      s.grouped.lookup service = some intervals ∧ s.duration ≠ 0 ∧
      percentage (Interval.totalDuration intervals) s.duration = .ok percent := by
  obtain ⟨row, hrow, hsame⟩ := Option.map_eq_some_iff.mp h
  obtain ⟨_, _, share, -, -, hshare, rfl⟩ :=
    ofSummary_eq_ok_iff.mp (toOption_eq_some_iff.mp hrow)
  obtain rfl : share = some percent :=
    (congrArg TraceListItem.servicePercentage hsame).trans hpercent
  rw [shareOfService] at hshare
  split at hshare
  · rename_i intervals hchosen
    obtain ⟨service, hservice, hintervals⟩ := Option.bind_eq_some_iff.mp hchosen
    split at hshare
    · cases hshare
    · rename_i hduration
      refine ⟨service, intervals, (Option.filter_eq_some_iff.mp hservice).1,
        (Option.filter_eq_some_iff.mp hintervals).1, hduration, ?_⟩
      cases hpercentage : percentage (Interval.totalDuration intervals) s.duration with
      | error e => simp [hpercentage, Except.map] at hshare
      | ok n =>
          rw [hpercentage] at hshare
          rw [Option.some.inj (Except.ok.inj hshare)]
  · cases hshare

end

/-- The share of a trace that is spent in a service is no negative percentage. It exceeds a hundred
only if a span of the service lasts but has no start. -/
theorem servicePercentage_of_listed {options : ListOptions} {traces : List (List Span)}
    {items : List TraceListItem} {item : TraceListItem} {percent : Int}
    (hread : ∀ spans ∈ traces, ∀ s ∈ spans, ∃ v, Span.ofJson v = .ok s)
    (hitems : (ofTraces options traces).items = .ok items) (hitem : item ∈ items)
    (hpercent : item.servicePercentage = some percent) :
    0 ≤ percent ∧ ∃ spans ∈ traces,
      (summaryOf? spans).bind (plainRow? options) = some item.unscaled ∧
      ∃ service, options.serviceName = some service ∧
        ((∀ s ∈ spans, service ∈ s.serviceNames → s.isAdrift = false) → percent ≤ 100) := by
  obtain ⟨spans, hspans, hrow⟩ := exists_trace_of_listed hitems hitem
  obtain ⟨s, hs, hplain⟩ := Option.bind_eq_some_iff.mp hrow
  obtain ⟨service, intervals, hservice, hlookup, hduration, hshare⟩ :=
    shareOfService_of_row hplain hpercent
  obtain ⟨t, errorType, htree, hsummary⟩ := exists_tree_of_summary hs
  obtain ⟨hgrouped, hextent⟩ := grouped_and_duration hsummary
  have hperm := (TraceTree.Built.of_build htree).spans_perm
  have hlengths : ∀ s ∈ t.spans, 0 ≤ s.length := by
    intro s hs
    obtain ⟨v, hv⟩ := hread spans hspans s (hperm.mem_iff.mp hs)
    exact Span.length_nonneg_of_ofJson hv
  obtain rfl : intervalsFor service (t.spans.flatMap (·.entries)) = intervals := by
    rw [hgrouped, ServiceIntervals.lookup_ofSpans] at hlookup
    split at hlookup
    · cases hlookup
    · exact Option.some.inj hlookup
  have hnonneg : 0 ≤ s.duration := duration_nonneg hs
  obtain ⟨hlow, hhigh⟩ := percentage_bounds
    (Interval.totalDuration_nonneg fun i hi => ServiceIntervals.duration_nonneg hlengths hi)
    (by omega) hshare
  refine ⟨hlow, spans, hspans, hrow, service, hservice, fun hplaced => hhigh ?_⟩
  rw [hextent]
  exact totalDuration_le_extent hlengths fun s hs => hplaced s (hperm.mem_iff.mp hs)

/-- Half of the root is spent in the service of its child. -/
theorem servicePercentage_of_listed_of_half :
    ∃ (root child : Span) (items : List TraceListItem) (item : TraceListItem),
      (∀ spans ∈ [[root, child]], ∀ s ∈ spans, ∃ v, Span.ofJson v = .ok s) ∧
      (ofTraces { serviceName := some "db", utc := true } [[root, child]]).items = .ok items ∧
      item ∈ items ∧ item.servicePercentage = some 50 ∧
      0 ≤ (50 : Int) ∧ ∃ spans ∈ [[root, child]],
        (summaryOf? spans).bind (plainRow? { serviceName := some "db", utc := true }) =
          some item.unscaled ∧
        ∃ service, (some "db" : Option Text) = some service ∧
          ((∀ s ∈ spans, service ∈ s.serviceNames → s.isAdrift = false) →
            (50 : Int) ≤ 100) := by
  let root : Span := {
    traceId := "0000000000000001", id := "0000000000000001"
    timestamp := some 1000000, duration := some 10 }
  let child : Span := {
    traceId := "0000000000000001", id := "0000000000000002"
    parentId := some "0000000000000001", timestamp := some 1000002, duration := some 5
    localEndpoint := some { serviceName := some "db" } }
  let options : ListOptions := { serviceName := some "db", utc := true }
  have hroot : Span.ofJson (.object [("traceId", .text "1"), ("id", .text "1"),
      ("timestamp", .whole 1000000), ("duration", .whole 10)]) = .ok root := rfl
  have hchild : Span.ofJson (.object [("traceId", .text "1"), ("id", .text "2"),
      ("parentId", .text "1"), ("timestamp", .whole 1000002), ("duration", .whole 5),
      ("localEndpoint", .object [("serviceName", .text "db")])]) = .ok child := rfl
  have hread : ∀ spans ∈ [[root, child]], ∀ s ∈ spans, ∃ v, Span.ofJson v = .ok s := by
    intro spans hspans s hs
    obtain rfl := List.mem_singleton.mp hspans
    simp only [List.mem_cons, List.not_mem_nil, or_false] at hs
    rcases hs with rfl | rfl
    · exact ⟨_, hroot⟩
    · exact ⟨_, hchild⟩
  have hshares : (ofTraces options [[root, child]]).items.toOption.map
      (·.map (·.servicePercentage)) = some [some 50] := by decide +kernel
  obtain ⟨items, hitems, hshares⟩ := Option.map_eq_some_iff.mp hshares
  obtain ⟨item, hitem, hpercent⟩ :=
    List.mem_map.mp (hshares ▸ List.mem_singleton_self (some (50 : Int)))
  have hitems := toOption_eq_some_iff.mp hitems
  exact ⟨root, child, items, item, hread, hitems, hitem, hpercent,
    servicePercentage_of_listed hread hitems hitem hpercent⟩

/-- A short span with a start, and a longer one without that is of a service. -/
theorem servicePercentage_over_hundred :
    ∃ placed adrift : Span,
      Span.ofJson (.object [("traceId", .text "1"), ("id", .text "1"),
        ("timestamp", .whole 1000000), ("duration", .whole 10)]) = .ok placed ∧
      Span.ofJson (.object [("traceId", .text "1"), ("id", .text "2"), ("parentId", .text "1"),
        ("duration", .whole 1000),
        ("localEndpoint", .object [("serviceName", .text "web")])]) = .ok adrift ∧
      (listOf { serviceName := some "web", utc := true } [[placed, adrift]]).map
        (·.servicePercentage) = [some 10000] := by
  refine ⟨{
      traceId := "0000000000000001", id := "0000000000000001"
      timestamp := some 1000000, duration := some 10 }, {
      traceId := "0000000000000001", id := "0000000000000002"
      parentId := some "0000000000000001", duration := some 1000
      localEndpoint := some { serviceName := some "web" } }, ?_, ?_, ?_⟩
  · rfl
  · rfl
  · decide +kernel

end Batch

end TraceExplorer
