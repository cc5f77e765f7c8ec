import TraceExplorer.Proofs.Summary.Isolation

/-!
# The spans of a service

A row of the list counts the spans of a trace, and under each service those that name it. It counts
a span at both ends of which a service stands twice for that service, so the part may exceed the
whole.
-/

namespace TraceExplorer

def Span.isLoopOf (service : Text) (s : Span) : Bool :=
  s.localEndpoint.bind (·.service?) == some service &&
    s.remoteEndpoint.bind (·.service?) == some service

structure TraceListItem.CountsSpans (item : TraceListItem) (spans : List Span) : Prop where
  total : item.spanCount = spans.length
  once : (item.services.map (·.serviceName)).Nodup
  named : ∀ service, service ∈ item.services.map (·.serviceName) ↔
    ∃ s ∈ spans, service ∈ s.serviceNames
  counted : ∀ row ∈ item.services, row.spanCount =
    spans.countP (fun s => row.serviceName ∈ s.serviceNames) +
      spans.countP (·.isLoopOf row.serviceName)

open ServiceIntervals (ofSpans)

section

variable {spans spans' : List Span} {s : Span} {service : Text} {a : ServiceSummary}
  {item : TraceListItem}

/-! ## Mentions -/

theorem Span.services_eq (s : Span) :
    s.endpoints.filterMap (·.service?) =
      (s.localEndpoint.bind (·.service?)).toList ++
        (s.remoteEndpoint.bind (·.service?)).toList := by
  have hend (e : Option Endpoint) :
      e.toList.filterMap (·.service?) = (e.bind (·.service?)).toList := by
    cases e with
    | none => rfl
    | some e => cases hservice : e.service? <;> simp [hservice]
  rw [endpoints, List.filterMap_append, hend, hend]

/-- A span mentions a service that it names once, and twice if the service is at both its ends. -/
theorem Span.count_services (service : Text) (s : Span) :
    (s.endpoints.filterMap (·.service?)).count service =
      (if service ∈ s.serviceNames then 1 else 0) + if s.isLoopOf service then 1 else 0 := by
  have hcount (e : Option Text) : e.toList.count service = if e = some service then 1 else 0 := by
    cases e with
    | none => rfl
    | some name => simp [List.count_singleton]
  simp only [serviceNames, List.mem_eraseDups, services_eq, List.count_append, hcount,
    List.mem_append, Option.mem_toList, isLoopOf, Bool.and_eq_true, beq_iff_eq]
  by_cases hlocal : s.localEndpoint.bind (·.service?) = some service
  · by_cases hremote : s.remoteEndpoint.bind (·.service?) = some service
    · simp [hlocal, hremote]
    · simp [hlocal, hremote]
  · by_cases hremote : s.remoteEndpoint.bind (·.service?) = some service
    · simp [hlocal, hremote]
    · simp [hlocal, hremote]

theorem Span.mem_serviceNames_of_isLoopOf (h : s.isLoopOf service) :
    service ∈ s.serviceNames := by
  obtain ⟨hlocal, -⟩ := Bool.and_eq_true_iff.mp h
  rw [serviceNames, List.mem_eraseDups, services_eq, beq_iff_eq.mp hlocal]
  exact List.mem_cons_self

/-- A service has an interval for each span that names it, and another one for each loop. -/
theorem length_intervalsFor (service : Text) (spans : List Span) :
    (intervalsFor service (spans.flatMap (·.entries))).length =
      spans.countP (fun s => service ∈ s.serviceNames) + spans.countP (·.isLoopOf service) := by
  induction spans with
  | nil => rfl
  | cons s rest ih =>
      have hfirst : (intervalsFor service s.entries).length =
          (s.endpoints.filterMap (·.service?)).count service := by
        rw [intervalsFor, List.length_map, ← List.countP_eq_length_filter, Span.entries,
          List.countP_map]
        rfl
      have hrest : (intervalsFor service ((s :: rest).flatMap (·.entries))).length =
          (intervalsFor service s.entries).length +
            (intervalsFor service (rest.flatMap (·.entries))).length := by
        simp [intervalsFor]
      simp only [hrest, hfirst, ih, Span.count_services, List.countP_cons, decide_eq_true_eq]
      omega

theorem intervalsFor_eq_nil_iff :
    intervalsFor service (spans.flatMap (·.entries)) = [] ↔
      ∀ s ∈ spans, service ∉ s.serviceNames := by
  rw [← List.length_eq_zero_iff, length_intervalsFor, Nat.add_eq_zero_iff, List.countP_eq_zero,
    List.countP_eq_zero]
  simp only [decide_eq_true_eq]
  exact and_iff_left_of_imp fun hnone s hs hloop =>
    hnone s hs (Span.mem_serviceNames_of_isLoopOf hloop)

/-! ## Rows -/

namespace ServiceSummary

theorem mem_all_iff : a ∈ all (ofSpans spans) ↔
    ofIntervals? (a.serviceName, intervalsFor a.serviceName (spans.flatMap (·.entries))) = some a :=
  List.mem_mergeSort.trans mem_ofSpans_iff

theorem spanCount_of_mem_all (h : a ∈ all (ofSpans spans)) :
    a.spanCount = (intervalsFor a.serviceName (spans.flatMap (·.entries))).length := by
  obtain ⟨longest, -, ha⟩ := Option.map_eq_some_iff.mp (mem_all_iff.mp h)
  exact (congrArg spanCount ha).symm

theorem mem_names_all_iff : service ∈ (all (ofSpans spans)).map (·.serviceName) ↔
    ∃ s ∈ spans, service ∈ s.serviceNames := by
  have hlisted : service ∈ (all (ofSpans spans)).map (·.serviceName) ↔
      intervalsFor service (spans.flatMap (·.entries)) ≠ [] := by
    rw [List.mem_map]
    constructor
    · rintro ⟨a, ha, rfl⟩ hnil
      have ha := mem_all_iff.mp ha
      rw [hnil] at ha
      cases ha
    · intro hne
      have hdurations : (intervalsFor service (spans.flatMap (·.entries))).map (·.duration) ≠ [] :=
        List.map_eq_nil_iff.not.mpr hne
      obtain ⟨longest, hlongest⟩ :=
        Option.isSome_iff_exists.mp (List.isSome_max?_of_ne_nil hdurations)
      obtain ⟨a, ha⟩ : ∃ a, ofIntervals? (service,
          intervalsFor service (spans.flatMap (·.entries))) = some a :=
        ⟨_, Option.map_eq_some_iff.mpr ⟨longest, hlongest, rfl⟩⟩
      obtain rfl := serviceName_of_ofIntervals? ha
      exact ⟨a, mem_all_iff.mpr ha, rfl⟩
  rw [hlisted, Ne, intervalsFor_eq_nil_iff]
  simp only [not_forall, not_not, exists_prop]

end ServiceSummary

namespace TraceListItem

variable {options : ListOptions} {summary : TraceSummary} {summaries : List TraceSummary}
  {items : List TraceListItem} {longest : Int}

theorem countsSpans_of_ofSummary {errorType : ErrorType}
    (hsummary : summary.Summarizes spans errorType) (hperm : spans.Perm spans')
    (h : ofSummary options longest summary = .ok item) : item.CountsSpans spans' := by
  obtain ⟨-, -, htotal, hservices⟩ := copied_of_ofSummary h
  rw [hsummary.grouped, ServiceSummary.all_perm hperm] at hservices
  refine ⟨?_, ?_, fun service => ?_, fun row hrow => ?_⟩
  · rw [htotal, hsummary.spanCount, hperm.length_eq]
  · rw [hservices]
    exact (((List.mergeSort_perm _ _).map _).nodup_iff).mpr
      (ServiceSummary.nodup_serviceNames_ofSpans spans')
  · rw [hservices, ServiceSummary.mem_names_all_iff]
  · rw [hservices] at hrow
    rw [ServiceSummary.spanCount_of_mem_all hrow, length_intervalsFor]

theorem exists_row_of_rank (h : rank options summaries = .ok items)
    (hsummary : summary ∈ summaries) :
    ∃ item ∈ items, ∃ longest, ofSummary options longest summary = .ok item := by
  obtain ⟨rows, hrows, rfl⟩ := Batch.rank_eq_ok_iff.mp h
  obtain ⟨item, hitem, hrow⟩ := Reordering.exists_result_of_mapM hrows hsummary
  exact ⟨item, List.mem_mergeSort.mpr hitem, _, hrow⟩

theorem CountsSpans.of_no_loop (h : item.CountsSpans spans) {row : ServiceSummary}
    (hrow : row ∈ item.services) (hnone : ∀ s ∈ spans, s.isLoopOf row.serviceName = false) :
    row.spanCount = spans.countP (fun s => row.serviceName ∈ s.serviceNames) ∧
      row.spanCount ≤ item.spanCount := by
  have hloops : spans.countP (·.isLoopOf row.serviceName) = 0 :=
    List.countP_eq_zero.mpr fun s hs => by simp [hnone s hs]
  have hcount := h.counted row hrow
  rw [hloops, Nat.add_zero] at hcount
  refine ⟨hcount, ?_⟩
  rw [hcount, h.total]
  exact List.countP_le_length

end TraceListItem

end

/-- The row of a trace counts all its spans, and under each service those that name it. A span at
both ends of which the service stands counts twice there, so a service without such spans has no
more spans than the trace. -/
theorem countsSpans_of_listed {σ : Type} {classify : Classifier σ} {st st' : σ}
    {options : ListOptions} {spans : List Span} {t : TraceTree} {summary : TraceSummary}
    {summaries : List TraceSummary} {items : List TraceListItem}
    (htree : TraceTree.build spans = .ok t)
    (hsummary : (TraceSummary.ofTree classify t).run.run st = (.ok summary, st'))
    (hmem : summary ∈ summaries) (hitems : TraceListItem.rank options summaries = .ok items) :
    ∃ item ∈ items, (∃ longest, TraceListItem.ofSummary options longest summary = .ok item) ∧
      item.CountsSpans spans ∧
      ∀ row ∈ item.services, (∀ s ∈ spans, s.isLoopOf row.serviceName = false) →
        row.spanCount = spans.countP (fun s => row.serviceName ∈ s.serviceNames) ∧
          row.spanCount ≤ item.spanCount := by
  obtain ⟨_, hsummarizes⟩ := TraceSummary.summarizes_of_ofTree (congrArg Prod.fst hsummary)
  obtain ⟨item, hitem, longest, hrow⟩ := TraceListItem.exists_row_of_rank hitems hmem
  have hcounts := TraceListItem.countsSpans_of_ofSummary hsummarizes
    (TraceTree.Built.of_build htree).spans_perm hrow
  exact ⟨item, hitem, ⟨longest, hrow⟩, hcounts, fun row hservice =>
    hcounts.of_no_loop hservice⟩

/-- Two of three spans name the service, one at each end, and one of them has another leg. -/
theorem countsSpans_of_listed_of_legs :
    let web : Endpoint := { serviceName := some "web" }
    let spans : List Span := [
      { traceId := "1", id := "a", timestamp := some 1000000, localEndpoint := some web },
      { traceId := "1", id := "b", parentId := some "a", remoteEndpoint := some web },
      { traceId := "1", id := "b", parentId := some "a", shared := true }]
    ∃ t summary items, TraceTree.build spans = .ok t ∧
      (TraceSummary.ofTree (.standard (σ := Unit)) t).run.run () = (.ok summary, ()) ∧
      TraceListItem.rank { utc := true } [summary] = .ok items ∧
      ∃ item ∈ items, item.CountsSpans spans ∧ item.spanCount = 3 ∧
        ∃ row ∈ item.services, row.serviceName = "web" ∧ row.spanCount = 2 := by
  intro web spans
  have hview : (TraceTree.build spans).toOption.bind (fun t =>
      ((TraceSummary.ofTree (.standard (σ := Unit)) t).run.run ()).1.toOption.bind fun summary =>
        (TraceListItem.rank { utc := true } [summary]).toOption.map fun items =>
          items.length) = some 1 := by decide +kernel
  obtain ⟨t, htree, hview⟩ := Option.bind_eq_some_iff.mp hview
  obtain ⟨summary, hsummary, hview⟩ := Option.bind_eq_some_iff.mp hview
  obtain ⟨items, hitems, -⟩ := Option.map_eq_some_iff.mp hview
  rw [toOption_eq_some_iff] at htree hsummary hitems
  have hrun : (TraceSummary.ofTree (.standard (σ := Unit)) t).run.run () = (.ok summary, ()) :=
    Prod.ext hsummary rfl
  obtain ⟨item, hitem, -, hcounts, hloopless⟩ :=
    countsSpans_of_listed htree hrun (List.mem_singleton_self summary) hitems
  have hweb : ("web" : Text) ∈ item.services.map (·.serviceName) :=
    (hcounts.named _).mpr (by decide)
  obtain ⟨row, hrow, hname⟩ := List.mem_map.mp hweb
  obtain ⟨hcount, -⟩ := hloopless row hrow (by rw [hname]; decide)
  refine ⟨t, summary, items, htree, hrun, hitems, item, hitem, hcounts, hcounts.total, row, hrow,
    hname, ?_⟩
  rw [hcount, hname]
  decide

/-- The only span of a trace counts twice for the service at both its ends. -/
theorem spanCount_of_loop :
    ∃ loop : Span,
      Span.ofJson (.object [("traceId", .text "1"), ("id", .text "1"),
        ("timestamp", .whole 1000000),
        ("localEndpoint", .object [("serviceName", .text "web")]),
        ("remoteEndpoint", .object [("serviceName", .text "web")])]) = .ok loop ∧
      [loop].countP (fun s => ("web" : Text) ∈ s.serviceNames) = 1 ∧
      (Batch.listOf { utc := true } [[loop]]).map (fun item => (item.spanCount, item.services)) =
        [(1, [⟨"web", 2, 0⟩])] := by
  refine ⟨{
      traceId := "0000000000000001", id := "0000000000000001", timestamp := some 1000000
      localEndpoint := some { serviceName := some "web" }
      remoteEndpoint := some { serviceName := some "web" } }, ?_, ?_, ?_⟩
  · rfl
  · decide
  · decide +kernel

end TraceExplorer
