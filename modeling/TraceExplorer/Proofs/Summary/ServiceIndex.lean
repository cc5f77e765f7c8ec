import TraceExplorer.Proofs.Summary.Trace
import TraceExplorer.Proofs.Tree.Build
import TraceExplorer.Proofs.Tree.Legs
import TraceExplorer.Proofs.Tree.Services

/-!
# The services of a tree and of its summary

The tree lists the nodes of each service and the summary its intervals. The one goes from node to
node and the other from span to span, but they meet the services in the same order.
-/

namespace TraceExplorer

structure TraceTree.IndexesServices (spans : List Span) (t : TraceTree) : Prop where
  names : (t.spansByService.map (·.1)).Nodup
  listed : ∀ service ids, (service, ids) ∈ t.spansByService ↔ ids ≠ [] ∧
    ids = ((Tree.forestPreorder t.branches).filter (·.isOf service)).map (·.id)
  once : ∀ entry ∈ t.spansByService, entry.2.Nodup
  held : ∀ service id, (∃ entry ∈ t.spansByService, entry.1 = service ∧ id ∈ entry.2) ↔
    ∃ s ∈ spans, s.id = id ∧ ∃ e ∈ s.endpoints, e.service? = some service

section

variable {spans : List Span} {t : TraceTree} {g : SpanGroup} {service id : Text}

theorem TraceTree.nodes_eq_forestPreorder (t : TraceTree) :
    t.nodes = Tree.forestPreorder t.branches := by
  rw [nodes, Tree.depthFirst_eq_flatMap, Tree.forestPreorder_eq_flatMap]

theorem TraceTree.Built.idsOfService_eq (h : Built spans t) (service : Text) :
    t.idsOfService service = (t.nodes.filter (·.isOf service)).map (·.id) := by
  have hnodup : ((t.nodes.filter (·.isOf service)).map (·.id)).Nodup :=
    h.nodup_ids.sublist (List.filter_sublist.map _)
  rw [TraceTree.idsOfService_eq, Positions.eraseDups_of_nodup hnodup]

/-- A node is of the services that the reports of its id name. -/
theorem TraceTree.Built.isOf_iff (h : Built spans t) (hg : g ∈ t.nodes) :
    g.isOf service ↔ ∃ s ∈ spans, s.id = g.id ∧ service ∈ s.serviceNames := by
  rw [h.nodes_perm.mem_iff] at hg
  have hreports := (SpanGroup.arranges_of_mem_index hg).spans_perm
  simp only [SpanGroup.isOf_iff, hreports.mem_iff, reportsOf, List.mem_filter, beq_iff_eq,
    and_assoc]

theorem TraceTree.Built.mem_idsOfService_iff (h : Built spans t) :
    id ∈ t.idsOfService service ↔ ∃ s ∈ spans, s.id = id ∧ service ∈ s.serviceNames := by
  rw [h.idsOfService_eq, List.mem_map]
  constructor
  · rintro ⟨g, hg, rfl⟩
    obtain ⟨hnode, hof⟩ := List.mem_filter.mp hg
    exact (h.isOf_iff hnode).mp hof
  · rintro ⟨s, hs, rfl, hservice⟩
    obtain ⟨g, hg, hid⟩ := List.mem_map.mp (h.mem_ids.mpr (List.mem_map_of_mem hs))
    exact ⟨g, List.mem_filter.mpr ⟨hg, (h.isOf_iff hg).mpr ⟨s, hs, hid.symm, hservice⟩⟩, hid⟩

theorem TraceTree.Built.indexesServices (h : Built spans t) : t.IndexesServices spans where
  names := t.nodup_names_spansByService
  listed := by
    intro service ids
    rw [mem_spansByService_iff, h.idsOfService_eq, nodes_eq_forestPreorder]
  once := by
    rintro ⟨service, ids⟩ hentry
    obtain ⟨-, rfl⟩ := mem_spansByService_iff.mp hentry
    rw [h.idsOfService_eq]
    exact h.nodup_ids.sublist (List.filter_sublist.map _)
  held := by
    intro service id
    simp only [← Span.mem_serviceNames_iff, ← h.mem_idsOfService_iff]
    constructor
    · rintro ⟨⟨_, ids⟩, hentry, rfl, hid⟩
      obtain ⟨-, rfl⟩ := mem_spansByService_iff.mp hentry
      exact hid
    · intro hid
      exact ⟨_, mem_spansByService_iff.mpr ⟨List.ne_nil_of_mem hid, rfl⟩, rfl, hid⟩

end

/-- A tree lists under each service the nodes with a span that names it at one of its ends, each
one once and by depth. Whatever classifier the summary is made with, it has the same services in
the same order. -/
theorem build_indexes_services {spans : List Span}
    (h : ∀ s ∈ spans, s.parentId ≠ some Text.empty) :
    ∃ t, TraceTree.build spans = .ok t ∧ t.IndexesServices spans ∧
      ∀ {σ : Type} (classify : Classifier σ) (st : σ) summary,
        ((TraceSummary.ofTree classify t).run.run st).1 = .ok summary →
          summary.grouped.map (·.1) = t.spansByService.map (·.1) := by
  obtain ⟨t, ht⟩ := TraceTree.exists_build h
  refine ⟨t, ht, (TraceTree.Built.of_build ht).indexesServices, ?_⟩
  intro σ classify st summary hsummary
  obtain ⟨_, hsummarizes⟩ := TraceSummary.summarizes_of_ofTree hsummary
  rw [hsummarizes.grouped, ServiceIntervals.names_ofSpans, TraceTree.names_spansByService]

/-- A leg names a service that its node has already, a span names one at both its ends, and a name
is empty. -/
theorem build_indexes_services_of_legs :
    let web : Endpoint := { serviceName := some "web" }
    let db : Endpoint := { serviceName := some "db" }
    let spans : List Span := [
      { traceId := "1", id := "c", parentId := some "b"
        localEndpoint := some { serviceName := some "" }, remoteEndpoint := some db },
      { traceId := "1", id := "a", shared := true, localEndpoint := some db },
      { traceId := "1", id := "b", parentId := some "a", localEndpoint := some web
        remoteEndpoint := some web },
      { traceId := "1", id := "a", timestamp := some 1, localEndpoint := some web
        remoteEndpoint := some db }]
    let index : List (Text × List Text) :=
      [(.ofString "web", ["a", "b"]), (.ofString "db", ["a", "c"])]
    (∀ s ∈ spans, s.parentId ≠ some Text.empty) ∧
      ∃ t summary, TraceTree.build spans = .ok t ∧ t.IndexesServices spans ∧
        t.spansByService = index ∧
        ((TraceSummary.ofTree (.standard (σ := Unit)) t).run.run ()).1 = .ok summary ∧
        summary.grouped.map (·.1) = index.map (·.1) := by
  intro web db spans index
  have named : ∀ s ∈ spans, s.parentId ≠ some Text.empty := by decide
  obtain ⟨t, ht, hindexes, hsame⟩ := build_indexes_services named
  have hview : (TraceTree.build spans).toOption.map (fun t => (t.spansByService,
      ((TraceSummary.ofTree (.standard (σ := Unit)) t).run.run ()).1.toOption.isSome)) =
        some (index, true) := by decide +kernel
  rw [ht] at hview
  obtain ⟨hindex, hsome⟩ := Prod.mk.inj (Option.some.inj hview)
  obtain ⟨summary, hsummary⟩ := Option.isSome_iff_exists.mp hsome
  have hsummary := toOption_eq_some_iff.mp hsummary
  refine ⟨named, t, summary, ht, hindexes, hindex, hsummary, ?_⟩
  rw [hsame _ _ _ hsummary, hindex]

end TraceExplorer
