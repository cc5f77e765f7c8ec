import TraceExplorer.Proofs.Positions
import TraceExplorer.Proofs.Reordering
import TraceExplorer.Proofs.Tree.Reports

/-!
# The legs of a node

Of the reports of one id the first that is not shared takes the first place in their group, even
if shared ones were there before it. Apart from that the reports keep their order, and the groups
come in the order in which their ids are first reported.
-/

namespace TraceExplorer

/-- The earliest timestamp that is reported for an id. -/
def startOf? (spans : List Span) (id : Text) : Option Int :=
  ((reportsOf spans id).filterMap (·.timestamp)).min?

namespace SpanGroup

/-- A group has some reports as its spans. The primary one is the first that is not shared, or the
first of all if they all are shared, and the others follow in order. -/
def Arranges (g : SpanGroup) (reports : List Span) : Prop :=
  ∃ before after, reports = before ++ g.primary :: after ∧ g.legs = before ++ after ∧
    (∀ s ∈ before, s.shared) ∧ (g.primary.shared → before = [] ∧ ∀ s ∈ after, s.shared)

section

variable {spans reports : List Span} {g : SpanGroup} {s : Span}

theorem arranges_singleton (s : Span) : Arranges { primary := s } [s] :=
  ⟨[], [], rfl, rfl, by simp, fun _ => ⟨rfl, by simp⟩⟩

theorem Arranges.add (h : g.Arranges reports) : (g.add s).Arranges (reports ++ [s]) := by
  obtain ⟨before, after, rfl, hlegs, hbefore, hshared⟩ := h
  rw [SpanGroup.add]
  split
  · -- All reports so far are shared, and become legs.
    rename_i htakes
    obtain ⟨hown, hnew⟩ := Bool.and_eq_true_iff.mp htakes
    obtain ⟨rfl, hafter⟩ := hshared hown
    refine ⟨g.primary :: after, [], by simp, by simp [hlegs], ?_, ?_⟩
    · exact List.forall_mem_cons.mpr ⟨hown, hafter⟩
    · rintro (hown : s.shared)
      simp [hown] at hnew
  · rename_i hstays
    refine ⟨before, after ++ [s], by simp, by simp [hlegs], hbefore, fun hown => ?_⟩
    obtain ⟨rfl, hafter⟩ := hshared hown
    have hnew : s.shared := by
      replace hown : g.primary.shared := hown
      simpa [hown] using hstays
    refine ⟨rfl, List.forall_mem_append.mpr ⟨hafter, ?_⟩⟩
    simpa using hnew

theorem arranges_of_ofReports? (h : ofReports? reports = some g) : g.Arranges reports := by
  induction reports using List.reverseRecOn generalizing g with
  | nil => cases h
  | append_singleton reports s ih =>
      rw [ofReports?_concat, Option.some_inj] at h
      cases hgroup : ofReports? reports with
      | none =>
          obtain rfl := eq_nil_of_ofReports? hgroup
          rw [← h]
          exact arranges_singleton s
      | some before =>
          rw [← h, hgroup]
          exact (ih hgroup).add

theorem arranges_of_mem_index (hg : g ∈ index spans) : g.Arranges (reportsOf spans g.id) :=
  arranges_of_ofReports? (mem_index_iff.mp hg)

theorem Arranges.spans_perm (h : g.Arranges reports) : g.spans.Perm reports := by
  obtain ⟨before, after, rfl, hlegs, -⟩ := h
  rw [SpanGroup.spans, hlegs]
  exact List.perm_middle.symm

/-- The time of a node is the earliest one that is reported for its id. -/
theorem timestamp_of_mem_index (hg : g ∈ index spans) : g.timestamp = startOf? spans g.id :=
  Reordering.min?_perm ((arranges_of_mem_index hg).spans_perm.filterMap _)

theorem ids_index (spans : List Span) :
    (index spans).map (·.id) = (spans.map (·.id)).eraseDups := by
  induction spans using List.reverseRecOn with
  | nil => rfl
  | append_singleton spans s ih =>
      rw [index_concat, ids_insert, List.map_append, List.map_singleton,
        Positions.eraseDups_concat, ← ih]
      simp only [mem_ids_index]

/-- Groups come in the order in which their ids are first reported. -/
theorem pairwise_index (spans : List Span) :
    (index spans).Pairwise fun g g' =>
      (spans.map (·.id)).idxOf g.id < (spans.map (·.id)).idxOf g'.id := by
  have hids := Positions.pairwise_eraseDups (spans.map (·.id))
  rwa [← ids_index, List.pairwise_map] at hids

end

/-- Every id that is reported has one group, which arranges its reports, and the groups come in the
order in which their ids are first reported. -/
theorem index_arranges_reports {spans : List Span} {id : Text} (hid : id ∈ spans.map (·.id)) :
    (index spans).map (·.id) = (spans.map (·.id)).eraseDups ∧
      ∃ g, (index spans).find? (·.id == id) = some g ∧ g.id = id ∧
        g.Arranges (reportsOf spans id) := by
  refine ⟨ids_index spans, ?_⟩
  obtain ⟨g, hg, rfl⟩ := List.mem_map.mp (mem_ids_index.mpr hid)
  refine ⟨g, ?_, rfl, arranges_of_mem_index hg⟩
  rw [find?_index]
  exact mem_index_iff.mp hg

/-- Two shared reports of `a` come before the one that is not, with reports of `b` between them. -/
theorem index_arranges_reports_of_late_client :
    let first : Span := { traceId := "1", id := "a", name := .text "1", shared := true }
    let second : Span := { traceId := "1", id := "a", name := .text "2", shared := true }
    let client : Span := { traceId := "1", id := "a", name := .text "3" }
    let last : Span := { traceId := "1", id := "a", name := .text "4" }
    let other : Span := { traceId := "1", id := "b", shared := true }
    let spans := [first, other, second, client, other, last]
    ("a" : Text) ∈ spans.map (·.id) ∧ (index spans).map (·.id) = (["a", "b"] : List Text) ∧
      ∃ g, (index spans).find? (·.id == ("a" : Text)) = some g ∧ g.primary = client ∧
        g.legs = [first, second, last] ∧ g.Arranges [first, second, client, last] := by
  intro first second client last other spans
  have hid : ("a" : Text) ∈ spans.map (·.id) := by decide
  obtain ⟨hids, g, hfind, -, harranges⟩ := index_arranges_reports hid
  have hgroup : (index spans).find? (·.id == ("a" : Text)) =
      some { primary := client, legs := [first, second, last] } := rfl
  obtain rfl := Option.some.inj (hgroup.symm.trans hfind)
  exact ⟨hid, hids, _, hfind, rfl, rfl, harranges⟩

end SpanGroup

end TraceExplorer
