import TraceExplorer.Proofs.Tree.GroupIndex

/-!
# The reports of one id

The group of an id is made of the spans that report the id, in the order in which they came. Other
spans have no say in it.
-/

namespace TraceExplorer

def reportsOf (spans : List Span) (id : Text) : List Span := spans.filter (·.id == id)

namespace SpanGroup

def ofReports? : List Span → Option SpanGroup
  | [] => none
  | s :: rest => some (rest.foldl add { primary := s })

/-- The span that stands for some reports of one id: the first that is not shared, or else the
first of all. -/
def primaryOf? (reports : List Span) : Option Span := (reports.find? (!·.shared)).or reports.head?

section

variable {spans : List Span} {g : SpanGroup}

theorem eq_nil_of_ofReports? {reports : List Span} (h : ofReports? reports = none) :
    reports = [] := by
  cases reports with
  | nil => rfl
  | cons first rest => simp [ofReports?] at h

theorem ofReports?_concat (reports : List Span) (s : Span) :
    ofReports? (reports ++ [s]) =
      some (((ofReports? reports).map (·.add s)).getD { primary := s }) := by
  cases reports with
  | nil => rfl
  | cons first rest => simp [ofReports?, List.foldl_append]

theorem find?_insert (gs : List SpanGroup) (s : Span) (id : Text) :
    (insert gs s).find? (·.id == id) =
      if s.id = id then some (((gs.find? (·.id == id)).map (·.add s)).getD { primary := s })
      else gs.find? (·.id == id) := by
  induction gs with
  | nil =>
      by_cases hid : s.id = id
      · simp [insert, SpanGroup.id, hid]
      · simp [insert, SpanGroup.id, hid]
  | cons g rest ih =>
      by_cases hg : g.id = s.id
      · by_cases hid : s.id = id
        · simp [insert, hg, hid]
        · simp [insert, hg, hid]
      · by_cases hid : g.id = id
        · have hne : ¬ s.id = id := fun heq => hg (hid.trans heq.symm)
          rw [insert, if_neg hg, List.find?_cons_of_pos (by simpa using hid), if_neg hne,
            List.find?_cons_of_pos (by simpa using hid)]
        · simp [insert, hg, hid, ih]

/-- The group of an id is the one that its reports make. -/
theorem find?_index (spans : List Span) (id : Text) :
    (index spans).find? (·.id == id) = ofReports? (reportsOf spans id) := by
  induction spans using List.reverseRecOn with
  | nil => rfl
  | append_singleton spans s ih =>
      rw [index_concat, find?_insert, ih, reportsOf, reportsOf, List.filter_append]
      by_cases hid : s.id = id
      · rw [if_pos hid, List.filter_cons_of_pos (by simpa using hid), List.filter_nil,
          ofReports?_concat]
      · rw [if_neg hid, List.filter_cons_of_neg (by simpa using hid), List.filter_nil,
          List.append_nil]

theorem mem_index_iff : g ∈ index spans ↔ ofReports? (reportsOf spans g.id) = some g := by
  rw [← find?_index]
  constructor
  · intro hg
    cases hfind : (index spans).find? (·.id == g.id) with
    | none => simpa using List.find?_eq_none.mp hfind g hg
    | some other =>
        have hid : other.id = g.id := by simpa using List.find?_some hfind
        exact congrArg some (List.inj_on_of_nodup_map (nodup_ids_index spans)
          (List.mem_of_find?_eq_some hfind) hg hid)
  · exact List.mem_of_find?_eq_some

theorem primary_add (g : SpanGroup) (s : Span) :
    (g.add s).primary = if g.primary.shared && !s.shared then s else g.primary := by
  rw [add]
  split <;> rfl

theorem primary_ofReports? (reports : List Span) :
    (ofReports? reports).map (·.primary) = primaryOf? reports := by
  induction reports using List.reverseRecOn with
  | nil => rfl
  | append_singleton reports s ih =>
      rw [ofReports?_concat, primaryOf?, List.find?_append, List.head?_append]
      cases hgroup : ofReports? reports with
      | none =>
          obtain rfl := eq_nil_of_ofReports? hgroup
          cases hshared : s.shared <;> simp [hshared]
      | some g =>
          rw [hgroup, primaryOf?, Option.map_some, eq_comm, Option.or_eq_some_iff] at ih
          rw [Option.map_some, Option.map_some, Option.getD_some, primary_add]
          rcases ih with hfirst | ⟨hnone, hfirst⟩
          · have hown : g.primary.shared = false := by simpa using List.find?_some hfirst
            simp [hfirst, hown]
          · -- All reports so far are shared, so that one that is not takes the first place.
            have hown : g.primary.shared = true := by
              simpa using List.find?_eq_none.mp hnone g.primary (List.mem_of_mem_head? hfirst)
            cases hshared : s.shared <;> simp [hnone, hfirst, hown, hshared]

theorem primaryOf?_of_mem_index (hg : g ∈ index spans) :
    primaryOf? (reportsOf spans g.id) = some g.primary := by
  rw [← primary_ofReports?, mem_index_iff.mp hg, Option.map_some]

end

end SpanGroup

end TraceExplorer
