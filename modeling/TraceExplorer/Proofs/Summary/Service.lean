import TraceExplorer.Proofs.KeyedList
import TraceExplorer.Proofs.Reordering
import TraceExplorer.Proofs.Summary.Coverage
import TraceExplorer.Proofs.Summary.Order

/-!
# The services of a trace

Each service has the intervals of the spans at whose ends it stands, in the order of the spans.
What is shown of a service does not depend on that order.
-/

namespace TraceExplorer

/-- What a span adds: an interval for the service at each of its ends. -/
def Span.entries (s : Span) : List (Text × Interval) :=
  (s.endpoints.filterMap (·.service?)).map fun service => (service, ⟨s.timestamp.getD 0, s.length⟩)

def intervalsFor (service : Text) (entries : List (Text × Interval)) : List Interval :=
  (entries.filter (·.1 == service)).map (·.2)

namespace ServiceIntervals

section

variable {grouped : ServiceIntervals} {service name : Text} {i : Interval}
  {spans spans' : List Span} {entries : List (Text × Interval)}

theorem insert_eq_upsert :
    grouped.insert service i =
      KeyedList.upsert (fun old => old.getD [] ++ [i]) service grouped := by
  induction grouped with
  | nil => rfl
  | cons entry rest ih =>
      obtain ⟨name, is⟩ := entry
      rw [insert, KeyedList.upsert, ih]
      rfl

theorem ofSpans_eq_foldl (spans : List Span) :
    ofSpans spans = (spans.flatMap (·.entries)).foldl
      (fun grouped e => KeyedList.upsert (fun old => old.getD [] ++ [e.2]) e.1 grouped) [] := by
  simp only [← insert_eq_upsert, List.foldl_flatMap, Span.entries, List.foldl_map]
  rfl

/-- The services are listed in the order in which they first appear on the spans. -/
theorem names_ofSpans (spans : List Span) :
    (ofSpans spans).map (·.1) = (spans.flatMap (·.serviceNames)).eraseDups := by
  rw [ofSpans_eq_foldl, KeyedList.keys_foldl_upsert, List.map_flatMap]
  apply Positions.eraseDups_flatMap_congr
  intro s _
  have hnames : s.entries.map (·.1) = s.endpoints.filterMap (·.service?) := by
    rw [Span.entries, List.map_map]
    exact List.map_id _
  rw [hnames, Span.serviceNames, Positions.eraseDups_of_nodup (Positions.nodup_eraseDups _)]

theorem nodup_names_ofSpans (spans : List Span) : ((ofSpans spans).map (·.1)).Nodup := by
  rw [names_ofSpans]
  exact Positions.nodup_eraseDups _

theorem foldl_append_entries (entries : List (Text × Interval)) :
    entries.foldl (fun old e => some (old.getD [] ++ [e.2])) none =
      if entries.map (·.2) = [] then none else some (entries.map (·.2)) := by
  induction entries using List.reverseRecOn with
  | nil => rfl
  | append_singleton entries e ih =>
      have hne : entries.map (·.2) ++ [e].map (·.2) ≠ [] := by simp
      rw [List.foldl_concat, ih, List.map_append, if_neg hne]
      by_cases hnil : entries.map (·.2) = []
      · rw [if_pos hnil, hnil]
        rfl
      · rw [if_neg hnil]
        rfl

/-- A service has the intervals of all spans at whose ends it stands. -/
theorem lookup_ofSpans (spans : List Span) (name : Text) :
    (ofSpans spans).lookup name =
      if intervalsFor name (spans.flatMap (·.entries)) = [] then none
      else some (intervalsFor name (spans.flatMap (·.entries))) := by
  rw [ofSpans_eq_foldl, KeyedList.lookup_foldl_upsert, List.lookup_nil, foldl_append_entries]
  rfl

theorem intervalsFor_perm (h : spans.Perm spans') (name : Text) :
    (intervalsFor name (spans.flatMap (·.entries))).Perm
      (intervalsFor name (spans'.flatMap (·.entries))) :=
  ((h.flatMap_right _).filter _).map _

theorem duration_nonneg (h : ∀ s ∈ spans, 0 ≤ s.length)
    (hi : i ∈ intervalsFor name (spans.flatMap (·.entries))) : 0 ≤ i.duration := by
  obtain ⟨e, he, rfl⟩ := List.mem_map.mp hi
  obtain ⟨s, hs, he⟩ := List.mem_flatMap.mp (List.mem_filter.mp he).1
  obtain ⟨_, -, rfl⟩ := List.mem_map.mp he
  exact h s hs

end

end ServiceIntervals

namespace ServiceSummary

open ServiceIntervals

section

variable {a b : ServiceSummary} {is is' : List Interval} {name : Text} {spans spans' : List Span}

theorem ofIntervals?_perm (h : is.Perm is') :
    ofIntervals? (name, is) = ofIntervals? (name, is') := by
  simp only [ofIntervals?, Reordering.max?_perm (h.map (·.duration)), h.length_eq]

theorem serviceName_of_ofIntervals? (h : ofIntervals? (name, is) = some a) :
    a.serviceName = name := by
  obtain ⟨_, -, rfl⟩ := Option.map_eq_some_iff.mp h
  rfl

/-- There is one summary for each service, of all its intervals. -/
theorem mem_ofSpans_iff :
    a ∈ (ofSpans spans).filterMap ofIntervals? ↔
      ofIntervals? (a.serviceName, intervalsFor a.serviceName (spans.flatMap (·.entries))) =
        some a := by
  rw [List.mem_filterMap]
  constructor
  · rintro ⟨⟨name, is⟩, hmem, ha⟩
    have hlookup := KeyedList.lookup_of_mem (nodup_names_ofSpans spans) hmem
    rw [lookup_ofSpans] at hlookup
    obtain rfl := serviceName_of_ofIntervals? ha
    split at hlookup
    · simp at hlookup
    · rwa [Option.some.inj hlookup]
  · intro ha
    refine ⟨_, KeyedList.mem_of_lookup ?_, ha⟩
    rw [lookup_ofSpans, if_neg]
    intro hnil
    simp [hnil, ofIntervals?] at ha

theorem nodup_serviceNames_ofSpans (spans : List Span) :
    (((ofSpans spans).filterMap ofIntervals?).map (·.serviceName)).Nodup := by
  have hnames := List.pairwise_map.mp (nodup_names_ofSpans spans)
  refine List.pairwise_map.mpr (List.pairwise_filterMap.mpr (hnames.imp fun hne a ha b hb => ?_))
  rwa [serviceName_of_ofIntervals? ha, serviceName_of_ofIntervals? hb]

theorem nodup_ofSpans (spans : List Span) : ((ofSpans spans).filterMap ofIntervals?).Nodup :=
  (nodup_serviceNames_ofSpans spans).of_map _

/-- The order of the spans does not matter for the summaries of the services. -/
theorem all_perm (h : spans.Perm spans') : all (ofSpans spans) = all (ofSpans spans') := by
  have hmem (a : ServiceSummary) :
      a ∈ (ofSpans spans).filterMap ofIntervals? ↔ a ∈ (ofSpans spans').filterMap ofIntervals? := by
    rw [mem_ofSpans_iff, mem_ofSpans_iff, ofIntervals?_perm (intervalsFor_perm h a.serviceName)]
  have hperm := (List.perm_ext_iff_of_nodup (nodup_ofSpans spans) (nodup_ofSpans spans')).mpr hmem
  refine ranked_eq (fun a : ServiceSummary => (a.maxSpanDuration, a.serviceName)) hperm
    fun a ha b hb hkey => ?_
  have hname : a.serviceName = b.serviceName := congrArg (·.2) hkey
  rw [mem_ofSpans_iff] at ha hb
  rw [← hname] at hb
  exact Option.some.inj (ha.symm.trans hb)

end

end ServiceSummary

end TraceExplorer
