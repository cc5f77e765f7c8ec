import TraceExplorer.Proofs.KeyedList
import TraceExplorer.Tree.TraceTree

/-!
# The nodes of a service

A walk through a tree lists under each service the nodes that hold a span of it. A node is listed
once, where the walk comes to it, and the services are in the order in which the walk meets them.
-/

namespace TraceExplorer

def SpanGroup.isOf (service : Text) (g : SpanGroup) : Bool :=
  g.spans.any fun s => s.endpoints.any fun e => e.service? == some service

def SpanGroup.mentions (g : SpanGroup) : List (Text × Text) :=
  (g.spans.flatMap (·.serviceNames)).map (·, g.id)

section

variable {s : Span} {g : SpanGroup} {service : Text}

theorem Span.mem_serviceNames_iff :
    service ∈ s.serviceNames ↔ ∃ e ∈ s.endpoints, e.service? = some service := by
  rw [serviceNames, List.mem_eraseDups, List.mem_filterMap]

theorem SpanGroup.isOf_iff : g.isOf service ↔ ∃ s ∈ g.spans, service ∈ s.serviceNames := by
  simp only [isOf, List.any_eq_true, beq_iff_eq, Span.mem_serviceNames_iff]

/-- What a group mentions of a service is its own id, if anything. -/
theorem SpanGroup.eraseDups_mentions (service : Text) (g : SpanGroup) :
    ((g.mentions.filter (·.1 == service)).map (·.2)).eraseDups =
      if g.isOf service then [g.id] else [] := by
  have hall : ∀ id ∈ (g.mentions.filter (·.1 == service)).map (·.2), id = g.id := by
    intro id hid
    obtain ⟨mention, hmention, rfl⟩ := List.mem_map.mp hid
    obtain ⟨_, -, rfl⟩ := List.mem_map.mp (List.mem_filter.mp hmention).1
    rfl
  have hnone : (g.mentions.filter (·.1 == service)).map (·.2) = [] ↔ ¬ g.isOf service := by
    rw [List.map_eq_nil_iff, List.filter_eq_nil_iff, isOf_iff]
    simp only [mentions, List.forall_mem_map, List.mem_flatMap, beq_iff_eq]
    grind
  rw [Positions.eraseDups_of_forall_eq hall]
  by_cases hof : g.isOf service
  · rw [if_neg (hnone.not.mpr (not_not.mpr hof)), if_pos hof]
  · rw [if_pos (hnone.mpr hof), if_neg hof]

end

namespace TraceTree

section

variable {id service : Text} {services : List (Text × List Text)}

def addOnce (id : Text) (ids : List Text) : List Text :=
  if ids.contains id then ids else ids ++ [id]

theorem addToService_eq_upsert :
    addToService id services service =
      KeyedList.upsert (fun old => addOnce id (old.getD [])) service services := by
  induction services with
  | nil => rfl
  | cons entry rest ih =>
      obtain ⟨name, ids⟩ := entry
      rw [addToService, KeyedList.upsert, ih]
      rfl

theorem spansByService_eq_foldl (t : TraceTree) :
    t.spansByService = (t.nodes.flatMap (·.mentions)).foldl (fun services mention =>
      KeyedList.upsert (fun old => addOnce mention.2 (old.getD [])) mention.1 services) [] := by
  rw [List.foldl_flatMap, spansByService]
  congr 1
  funext services g
  rw [SpanGroup.mentions, List.foldl_map]
  congr 1
  funext services service
  exact addToService_eq_upsert

/-- The services are in the order in which the walk through all spans meets them. -/
theorem names_spansByService (t : TraceTree) :
    t.spansByService.map (·.1) = (t.spans.flatMap (·.serviceNames)).eraseDups := by
  have hnames : (t.nodes.flatMap (·.mentions)).map (·.1) = t.spans.flatMap (·.serviceNames) := by
    rw [spans, List.flatMap_assoc, List.map_flatMap]
    refine List.flatMap_congr fun g _ => ?_
    rw [SpanGroup.mentions, List.map_map]
    exact List.map_id _
  rw [spansByService_eq_foldl, KeyedList.keys_foldl_upsert, hnames]

theorem nodup_names_spansByService (t : TraceTree) : (t.spansByService.map (·.1)).Nodup := by
  rw [names_spansByService]
  exact Positions.nodup_eraseDups _

theorem foldl_addOnce (mentions : List (Text × Text)) :
    mentions.foldl (fun old mention => some (addOnce mention.2 (old.getD []))) none =
      if mentions = [] then none else some (mentions.map (·.2)).eraseDups := by
  induction mentions using List.reverseRecOn with
  | nil => rfl
  | append_singleton mentions mention ih =>
      have hids : addOnce mention.2 (mentions.map (·.2)).eraseDups =
          ((mentions ++ [mention]).map (·.2)).eraseDups := by
        rw [List.map_append, List.map_singleton, Positions.eraseDups_concat, addOnce]
        simp only [List.contains_iff_mem, List.mem_eraseDups]
      rw [List.foldl_concat, ih, if_neg (List.concat_ne_nil _ _), ← hids]
      by_cases hnil : mentions = []
      · rw [if_pos hnil, hnil]
        rfl
      · rw [if_neg hnil]
        rfl

theorem eraseDups_mentioned (nodes : List SpanGroup) (service : Text) :
    (((nodes.flatMap (·.mentions)).filter (·.1 == service)).map (·.2)).eraseDups =
      ((nodes.filter (·.isOf service)).map (·.id)).eraseDups := by
  have hholders : (nodes.filter (·.isOf service)).map (·.id) =
      nodes.flatMap fun g => if g.isOf service then [g.id] else [] := by
    rw [← List.filterMap_eq_map, List.filterMap_filter, List.filterMap_eq_flatMap_toList]
    refine List.flatMap_congr fun g _ => ?_
    split <;> rfl
  rw [hholders, List.filter_flatMap, List.map_flatMap]
  apply Positions.eraseDups_flatMap_congr
  intro g _
  rw [SpanGroup.eraseDups_mentions]
  split <;> rfl

/-- Under a service are the nodes that hold a span of it, each one once. -/
theorem lookup_spansByService (t : TraceTree) (service : Text) :
    t.spansByService.lookup service =
      if t.nodes.filter (·.isOf service) = [] then none
      else some ((t.nodes.filter (·.isOf service)).map (·.id)).eraseDups := by
  have hids := eraseDups_mentioned t.nodes service
  have hnil : (t.nodes.flatMap (·.mentions)).filter (·.1 == service) = [] ↔
      t.nodes.filter (·.isOf service) = [] := by
    rw [← List.map_eq_nil_iff (f := (·.2)), ← Positions.eraseDups_eq_nil_iff, hids,
      Positions.eraseDups_eq_nil_iff, List.map_eq_nil_iff]
  rw [spansByService_eq_foldl, KeyedList.lookup_foldl_upsert, List.lookup_nil, foldl_addOnce, hids]
  simp only [hnil]

theorem idsOfService_eq (t : TraceTree) (service : Text) :
    t.idsOfService service = ((t.nodes.filter (·.isOf service)).map (·.id)).eraseDups := by
  rw [idsOfService, lookup_spansByService]
  split
  · rename_i hnone
    rw [hnone]
    rfl
  · rfl

theorem mem_spansByService_iff {t : TraceTree} {ids : List Text} :
    (service, ids) ∈ t.spansByService ↔ ids ≠ [] ∧ ids = t.idsOfService service := by
  rw [idsOfService_eq]
  constructor
  · intro hmem
    have hlookup := KeyedList.lookup_of_mem (nodup_names_spansByService t) hmem
    rw [lookup_spansByService] at hlookup
    split at hlookup
    · cases hlookup
    · rename_i hheld
      obtain rfl := Option.some.inj hlookup
      exact ⟨by rwa [Ne, Positions.eraseDups_eq_nil_iff, List.map_eq_nil_iff], rfl⟩
  · rintro ⟨hne, rfl⟩
    apply KeyedList.mem_of_lookup
    rw [lookup_spansByService, if_neg]
    rwa [Ne, Positions.eraseDups_eq_nil_iff, List.map_eq_nil_iff] at hne

/-- The ids of a service are those of nodes. -/
theorem idsOfService_subset (t : TraceTree) (service : Text) :
    t.idsOfService service ⊆ t.nodes.map (·.id) := by
  intro id hid
  rw [idsOfService_eq, List.mem_eraseDups] at hid
  obtain ⟨g, hg, rfl⟩ := List.mem_map.mp hid
  exact List.mem_map_of_mem (List.mem_filter.mp hg).1

end

end TraceTree

end TraceExplorer
