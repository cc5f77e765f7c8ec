import TraceExplorer.Proofs.Span.RoundTrip

/-!
# Well-formed spans

Reading puts a span into a form that the later stages rely on: one spelling for each id, no span
that is its own parent, no negative duration, service names in lower case. Nothing else is promised:
every span of that form is read from some JSON value.
-/

namespace TraceExplorer

open Json (Value)

structure IsNormalId (id : Text) : Prop where
  nonempty : id.isEmpty = false
  wide : 16 ≤ id.length
  fixed : normalizeId (.text id) = some id

theorem IsCanonical.isNormalId {id : Text} (h : IsCanonical id) : IsNormalId id :=
  ⟨List.isEmpty_eq_false_iff.mpr h.ne_nil, h.wide, normalizeId_eq_self h⟩

namespace Span

/-- What holds of a span that was read. -/
structure IsWellFormed (s : Span) : Prop where
  id : IsNormalId s.id
  traceId : IsNormalId s.traceId
  parentId : ∀ parent, s.parentId = some parent → IsNormalId parent ∧ parent ≠ s.id
  duration : ∀ n, s.duration = some n → 0 ≤ n
  service : ∀ e ∈ s.endpoints, ∀ name, e.serviceName = some name →
    name.isEmpty = false ∧ name.lower = name
  port : ∀ e ∈ s.endpoints, e.port ≠ some 0

def endpointSource (e : Endpoint) : List (Text × Option Value) :=
  [("serviceName", e.serviceName.map .text), ("ip", some e.ip), ("port", e.port.map .whole)]

/-- Every field of a span, absent if it has no value. A name or an address that does not count as
present is given all the same. -/
def spanSource (s : Span) : List (Text × Option Value) :=
  [("traceId", some (.text s.traceId)),
    ("id", some (.text s.id)),
    ("parentId", s.parentId.map .text),
    ("kind", some (.text s.kind.name)),
    ("name", some s.name),
    ("timestamp", s.timestamp.map .whole),
    ("duration", s.duration.map .whole),
    ("localEndpoint", s.localEndpoint.map fun e => .object (presentFields (endpointSource e))),
    ("remoteEndpoint", s.remoteEndpoint.map fun e => .object (presentFields (endpointSource e))),
    ("annotations",
      if s.annotations.isEmpty then none else some (.list (s.annotations.map (·.toJson)))),
    ("tags",
      if s.tags.isEmpty then none
      else some (.object (s.tags.map fun tag => (tag.1, .text tag.2)))),
    ("shared", if s.shared then some (.bool true) else none)]

section

variable {s : Span} {e : Endpoint} {v : Value} {fields : List (Text × Value)} {name : Text}

/-! ## What reading leaves -/

theorem IsReading.isReadEndpoint (h : IsReading fields s) (he : e ∈ s.endpoints) :
    IsReadEndpoint e := by
  rcases List.mem_append.mp he with hnear | hfar
  · rw [Option.mem_toList] at hnear
    exact isReadEndpoint_of_ok (hnear ▸ h.localEndpoint)
  · rw [Option.mem_toList] at hfar
    exact isReadEndpoint_of_ok (hfar ▸ h.remoteEndpoint)

theorem IsReading.isWellFormed (h : IsReading fields s) : s.IsWellFormed where
  id := (isCanonical_of_normalizeId h.id).isNormalId
  traceId := (isCanonical_of_normalizeId h.traceId).isNormalId
  parentId parent hparent := by
    obtain ⟨hcanonical, hne⟩ := h.isCanonical_parentId parent hparent
    exact ⟨hcanonical.isNormalId, hne⟩
  duration := h.duration_nonneg
  service e he name hname :=
    ⟨(h.isReadEndpoint he).nonempty name hname, (h.isReadEndpoint he).low name hname⟩
  port e he hport := by
    have hkept := (h.isReadEndpoint he).port
    rw [hport] at hkept
    cases hkept

theorem isWellFormed_of_ofJson (h : ofJson v = .ok s) : s.IsWellFormed := by
  cases v with
  | object fields => exact (ofFields_eq_ok_iff.mp h).isWellFormed
  | _ => cases h

theorem length_nonneg_of_ofJson (h : ofJson v = .ok s) : 0 ≤ s.length := by
  have hduration := (isWellFormed_of_ofJson h).duration
  cases hs : s.duration with
  | none => simp [Span.length, hs]
  | some n => simpa [Span.length, hs] using hduration n hs

theorem parentId_ne_empty_of_ofJson (h : ofJson v = .ok s) : s.parentId ≠ some Text.empty := by
  intro hempty
  have hnormal := ((isWellFormed_of_ofJson h).parentId Text.empty hempty).1
  cases hnormal.nonempty

theorem lower_of_mem_serviceNames (h : ofJson v = .ok s) (hname : name ∈ s.serviceNames) :
    name.lower = name := by
  obtain ⟨e, he, hservice⟩ := List.mem_filterMap.mp (List.mem_eraseDups.mp hname)
  obtain ⟨hgiven, -⟩ := Option.filter_eq_some_iff.mp hservice
  exact ((isWellFormed_of_ofJson h).service e he name hgiven).2

/-! ## Where well-formed spans are read from -/

theorem names_endpointSource (e : Endpoint) :
    (endpointSource e).map (·.1) = (["serviceName", "ip", "port"] : List Text) := rfl

theorem nodup_endpointSource (e : Endpoint) : ((endpointSource e).map (·.1)).Nodup := by
  rw [names_endpointSource]
  decide +kernel

theorem nodup_spanSource (s : Span) : ((spanSource s).map (·.1)).Nodup := by
  have hnames : (spanSource s).map (·.1) = (spanTable s).map (·.1) := rfl
  rw [hnames]
  exact nodup_spanTable s

theorem readEndpoint_source (h : IsReadEndpoint e) :
    readEndpoint (.object (presentFields (endpointSource e))) = .ok (some e) := by
  have hfield {name : Text} {v? : Option Value} (hname : (endpointSource e).lookup name = some v?) :
      fieldOf (presentFields (endpointSource e)) name = v?.getD .null :=
    fieldOf_presentFields (nodup_endpointSource e) (KeyedList.mem_of_lookup hname)
  have hip : fieldOf (presentFields (endpointSource e)) "ip" = _ := hfield rfl
  have hipv4 : fieldOf (presentFields (endpointSource e)) "ipv4" = .null :=
    fieldOf_presentFields_of_notMem (by rw [names_endpointSource]; decide +kernel)
  have hipv6 : fieldOf (presentFields (endpointSource e)) "ipv6" = .null :=
    fieldOf_presentFields_of_notMem (by rw [names_endpointSource]; decide +kernel)
  -- The address is given even if it is null, so the object counts as present.
  have hne : presentFields (endpointSource e) ≠ [] := by simp [presentFields, endpointSource]
  rw [readEndpoint_of_fields h hne (hfield rfl) (hfield rfl), hip, hipv4, hipv6]
  rfl

theorem fieldOf_source {v? : Option Value} (h : (spanSource s).lookup name = some v?) :
    fieldOf (presentFields (spanSource s)) name = v?.getD .null :=
  fieldOf_presentFields (nodup_spanSource s) (KeyedList.mem_of_lookup h)

theorem IsWellFormed.isReadEndpoint (h : s.IsWellFormed) (he : e ∈ s.endpoints) :
    IsReadEndpoint e := by
  refine ⟨fun name hname => (h.service e he name hname).1,
    fun name hname => (h.service e he name hname).2, ?_⟩
  have hport := h.port e he
  cases hp : e.port with
  | none => rfl
  | some n =>
      apply Option.filter_some_pos
      simpa [hp] using hport

theorem readEndpoint_source_of_mem {e? : Option Endpoint}
    (h : ∀ e, e? = some e → IsReadEndpoint e) :
    readEndpoint ((e?.map fun e => Value.object (presentFields (endpointSource e))).getD .null) =
      .ok e? := by
  cases e? with
  | none => rfl
  | some e => exact readEndpoint_source (h e rfl)

theorem IsWellFormed.isReading (h : s.IsWellFormed) :
    IsReading (presentFields (spanSource s)) s where
  id := by
    rw [fieldOf_source rfl]
    exact h.id.fixed
  traceId := by
    rw [fieldOf_source rfl]
    exact h.traceId.fixed
  kind := by
    rw [fieldOf_source rfl]
    exact readKind_name s.kind
  duration := readDuration_of_nonneg (readInteger_map (fieldOf_source rfl)) h.duration
  annotations := by
    rw [fieldOf_source rfl]
    exact readAnnotations_written s.annotations
  tags := by
    rw [fieldOf_source rfl]
    exact readTags_written s.tags
  parentId := by
    rw [fieldOf_source rfl]
    cases hparent : s.parentId with
    | none => rfl
    | some parent =>
        obtain ⟨hnormal, hne⟩ := h.parentId parent hparent
        rw [Option.map_some, Option.getD_some, hnormal.fixed]
        exact (Option.filter_some_pos (by simpa using hne)).symm
  timestamp := readInteger_map (fieldOf_source rfl)
  localEndpoint := by
    rw [fieldOf_source rfl]
    apply readEndpoint_source_of_mem
    exact fun e he => h.isReadEndpoint (List.mem_append_left _ (Option.mem_toList.mpr he))
  remoteEndpoint := by
    rw [fieldOf_source rfl]
    apply readEndpoint_source_of_mem
    exact fun e he => h.isReadEndpoint (List.mem_append_right _ (Option.mem_toList.mpr he))
  name := by
    rw [fieldOf_source rfl]
    rfl
  shared := by
    rw [fieldOf_source rfl]
    exact (isTruthy_written s.shared).symm

end

/-- The spans that are read from JSON values are the well-formed ones. -/
theorem exists_ofJson_iff_isWellFormed {s : Span} :
    (∃ v, ofJson v = .ok s) ↔ s.IsWellFormed := by
  constructor
  · rintro ⟨v, hv⟩
    exact isWellFormed_of_ofJson hv
  · intro h
    exact ⟨.object (presentFields (spanSource s)), ofFields_eq_ok_iff.mpr h.isReading⟩

end Span

end TraceExplorer
