import TraceExplorer.Proofs.Json.Display
import TraceExplorer.Proofs.KeyedList
import TraceExplorer.Proofs.Reordering
import TraceExplorer.Proofs.Span.Id
import TraceExplorer.Proofs.Span.Reading
import TraceExplorer.Span.Writer

/-!
# Reading what was written

A span that was read, written and read again is the same span, apart from values that do not count
as present: these are not written.
-/

namespace TraceExplorer

open Json (Value)

def presentOrNull (v : Value) : Value := if v.isTruthy then v else .null

/-- What becomes of an endpoint that is written and read again: an address that does not count as
present is null, and an endpoint without a service, an address and a port is none. -/
def Endpoint.rewritten? (e : Endpoint) : Option Endpoint :=
  if e.serviceName = none ∧ e.ip.isTruthy = false ∧ e.port = none then none
  else some { e with ip := presentOrNull e.ip }

/-- What becomes of a span that is written and read again: only its name and its endpoints can
differ. -/
def Span.rewritten (s : Span) : Span :=
  { s with
    name := presentOrNull s.name
    localEndpoint := s.localEndpoint.bind (·.rewritten?)
    remoteEndpoint := s.remoteEndpoint.bind (·.rewritten?) }

namespace Span

/-! ## Objects with optional fields -/

def presentFields (table : List (Text × Option Value)) : List (Text × Value) :=
  table.filterMap fun (name, v?) => v?.map (Value.field name)

section

variable {table : List (Text × Option Value)} {name : Text} {v? : Option Value}

theorem presentFields_cons (table : List (Text × Option Value)) (name : Text) (v? : Option Value) :
    presentFields ((name, v?) :: table) =
      (v?.map (Value.field name)).toList ++ presentFields table := by
  cases v? <;> rfl

theorem notMem_names_presentFields (h : name ∉ table.map (·.1)) :
    name ∉ (presentFields table).map (·.1) := by
  intro hmem
  obtain ⟨⟨n, v⟩, hfield, rfl⟩ := List.mem_map.mp hmem
  obtain ⟨⟨n', v?⟩, htable, hv⟩ := List.mem_filterMap.mp hfield
  obtain ⟨w, -, hw⟩ := Option.map_eq_some_iff.mp hv
  obtain rfl : n' = n := congrArg Prod.fst hw
  exact h (List.mem_map.mpr ⟨_, htable, rfl⟩)

theorem field?_presentFields (hnodup : (table.map (·.1)).Nodup) (h : (name, v?) ∈ table) :
    Value.field? (presentFields table) name = v? := by
  induction table with
  | nil => cases h
  | cons first rest ih =>
      obtain ⟨n, w?⟩ := first
      obtain ⟨hfirst, hrest⟩ := List.nodup_cons.mp hnodup
      rw [presentFields_cons, Value.field?]
      rcases List.mem_cons.mp h with heq | hmem
      · obtain ⟨rfl, rfl⟩ := Prod.mk.inj heq
        cases v? with
        | some v => exact List.lookup_cons_self
        | none =>
            rw [← Option.not_isSome_iff_eq_none, KeyedList.isSome_lookup_iff]
            exact notMem_names_presentFields hfirst
      · have hne : (name == n) = false := by
          rw [beq_eq_false_iff_ne]
          rintro rfl
          exact hfirst (List.mem_map.mpr ⟨_, hmem, rfl⟩)
        cases w? with
        | none => exact ih hrest hmem
        | some w =>
            change List.lookup name ((n, w) :: presentFields rest) = v?
            rw [List.lookup_cons, hne]
            exact ih hrest hmem

theorem fieldOf_presentFields (hnodup : (table.map (·.1)).Nodup) (h : (name, v?) ∈ table) :
    fieldOf (presentFields table) name = v?.getD .null := by
  rw [fieldOf, field?_presentFields hnodup h]

end

theorem fieldOf_presentFields_of_notMem {table : List (Text × Option Value)} {name : Text}
    (h : name ∉ table.map (·.1)) : fieldOf (presentFields table) name = .null := by
  apply fieldOf_of_none
  rw [← Option.not_isSome_iff_eq_none, Value.field?, KeyedList.isSome_lookup_iff]
  exact notMem_names_presentFields h

theorem toList_absentIf {p : Prop} [Decidable p] (name : Text) (v : Value) :
    ((if p then none else some v).map (Value.field name)).toList =
      if p then [] else [Value.field name v] := by
  split <;> rfl

theorem toList_presentIf {p : Prop} [Decidable p] (name : Text) (v : Value) :
    ((if p then some v else none).map (Value.field name)).toList =
      if p then [Value.field name v] else [] := by
  split <;> rfl

/-! ## Endpoints -/

def endpointTable (e : Endpoint) : List (Text × Option Value) :=
  [("serviceName", e.service?.map .text),
    ("ipv4", if e.ip.isTruthy then some e.ip else none),
    ("port", (e.port.filter (· != 0)).map .whole)]

theorem toJson_endpoint (e : Endpoint) : e.toJson = .object (presentFields (endpointTable e)) := by
  simp only [endpointTable, presentFields_cons, toList_presentIf, Option.map_map]
  rw [Endpoint.toJson, List.append_assoc]
  simp only [presentFields, List.filterMap_nil, List.append_nil]
  rfl

theorem names_endpointTable (e : Endpoint) :
    (endpointTable e).map (·.1) = (["serviceName", "ipv4", "port"] : List Text) := rfl

theorem nodup_endpointTable (e : Endpoint) : ((endpointTable e).map (·.1)).Nodup := by
  rw [names_endpointTable]
  decide +kernel

/-- What reading an endpoint leaves: a service name in lower case, and no port zero. -/
structure IsReadEndpoint (e : Endpoint) : Prop where
  nonempty : ∀ name, e.serviceName = some name → name.isEmpty = false
  low : ∀ name, e.serviceName = some name → Text.lower name = name
  port : e.port.filter (· != 0) = e.port

section

variable {v : Value} {e : Endpoint} {e? : Option Endpoint}

theorem isReadEndpoint_of_ok (h : readEndpoint v = .ok (some e)) : IsReadEndpoint e := by
  unfold readEndpoint at h
  split at h
  · cases h
  · split at h
    · obtain ⟨port, -, he⟩ := bind_eq_ok_iff.mp h
      obtain rfl := Option.some.inj (Except.ok.inj he)
      refine ⟨fun name hname => ?_, fun name hname => ?_, ?_⟩
      · obtain ⟨htruthy, hlower⟩ := Option.ite_none_right_eq_some.mp hname
        rw [← Option.some.inj hlower, Text.isEmpty_lower]
        exact Value.isEmpty_display htruthy
      · obtain ⟨-, hlower⟩ := Option.ite_none_right_eq_some.mp hname
        rw [← Option.some.inj hlower]
        exact Text.lower_lower _
      · cases port with
        | none => rfl
        | some n => by_cases hn : n = 0 <;> simp [hn]
    · cases h

theorem IsReadEndpoint.service? (h : IsReadEndpoint e) : e.service? = e.serviceName := by
  rw [Endpoint.service?]
  cases hname : e.serviceName with
  | none => rfl
  | some name => rw [Option.filter_some, h.nonempty name hname]; rfl

theorem firstPresent_null (v : Value) : firstPresent v .null .null = presentOrNull v := rfl

theorem presentFields_endpointTable_eq_nil (h : IsReadEndpoint e) :
    presentFields (endpointTable e) = [] ↔
      e.serviceName = none ∧ e.ip.isTruthy = false ∧ e.port = none := by
  rw [endpointTable, h.service?, h.port]
  simp [presentFields, List.filterMap_eq_nil_iff]

theorem getD_presentIf (v : Value) :
    (if v.isTruthy then some v else none).getD .null = presentOrNull v := by
  rw [presentOrNull]
  split <;> rfl

theorem presentOrNull_presentOrNull (v : Value) :
    presentOrNull (presentOrNull v) = presentOrNull v := by
  cases hv : v.isTruthy with
  | true => simp only [presentOrNull, hv, if_true]
  | false => simp only [presentOrNull, hv, Bool.false_eq_true, if_false, ite_self]

theorem IsReadEndpoint.lower_display (h : IsReadEndpoint e) :
    (if ((e.serviceName.map Value.text).getD .null).isTruthy then
      some (Text.lower ((e.serviceName.map Value.text).getD .null).display) else none) =
      e.serviceName := by
  cases hname : e.serviceName with
  | none => rfl
  | some name =>
      have htruthy : (Value.text name).isTruthy = true := by
        rw [Value.isTruthy, h.nonempty name hname]
        rfl
      rw [Option.map_some, Option.getD_some, if_pos htruthy, Value.display, h.low name hname]

/-- An endpoint is read from any object that has its service and its port. -/
theorem readEndpoint_of_fields {fields : List (Text × Value)} (h : IsReadEndpoint e)
    (hne : fields ≠ [])
    (hservice : fieldOf fields "serviceName" = (e.serviceName.map Value.text).getD .null)
    (hport : fieldOf fields "port" = (e.port.map Value.whole).getD .null) :
    readEndpoint (.object fields) = .ok (some { e with
      ip := firstPresent (fieldOf fields "ipv4") (fieldOf fields "ipv6")
        (fieldOf fields "ip") }) := by
  have htruthy : (Value.object fields).isTruthy = true := by simpa [Value.isTruthy] using hne
  have hread : readIntegerField fields "port" = .ok e.port := by
    cases hp : e.port with
    | none => exact readIntegerField_null (by rw [hport, hp]; rfl)
    | some n => exact readIntegerField_whole (by rw [hport, hp]; rfl)
  rw [readEndpoint, htruthy]
  refine bind_eq_ok_iff.mpr ⟨e.port, hread, ?_⟩
  rw [hservice, h.port, h.lower_display]
  rfl

theorem readEndpoint_toJson (h : IsReadEndpoint e) :
    readEndpoint e.toJson = .ok e.rewritten? := by
  have hfield {name : Text} {v? : Option Value} (hname : (endpointTable e).lookup name = some v?) :
      fieldOf (presentFields (endpointTable e)) name = v?.getD .null :=
    fieldOf_presentFields (nodup_endpointTable e) (KeyedList.mem_of_lookup hname)
  have hservice : fieldOf (presentFields (endpointTable e)) "serviceName" = _ := hfield rfl
  have hip : fieldOf (presentFields (endpointTable e)) "ipv4" = _ := hfield rfl
  have hport : fieldOf (presentFields (endpointTable e)) "port" = _ := hfield rfl
  have hipv6 : fieldOf (presentFields (endpointTable e)) "ipv6" = .null :=
    fieldOf_presentFields_of_notMem (by rw [names_endpointTable]; decide +kernel)
  have hother : fieldOf (presentFields (endpointTable e)) "ip" = .null :=
    fieldOf_presentFields_of_notMem (by rw [names_endpointTable]; decide +kernel)
  rw [h.service?] at hservice
  rw [h.port] at hport
  rw [toJson_endpoint, Endpoint.rewritten?]
  -- An object without fields does not count as present, so it is read as no endpoint.
  by_cases hnil : presentFields (endpointTable e) = []
  · rw [if_pos ((presentFields_endpointTable_eq_nil h).mp hnil), hnil]
    rfl
  · rw [if_neg (mt (presentFields_endpointTable_eq_nil h).mpr hnil),
      readEndpoint_of_fields h hnil hservice hport, hip, hipv6, hother, firstPresent_null,
      getD_presentIf, presentOrNull_presentOrNull]

end

def spanTable (s : Span) : List (Text × Option Value) :=
  [("traceId", some (.text s.traceId)),
    ("id", some (.text s.id)),
    ("parentId", s.declaredParent?.map .text),
    ("kind", if s.kind = .none then none else some (.text s.kind.name)),
    ("name", if s.name.isTruthy then some s.name else none),
    ("timestamp", s.timestamp.map .whole),
    ("duration", s.duration.map .whole),
    ("localEndpoint", s.localEndpoint.map (·.toJson)),
    ("remoteEndpoint", s.remoteEndpoint.map (·.toJson)),
    ("annotations",
      if s.annotations.isEmpty then none else some (.list (s.annotations.map (·.toJson)))),
    ("tags",
      if s.tags.isEmpty then none
      else some (.object (s.tags.map fun tag => (tag.1, .text tag.2)))),
    ("shared", if s.shared then some (.bool true) else none)]

theorem toFields_eq (s : Span) : s.toFields = presentFields (spanTable s) := by
  simp only [spanTable, presentFields_cons, toList_absentIf, toList_presentIf, Option.map_map]
  simp only [toFields, presentFields, List.filterMap_nil, List.append_nil, List.append_assoc]
  rfl

theorem nodup_spanTable (s : Span) : ((spanTable s).map (·.1)).Nodup := by
  have hnames : (spanTable s).map (·.1) = (["traceId", "id", "parentId", "kind", "name",
      "timestamp", "duration", "localEndpoint", "remoteEndpoint", "annotations", "tags",
      "shared"] : List Text) := rfl
  rw [hnames]
  decide +kernel

theorem fieldOf_toFields {s : Span} {name : Text} {v? : Option Value}
    (h : (spanTable s).lookup name = some v?) : fieldOf s.toFields name = v?.getD .null := by
  rw [toFields_eq]
  exact fieldOf_presentFields (nodup_spanTable s) (KeyedList.mem_of_lookup h)

/-! ## Parts of a span -/

theorem readInteger_map {fields : List (Text × Value)} {name : String} {n : Option Int}
    (h : fieldOf fields name = (n.map Value.whole).getD .null) :
    readIntegerField fields name = .ok n := by
  cases n with
  | none => exact readIntegerField_null h
  | some n => exact readIntegerField_whole h

theorem readKind_written (kind : Kind) :
    readKind ((if kind = .none then none else some (Value.text kind.name)).getD .null) =
      .ok kind := by
  split
  · rename_i hnone
    rw [hnone]
    rfl
  · exact readKind_name kind

theorem readEndpoint_written {e? : Option Endpoint} (h : ∀ e, e? = some e → IsReadEndpoint e) :
    readEndpoint ((e?.map (·.toJson)).getD .null) = .ok (e?.bind (·.rewritten?)) := by
  cases e? with
  | none => rfl
  | some e => exact readEndpoint_toJson (h e rfl)

theorem readAnnotation_toJson (a : Annotation) : readAnnotation a.toJson = .ok a := rfl

theorem readAnnotations_written (annotations : List Annotation) :
    readAnnotations ((if annotations.isEmpty then none
      else some (Value.list (annotations.map (·.toJson)))).getD .null) = .ok annotations := by
  cases annotations with
  | nil => rfl
  | cons first rest =>
      have hall : ((first :: rest).map (·.toJson)).mapM readAnnotation = .ok (first :: rest) := by
        rw [Reordering.mapM_eq_ok_iff, List.forall₂_map_left_iff]
        exact List.forall₂_same.mpr fun a _ => readAnnotation_toJson a
      exact hall

theorem readTags_written (tags : List (Text × Text)) :
    readTags ((if tags.isEmpty then none
      else some (Value.object (tags.map fun tag => (tag.1, .text tag.2)))).getD .null) =
      .ok tags := by
  cases tags with
  | nil => rfl
  | cons first rest =>
      have hall : ((first :: rest).map fun tag => (tag.1, Value.text tag.2)).map
          (fun tag => (tag.1, tag.2.display)) = first :: rest := by
        rw [List.map_map]
        exact List.map_id _
      exact congrArg Except.ok hall

theorem normalizeId_written {p? : Option Text} (h : ∀ p, p? = some p → IsCanonical p) :
    normalizeId (((p?.filter (!·.isEmpty)).map Value.text).getD .null) = p? := by
  cases p? with
  | none => rfl
  | some p =>
      have hcanonical := h p rfl
      have hnonempty : p.isEmpty = false := List.isEmpty_eq_false_iff.mpr hcanonical.ne_nil
      rw [Option.filter_some, hnonempty]
      exact normalizeId_eq_self hcanonical

theorem isTruthy_written (b : Bool) :
    ((if b then some (Value.bool true) else none).getD .null).isTruthy = b := by
  cases b <;> rfl

/-! ## Whole spans -/

section

variable {fields : List (Text × Value)} {span : Span}

theorem IsReading.isCanonical_parentId (h : IsReading fields span) :
    ∀ parent, span.parentId = some parent → IsCanonical parent ∧ parent ≠ span.id := by
  intro parent hparent
  rw [h.parentId, Option.filter_eq_some_iff] at hparent
  exact ⟨isCanonical_of_normalizeId hparent.1, by simpa using hparent.2⟩

theorem IsReading.duration_nonneg (h : IsReading fields span) :
    ∀ n, span.duration = some n → 0 ≤ n := by
  intro n hn
  have hread := h.duration
  rw [readDuration, hn] at hread
  obtain ⟨read, -, hcheck⟩ := bind_eq_ok_iff.mp hread
  cases read with
  | none => cases hcheck
  | some m =>
      dsimp only at hcheck
      split at hcheck
      · cases hcheck
      · obtain rfl : m = n := Option.some.inj (Except.ok.inj hcheck)
        omega

theorem readDuration_of_nonneg {n? : Option Int}
    (hread : readIntegerField fields "duration" = .ok n?) (hnonneg : ∀ n, n? = some n → 0 ≤ n) :
    readDuration fields = .ok n? := by
  refine bind_eq_ok_iff.mpr ⟨n?, hread, ?_⟩
  cases n? with
  | none => rfl
  | some n => exact if_neg (by have := hnonneg n rfl; omega)

theorem IsReading.rewritten (h : IsReading fields span) :
    IsReading span.toFields span.rewritten where
  id := by
    rw [fieldOf_toFields rfl]
    exact normalizeId_eq_self (isCanonical_of_normalizeId h.id)
  traceId := by
    rw [fieldOf_toFields rfl]
    exact normalizeId_eq_self (isCanonical_of_normalizeId h.traceId)
  kind := by
    rw [fieldOf_toFields rfl]
    exact readKind_written span.kind
  duration := readDuration_of_nonneg (readInteger_map (fieldOf_toFields rfl)) h.duration_nonneg
  annotations := by
    rw [fieldOf_toFields rfl]
    exact readAnnotations_written span.annotations
  tags := by
    rw [fieldOf_toFields rfl]
    exact readTags_written span.tags
  parentId := by
    have hparent := h.isCanonical_parentId
    rw [fieldOf_toFields rfl]
    change span.parentId = (normalizeId ((span.declaredParent?.map Value.text).getD .null)).filter
      (· != span.id)
    rw [Span.declaredParent?, normalizeId_written fun parent hp => (hparent parent hp).1]
    cases hp : span.parentId with
    | none => rfl
    | some parent =>
        exact (Option.filter_some_pos (by simpa using (hparent parent hp).2)).symm
  timestamp := readInteger_map (fieldOf_toFields rfl)
  localEndpoint := by
    rw [fieldOf_toFields rfl]
    exact readEndpoint_written fun e he => isReadEndpoint_of_ok (he ▸ h.localEndpoint)
  remoteEndpoint := by
    rw [fieldOf_toFields rfl]
    exact readEndpoint_written fun e he => isReadEndpoint_of_ok (he ▸ h.remoteEndpoint)
  name := by
    rw [fieldOf_toFields rfl]
    exact (getD_presentIf span.name).symm
  shared := by
    rw [fieldOf_toFields rfl]
    exact (isTruthy_written span.shared).symm

end

/-- A span that was read from JSON, written and read again is the same span, except that a name and
an address that do not count as present become null and that an endpoint without a service, an
address and a port becomes none. -/
theorem ofJson_toJson {raw : Value} {span : Span} (h : ofJson raw = .ok span) :
    ofJson span.toJson = .ok span.rewritten := by
  cases raw with
  | object fields =>
      have hreading : IsReading fields span := ofFields_eq_ok_iff.mp h
      rw [toJson, ofJson]
      exact ofFields_eq_ok_iff.mpr hreading.rewritten
  | _ => cases h

/-- A span with an empty name, an endpoint whose only field is a port that does not count as
present, and one with a service and an empty address. -/
theorem ofJson_toJson_of_absent :
    ∃ (raw : Value) (span : Span), ofJson raw = .ok span ∧
      ofJson span.toJson = .ok span.rewritten ∧
      span.localEndpoint.isSome ∧ span.rewritten.localEndpoint.isNone ∧
      span.rewritten.remoteEndpoint.isSome ∧ span.rewritten.timestamp = some 0 := by
  have hread : ofJson (.object [
      ("traceId", .text " AB "), ("id", .whole 7), ("name", .text ""), ("timestamp", .whole 0),
      ("localEndpoint", .object [("port", .whole 0)]),
      ("remoteEndpoint", .object [("serviceName", .text "Web"), ("ipv4", .text "")])]) = .ok {
        traceId := "00000000000000ab", id := "0000000000000007", name := .text ""
        timestamp := some 0
        localEndpoint := some {}
        remoteEndpoint := some { serviceName := some "web", ip := .null } } := by
    rfl
  exact ⟨_, _, hread, ofJson_toJson hread, rfl, rfl, rfl, rfl⟩

end Span

end TraceExplorer
