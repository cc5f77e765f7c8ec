import TraceExplorer.Proofs.Span.Admitted
import TraceExplorer.Proofs.Span.RoundTrip

/-!
# Written spans and the schema

The schema, the reader and the writer each describe spans on their own. A span that is read from a
value that the schema admits is written as a value that the schema admits, as long as its endpoints
have no fields but those that the schema names: the writer gives the address of an endpoint as a
version 4 address, whatever the field in which the reader found it.
-/

namespace TraceExplorer

open Json (Value)
open Number (Scalar)
open Schema

namespace Span

def fieldsOf : Value → List (Text × Value)
  | .object fields => fields
  | _ => []

def endpointFields (v : Value) : List (Text × Value) :=
  fieldsOf (fieldOf (fieldsOf v) "localEndpoint") ++
    fieldsOf (fieldOf (fieldsOf v) "remoteEndpoint")

def endpointNames : List Text := ["serviceName", "ipv4", "ipv6", "port"]

/-! ## Objects with optional fields -/

section

variable {table : List (Text × Option Value)} {schemas : List (String × List Keyword)}
  {name : Text} {v : Value}

theorem lookup_of_field?_presentFields (hnodup : (table.map (·.1)).Nodup)
    (h : Value.field? (presentFields table) name = some v) :
    table.lookup name = some (some v) := by
  obtain ⟨⟨n, v?⟩, hmem, hv⟩ := List.mem_filterMap.mp (KeyedList.mem_of_lookup h)
  obtain ⟨w, rfl, hw⟩ := Option.map_eq_some_iff.mp hv
  obtain ⟨rfl, rfl⟩ := Prod.mk.inj hw
  exact KeyedList.lookup_of_mem hnodup hmem

theorem check_presentFields (hnodup : (table.map (·.1)).Nodup)
    (h : ∀ p ∈ schemas, ∀ v, table.lookup (p.1 : Text) = some (some v) → Passes p.2 v) :
    check (.properties schemas) (.object (presentFields table)) = [] :=
  check_properties.mpr fun p hp v hv => h p hp v (lookup_of_field?_presentFields hnodup hv)

end

/-! ## Given fields -/

section

variable {fields : List (Text × Value)} {name : Text} {schema : List Keyword}

theorem passes_fieldOf (h : ∀ v, Value.field? fields name = some v → Passes schema v)
    (hne : fieldOf fields name ≠ .null) : Passes schema (fieldOf fields name) := by
  cases hfield : Value.field? fields name with
  | none => exact absurd (fieldOf_of_none hfield) hne
  | some v =>
      rw [fieldOf_of_some hfield]
      exact h v hfield

theorem passes_of_isTruthy (h : ∀ v, Value.field? fields name = some v → Passes schema v)
    (htruthy : (fieldOf fields name).isTruthy) : Passes schema (fieldOf fields name) := by
  apply passes_fieldOf h
  intro hnull
  rw [hnull] at htruthy
  cases htruthy

end

/-! ## Ids -/

theorem eq_null_of_holds {v : Value} (h : ValueType.null.holds v) : v = .null := by
  cases v with
  | null => rfl
  | _ => cases h

section

variable {p : HexPattern} {fields : List (Text × Value)} {name s id : Text}

/-- A pattern that leaves room for the padding admits the canonical spelling of what it admits. -/
theorem admits_of_canonicalId (h : p.admits s) (hid : canonicalId s = some id)
    (hleast : p.least ≤ idWidth) (hmost : idWidth ≤ p.most) : p.admits id := by
  obtain ⟨digits, hdigits, hhex, -, hlength⟩ := HexPattern.exists_lower_trim h
  obtain ⟨-, rfl⟩ := canonicalId_eq_some_iff.mp hid
  have hpadded : (s.trim.lower).padLeft '0' idWidth =
      Text.ofChars (List.replicate (idWidth - digits.length) '0' ++ digits) := by
    rw [hdigits, Text.padLeft_ofChars]
  rw [hpadded]
  apply HexPattern.admits_ofChars
  · rw [List.forall_mem_append]
    refine ⟨fun c hc => ?_, hhex⟩
    rw [List.eq_of_mem_replicate hc]
    rfl
  · rw [List.length_append, List.length_replicate]
    omega
  · rw [List.length_append, List.length_replicate]
    omega

theorem passes_id {types : List ValueType} (hstring : .string ∈ types)
    (htypes : types ⊆ [.string, .null])
    (h : ∀ v, Value.field? fields name = some v → Passes [.type types, .pattern p] v)
    (hid : normalizeId (fieldOf fields name) = some id) (hleast : p.least ≤ idWidth)
    (hmost : idWidth ≤ p.most) : Passes [.type types, .pattern p] (.text id) := by
  have hne : fieldOf fields name ≠ .null := by
    intro hnull
    rw [hnull] at hid
    cases hid
  obtain ⟨htype, hpattern⟩ := passes_cons.mp (passes_fieldOf h hne)
  obtain ⟨type, hmem, hholds⟩ := check_type.mp htype
  rcases List.mem_pair.mp (htypes hmem) with rfl | rfl
  · obtain ⟨s, hs⟩ := exists_text_of_holds hholds
    rw [hs] at hpattern hid
    have hadmits : p.admits s := check_pattern.mp (hpattern.keyword (.head _))
    have hwritten : p.admits id := admits_of_canonicalId hadmits hid hleast hmost
    exact passes_cons.mpr ⟨check_type.mpr ⟨.string, hstring, rfl⟩,
      passes_cons.mpr ⟨check_pattern.mpr hwritten, passes_nil⟩⟩
  · exact absurd (eq_null_of_holds hholds) hne

end

/-! ## Whole numbers -/

section

variable {bounds : List Keyword}

inductive IsBound : Keyword → Prop where
  | least (n : Int) : IsBound (.minimum n)
  | most (n : Int) : IsBound (.maximum n)

/-- A bound does not see whether a whole number is given as a double. -/
theorem IsBound.check_whole {keyword : Keyword} {x : Scalar} {n : Int} (hbound : IsBound keyword)
    (hexact : x.exact.value? = some (n : Rat)) (h : check keyword (.number x) = []) :
    check keyword (.whole n) = [] := by
  cases hbound with
  | least m =>
      rw [check_minimum, lt_eq_false_iff hexact rfl] at h
      exact check_minimum.mpr ((lt_eq_false_iff rfl rfl).mpr h)
  | most m =>
      rw [check_maximum, lt_eq_false_iff rfl hexact] at h
      exact check_maximum.mpr ((lt_eq_false_iff rfl rfl).mpr h)

theorem IsGivenInteger.passes {v? : Option Value} {n? : Option Int} (hgiven : IsGivenInteger v? n?)
    (hbounds : ∀ keyword ∈ bounds, IsBound keyword)
    (h : ∀ v, v? = some v → Passes (.type [.integer] :: bounds) v) :
    ∀ n, n? = some n → Passes (.type [.integer] :: bounds) (.whole n) := by
  rintro n rfl
  cases hgiven with
  | number hexact =>
      have hgiven := (passes_cons.mp (h _ rfl)).2
      refine passes_cons.mpr ⟨rfl, passes_iff.mpr fun keyword hmem => ?_⟩
      exact (hbounds keyword hmem).check_whole hexact (hgiven.keyword hmem)

end

/-! ## Endpoints -/

section

variable {parts : List (Text × Value)} {name : Text} {schema : List Keyword}

theorem passes_text (s : Text) : Passes textSchema (.text s) := rfl

theorem field?_eq_none_of_plain (hplain : ∀ part ∈ parts, part.1 ∈ endpointNames)
    (hname : name ∉ endpointNames) : Value.field? parts name = none := by
  rw [← Option.not_isSome_iff_eq_none, Value.field?, KeyedList.isSome_lookup_iff, List.mem_map]
  rintro ⟨part, hmem, rfl⟩
  exact hname (hplain part hmem)

theorem firstPresent_cases {a b : Value} (h : (firstPresent a b .null).isTruthy) :
    firstPresent a b .null = a ∨ firstPresent a b .null = b := by
  rw [firstPresent] at h ⊢
  split
  · exact .inl rfl
  · rename_i ha
    rw [if_neg ha] at h
    split
    · exact .inr rfl
    · rename_i hb
      rw [if_neg hb] at h
      cases h

theorem readEndpoint_parts {e : Endpoint} (h : readEndpoint (.object parts) = .ok (some e)) :
    e.ip = firstPresent (fieldOf parts "ipv4") (fieldOf parts "ipv6") (fieldOf parts "ip") ∧
      ∃ port, readIntegerField parts "port" = .ok port ∧ e.port = port.filter (· != 0) := by
  unfold readEndpoint at h
  split at h
  · cases h
  · obtain ⟨port, hport, he⟩ := bind_eq_ok_iff.mp h
    obtain rfl := Option.some.inj (Except.ok.inj he)
    exact ⟨rfl, port, hport, rfl⟩

theorem passes_toJson_endpoint {e : Endpoint} (hpasses : Passes endpointSchema (.object parts))
    (hplain : ∀ part ∈ parts, part.1 ∈ endpointNames)
    (hread : readEndpoint (.object parts) = .ok (some e)) : Passes endpointSchema e.toJson := by
  have hpart {name : String} {partSchema : List Keyword}
      (hname : (propertySchemas endpointSchema).lookup name = some partSchema) (v : Value)
      (hv : Value.field? parts name = some v) : Passes partSchema v := hpasses.field hname hv
  obtain ⟨hip, port, hport, heport⟩ := readEndpoint_parts hread
  obtain ⟨port', hport', hgiven⟩ := exists_readIntegerField parts "port"
    fun v hv => (hpart rfl v hv).holds
  obtain rfl := Except.ok.inj (hport.symm.trans hport')
  have hother : fieldOf parts "ip" = .null :=
    fieldOf_of_none (field?_eq_none_of_plain hplain (by decide +kernel))
  rw [hother] at hip
  rw [toJson_endpoint]
  apply passes_cons.mpr ⟨rfl, passes_cons.mpr ⟨check_presentFields (nodup_endpointTable e) ?_,
    passes_nil⟩⟩
  simp only [List.forall_mem_cons]
  refine ⟨fun v hv => ?serviceName, fun v hv => ?ipv4, fun v hv => ?ipv6, fun v hv => ?port,
    by simp⟩
  case serviceName =>
    obtain ⟨name, -, rfl⟩ := Option.map_eq_some_iff.mp (Option.some.inj hv)
    exact passes_text name
  case ipv4 =>
    obtain ⟨htruthy, heq⟩ := Option.ite_none_right_eq_some.mp (Option.some.inj hv)
    obtain rfl := Option.some.inj heq
    rw [hip] at htruthy ⊢
    rcases firstPresent_cases htruthy with hfirst | hsecond
    · rw [hfirst] at htruthy ⊢
      exact passes_of_isTruthy (hpart rfl) htruthy
    · rw [hsecond] at htruthy ⊢
      exact passes_of_isTruthy (hpart rfl) htruthy
  case ipv6 => cases (hv : none = some (some v))
  case port =>
    obtain ⟨n, hn, rfl⟩ := Option.map_eq_some_iff.mp (Option.some.inj hv)
    rw [heport, Option.filter_filter, Option.filter_eq_some_iff] at hn
    apply hgiven.passes ?_ (hpart rfl) n hn.1
    simp only [List.forall_mem_cons]
    exact ⟨.least 0, .most 65535, by simp⟩

theorem passes_written_endpoint {e : Endpoint}
    (hpasses : ∀ v, Value.field? parts name = some v → Passes endpointSchema v)
    (hplain : ∀ part ∈ fieldsOf (fieldOf parts name), part.1 ∈ endpointNames)
    (hread : readEndpoint (fieldOf parts name) = .ok (some e)) :
    Passes endpointSchema e.toJson := by
  have hne : fieldOf parts name ≠ .null := by
    intro hnull
    rw [hnull] at hread
    cases hread
  have hgiven := passes_fieldOf hpasses hne
  obtain ⟨fields, hfields⟩ := exists_fields_of_passes hgiven
  rw [hfields] at hgiven hplain hread
  exact passes_toJson_endpoint hgiven hplain hread

end

/-! ## The other fields -/

theorem passes_kind {kind : Kind} (h : kind ≠ .none) :
    Passes [.oneOf ["CLIENT", "SERVER", "PRODUCER", "CONSUMER"]] (.text kind.name) := by
  refine passes_cons.mpr ⟨check_oneOf.mpr ⟨kind.name, ?_, rfl⟩, passes_nil⟩
  cases kind with
  | none => exact absurd rfl h
  | _ => decide

theorem passes_annotation (a : Annotation) : Passes annotationSchema a.toJson := by
  apply passes_cons.mpr ⟨rfl, passes_cons.mpr ⟨?_, passes_cons.mpr ⟨?_, passes_nil⟩⟩⟩
  · rfl
  · rfl

theorem passes_annotations (annotations : List Annotation) :
    Passes [.type [.array], .items annotationSchema] (.list (annotations.map (·.toJson))) := by
  refine passes_cons.mpr ⟨rfl, passes_cons.mpr ⟨check_items.mpr ?_, passes_nil⟩⟩
  exact List.forall_mem_map.mpr fun a _ => passes_annotation a

theorem passes_tags (tags : List (Text × Text)) :
    Passes [.type [.object], .otherProperties textSchema]
      (.object (tags.map fun tag => (tag.1, .text tag.2))) := by
  refine passes_cons.mpr ⟨rfl, passes_cons.mpr ⟨check_otherProperties.mpr ?_, passes_nil⟩⟩
  exact List.forall_mem_map.mpr fun tag _ => passes_text tag.2

/-! ## Whole spans -/

theorem check_required_toFields (s : Span) :
    check (.required ["traceId", "id"]) (.object s.toFields) = [] := by
  have hpresent {name : Text} {v : Value} (h : (spanTable s).lookup name = some (some v)) :
      (Value.field? s.toFields name).isSome := by
    rw [toFields_eq, field?_presentFields (nodup_spanTable s) (KeyedList.mem_of_lookup h)]
    rfl
  rw [check_required, List.forall_mem_cons, List.forall_mem_singleton]
  exact ⟨hpresent rfl, hpresent rfl⟩

section

variable {fields : List (Text × Value)} {span : Span}

theorem passes_toFields (hpasses : Passes spanSchema (.object fields))
    (hplain : ∀ part ∈ endpointFields (.object fields), part.1 ∈ endpointNames)
    (hreading : IsReading fields span) (hgiven : IsGiven fields span) :
    Passes spanSchema (.object span.toFields) := by
  have hfield {name : String} {fieldSchema : List Keyword}
      (hname : (propertySchemas spanSchema).lookup name = some fieldSchema) (v : Value)
      (hv : Value.field? fields name = some v) : Passes fieldSchema v := hpasses.field hname hv
  have hleast : ∀ keyword ∈ [Keyword.minimum 0], IsBound keyword :=
    List.forall_mem_singleton.mpr (.least 0)
  refine passes_cons.mpr ⟨rfl, passes_cons.mpr ⟨check_required_toFields span, passes_cons.mpr
    ⟨?_, passes_nil⟩⟩⟩
  -- Each field of the schema is compared with what the writer puts under its name.
  rw [toFields_eq]
  apply check_presentFields (nodup_spanTable span)
  simp only [List.forall_mem_cons]
  refine ⟨fun v hv => ?traceId, fun v hv => ?id, fun v hv => ?parentId, fun v hv => ?name,
    fun v hv => ?kind, fun v hv => ?timestamp, fun v hv => ?duration, fun v hv => ?debug,
    fun v hv => ?shared, fun v hv => ?localEndpoint, fun v hv => ?remoteEndpoint,
    fun v hv => ?annotations, fun v hv => ?tags, by simp⟩
  case traceId =>
    obtain rfl := Option.some.inj (Option.some.inj hv)
    exact passes_id (by decide) (by decide) (hfield rfl) hreading.traceId (by decide) (by decide)
  case id =>
    obtain rfl := Option.some.inj (Option.some.inj hv)
    exact passes_id (by decide) (by decide) (hfield rfl) hreading.id (by decide) (by decide)
  case parentId =>
    obtain ⟨parent, hparent, rfl⟩ := Option.map_eq_some_iff.mp (Option.some.inj hv)
    rw [declaredParent?, hreading.parentId, Option.filter_filter,
      Option.filter_eq_some_iff] at hparent
    exact passes_id (by decide) (by decide) (hfield rfl) hparent.1 (by decide) (by decide)
  case name =>
    obtain ⟨htruthy, heq⟩ := Option.ite_none_right_eq_some.mp (Option.some.inj hv)
    obtain rfl := Option.some.inj heq
    rw [hreading.name] at htruthy ⊢
    exact passes_of_isTruthy (hfield rfl) htruthy
  case kind =>
    obtain ⟨hkind, heq⟩ := Option.ite_none_left_eq_some.mp (Option.some.inj hv)
    obtain rfl := Option.some.inj heq
    exact passes_kind hkind
  case timestamp =>
    obtain ⟨n, hn, rfl⟩ := Option.map_eq_some_iff.mp (Option.some.inj hv)
    exact hgiven.timestamp.passes hleast (hfield rfl) n hn
  case duration =>
    obtain ⟨n, hn, rfl⟩ := Option.map_eq_some_iff.mp (Option.some.inj hv)
    exact hgiven.duration.passes hleast (hfield rfl) n hn
  case debug => cases (hv : none = some (some v))
  case shared =>
    obtain ⟨-, heq⟩ := Option.ite_none_right_eq_some.mp (Option.some.inj hv)
    obtain rfl := Option.some.inj heq
    rfl
  case localEndpoint =>
    obtain ⟨e, he, rfl⟩ := Option.map_eq_some_iff.mp (Option.some.inj hv)
    apply passes_written_endpoint (hfield rfl) ?_ (he ▸ hreading.localEndpoint)
    exact fun part hpart => hplain part (List.mem_append_left _ hpart)
  case remoteEndpoint =>
    obtain ⟨e, he, rfl⟩ := Option.map_eq_some_iff.mp (Option.some.inj hv)
    apply passes_written_endpoint (hfield rfl) ?_ (he ▸ hreading.remoteEndpoint)
    exact fun part hpart => hplain part (List.mem_append_right _ hpart)
  case annotations =>
    obtain ⟨-, heq⟩ := Option.ite_none_left_eq_some.mp (Option.some.inj hv)
    obtain rfl := Option.some.inj heq
    exact passes_annotations span.annotations
  case tags =>
    obtain ⟨-, heq⟩ := Option.ite_none_left_eq_some.mp (Option.some.inj hv)
    obtain rfl := Option.some.inj heq
    exact passes_tags span.tags

end

theorem isValid_ofSpan_iff {v : Value} : (Validation.ofSpan v).isValid ↔ Passes spanSchema v :=
  List.isEmpty_iff.trans List.map_eq_nil_iff

/-- A span that the schema admits, and whose endpoints have only fields that the schema names, is
read and written as a span that the schema admits. -/
theorem isValid_toJson {v : Value} (hvalid : (Validation.ofSpan v).isValid)
    (hplain : ∀ part ∈ endpointFields v, part.1 ∈ endpointNames) :
    ∃ span, ofJson v = .ok span ∧ (Validation.ofSpan span.toJson).isValid := by
  rw [isValid_ofSpan_iff] at hvalid
  obtain ⟨fields, rfl⟩ := exists_fields_of_passes hvalid
  obtain ⟨span, hspan, hgiven⟩ := exists_given_of_passes hvalid
  refine ⟨span, hspan, isValid_ofSpan_iff.mpr ?_⟩
  exact passes_toFields hvalid hplain (ofFields_eq_ok_iff.mp hspan) hgiven

/-- Ids with a line feed behind them, whole numbers that are given as doubles, a port zero, and an
address of the sixth version. -/
theorem isValid_toJson_of_corners : ∃ (v : Value) (span : Span),
    (Validation.ofSpan v).isValid ∧ ofJson v = .ok span ∧
      (Validation.ofSpan span.toJson).isValid := by
  have hvalid : (Validation.ofSpan (.object [
      ("traceId", .text "ABC\n"), ("id", .text "a"), ("parentId", .text "\n"), ("name", .text ""),
      ("timestamp", .number (.real (.finite 1))), ("duration", .number (.real .negativeZero)),
      ("localEndpoint", .object [("ipv6", .text "::1"), ("port", .number (.real (.finite 65535)))]),
      ("remoteEndpoint", .object [("serviceName", .text ""), ("port", .whole 0)]),
      ("tags", .object [("k", .text "v")]), ("shared", .bool false)])).isValid := by
    decide +kernel
  obtain ⟨span, hspan, hwritten⟩ := isValid_toJson hvalid (by decide +kernel)
  exact ⟨_, span, hvalid, hspan, hwritten⟩

-- The schema lets a field of another name hold anything, and the reader takes an address from it.
example : let v : Value := .object [("traceId", .text "1"), ("id", .text "1"),
      ("localEndpoint", .object [("ip", .whole 5)])]
    (Validation.ofSpan v).isValid ∧
      ((ofJson v).toOption.map fun span => (Validation.ofSpan span.toJson).isValid) =
        some false := by
  decide +kernel

end Span

end TraceExplorer
