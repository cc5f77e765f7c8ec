import TraceExplorer.Proofs.Schema.HexPattern
import TraceExplorer.Proofs.Schema.Passing
import TraceExplorer.Proofs.Span.Id
import TraceExplorer.Proofs.Span.Reading
import TraceExplorer.Schema.Validation

/-!
# Spans that the schema admits

The schema and the reader of spans judge a value on their own. Whatever the schema admits is read
without a fault, and what is read is what the fields give.
-/

namespace TraceExplorer.Span

open Json (Value)
open Number (Scalar)
open Schema

/-! ## What is given -/

inductive IsGivenKind : Option Value → Kind → Prop where
  | absent : IsGivenKind none .none
  | named (kind : Kind) : IsGivenKind (some (.text kind.name)) kind

/-- An optional field gives this whole number, perhaps as a double. -/
inductive IsGivenInteger : Option Value → Option Int → Prop where
  | absent : IsGivenInteger none none
  | number {x : Scalar} {n : Int} (exact : x.exact.value? = some (n : Rat)) :
      IsGivenInteger (some (.number x)) (some n)

theorem IsGivenInteger.eq_some {x : Scalar} {n : Int} {read : Option Int}
    (h : IsGivenInteger (some (.number x)) read) (hexact : x.exact.value? = some (n : Rat)) :
    read = some n := by
  cases h with
  | number hread =>
      exact congrArg some (Rat.intCast_inj.mp (Option.some.inj (hread.symm.trans hexact)))

/-- The ids, the kind and the times of a span are those that the fields of an object give. An empty
parent is none, and so is a span that is its own parent. -/
structure IsGiven (fields : List (Text × Value)) (span : Span) : Prop where
  traceId : normalizeId (fieldOf fields "traceId") = some span.traceId
  id : normalizeId (fieldOf fields "id") = some span.id
  parentId : ∀ parent, span.parentId = some parent ↔
    normalizeId (fieldOf fields "parentId") = some parent ∧ parent ≠ span.id
  kind : IsGivenKind (Value.field? fields "kind") span.kind
  timestamp : IsGivenInteger (Value.field? fields "timestamp") span.timestamp
  duration : IsGivenInteger (Value.field? fields "duration") span.duration

section

variable {fields : List (Text × Value)} {name : String} {v : Value}

/-! ## Ids -/

/-- A text of hexadecimal digits, of which there is one at least, names an id. -/
theorem exists_id_of_admits {p : HexPattern} {s : Text} (h : p.admits s) (hleast : 0 < p.least) :
    ∃ id, canonicalId s = some id := by
  obtain ⟨digits, hs, hhex, hlength, -⟩ := HexPattern.admits_iff.mp h
  obtain ⟨c, hc⟩ := List.exists_mem_of_length_pos (Nat.lt_of_lt_of_le hleast hlength)
  have hmem : .char c ∈ s.points := by
    rcases hs with rfl | rfl
    · exact List.mem_map_of_mem hc
    · exact List.mem_map_of_mem (List.mem_append_left _ hc)
  exact exists_canonicalId ⟨.char c, hmem, HexPattern.isBlank_of_isHex (hhex c hc)⟩

theorem exists_id_of_passes {p : HexPattern}
    (hpasses : Passes [.type [.string], .pattern p] v) (hleast : 0 < p.least) :
    ∃ id, normalizeId v = some id := by
  obtain ⟨s, rfl⟩ := exists_text_of_holds hpasses.holds
  exact exists_id_of_admits (check_pattern.mp (hpasses.keyword (.tail _ (.head _)))) hleast

/-! ## Whole numbers -/

theorem truncate?_of_exact {x : Number.Double} {n : Int} (h : x.value? = some (n : Rat)) :
    x.truncate? = some n := by
  rw [Number.Double.truncate?, h, Option.map_some]
  split
  · rw [← Rat.intCast_neg, Rat.floor_intCast, neg_neg]
  · rw [Rat.floor_intCast]

theorem readIntegerField_of_exact {x : Scalar} {n : Int}
    (hfield : fieldOf fields name = .number x) (hexact : x.exact.value? = some (n : Rat)) :
    readIntegerField fields name = .ok (some n) := by
  rw [readIntegerField, hfield]
  cases x with
  | whole m =>
      have hnum : (m : Rat) = n := Option.some.inj hexact
      have heq : m = n := by exact_mod_cast hnum
      rw [heq]
  | real x =>
      have htruncate := truncate?_of_exact (x := x) hexact
      cases x with
      | infinite negative => cases hexact
      | _ => simp only [htruncate]

/-- An optional field with a whole number is read, as the number that it gives. -/
theorem exists_readIntegerField (fields : List (Text × Value)) (name : String)
    (h : ∀ v, Value.field? fields name = some v → ValueType.integer.holds v) :
    ∃ n, readIntegerField fields name = .ok n ∧ IsGivenInteger (Value.field? fields name) n := by
  cases hfield : Value.field? fields name with
  | none =>
      refine ⟨none, ?_, .absent⟩
      rw [readIntegerField, fieldOf_of_none hfield]
  | some v =>
      obtain ⟨x, n, rfl, hexact⟩ := exists_integer_of_holds (h v hfield)
      exact ⟨some n, readIntegerField_of_exact (fieldOf_of_some hfield) hexact, .number hexact⟩

theorem lt_eq_false_iff {x y : Scalar} {m n : Int} (hx : x.exact.value? = some (m : Rat))
    (hy : y.exact.value? = some (n : Rat)) : x.lt y = false ↔ n ≤ m := by
  have hlt : x.lt y = decide ((m : Rat) < n) := by
    rw [Scalar.lt]
    generalize x.exact = a at hx
    generalize y.exact = b at hy
    cases a <;> cases b <;> simp_all [Number.Double.lt, Number.Double.value?]
  rw [hlt, decide_eq_false_iff_not, Rat.not_lt, Rat.intCast_le_intCast]

/-- A duration that is not negative is read. -/
theorem exists_readDuration
    (h : ∀ v, Value.field? fields "duration" = some v → Passes [.type [.integer], .minimum 0] v) :
    ∃ n, readDuration fields = .ok n ∧ IsGivenInteger (Value.field? fields "duration") n := by
  obtain ⟨n?, hn, hgiven⟩ := exists_readIntegerField fields "duration"
    fun v hv => (h v hv).holds
  refine ⟨n?, ?_, hgiven⟩
  rw [readDuration, bind_eq_ok_iff]
  refine ⟨n?, hn, ?_⟩
  cases hfield : Value.field? fields "duration" with
  | none =>
      rw [hfield] at hgiven
      cases hgiven
      rfl
  | some v =>
      rw [hfield] at hgiven
      cases hgiven with
      | @number x n hexact =>
          have hminimum := check_minimum.mp ((h _ hfield).keyword (.tail _ (.head _)))
          have hnonneg : 0 ≤ n := (lt_eq_false_iff hexact rfl).mp hminimum
          exact if_neg (by omega)

/-! ## The other fields -/

theorem exists_readKind
    (h : ∀ v, Value.field? fields "kind" = some v →
      ∃ name ∈ ["CLIENT", "SERVER", "PRODUCER", "CONSUMER"], v = .text (name : String)) :
    ∃ kind, readKind (fieldOf fields "kind") = .ok kind ∧
      IsGivenKind (Value.field? fields "kind") kind := by
  cases hfield : Value.field? fields "kind" with
  | none =>
      rw [fieldOf_of_none hfield]
      exact ⟨.none, rfl, .absent⟩
  | some v =>
      obtain ⟨name, hname, rfl⟩ := h v hfield
      obtain ⟨kind, rfl⟩ : ∃ kind : Kind, kind.name = name := by
        simp only [List.mem_cons, List.not_mem_nil, or_false] at hname
        rcases hname with rfl | rfl | rfl | rfl
        exacts [⟨.client, rfl⟩, ⟨.server, rfl⟩, ⟨.producer, rfl⟩, ⟨.consumer, rfl⟩]
      rw [fieldOf_of_some hfield]
      exact ⟨kind, readKind_name kind, .named kind⟩

theorem exists_fields_of_passes {rest : List Keyword}
    (h : Passes (.type [.object] :: rest) v) : ∃ fields, v = .object fields :=
  exists_fields_of_holds h.holds

theorem exists_readEndpoint (h : Passes endpointSchema v) :
    ∃ endpoint, readEndpoint v = .ok endpoint := by
  obtain ⟨parts, rfl⟩ := exists_fields_of_passes h
  rw [readEndpoint]
  split
  · exact ⟨none, rfl⟩
  · obtain ⟨port, hport, -⟩ := exists_readIntegerField parts "port"
      fun v hv => (h.field rfl hv).holds
    exact ⟨_, bind_eq_ok_iff.mpr ⟨port, hport, rfl⟩⟩

theorem exists_readAnnotation (h : Passes annotationSchema v) :
    ∃ annotation, readAnnotation v = .ok annotation := by
  obtain ⟨parts, rfl⟩ := exists_fields_of_passes h
  obtain ⟨timestamp, htimestamp, -⟩ := exists_readIntegerField parts "timestamp"
    fun v hv => (h.field rfl hv).holds
  exact ⟨_, bind_eq_ok_iff.mpr ⟨timestamp, htimestamp, rfl⟩⟩

theorem exists_readAnnotations (h : Passes [.type [.array], .items annotationSchema] v) :
    ∃ annotations, readAnnotations v = .ok annotations := by
  obtain ⟨items, rfl⟩ := exists_items_of_holds h.holds
  have hitems := check_items.mp (h.keyword (.tail _ (.head _)))
  rw [readAnnotations]
  split
  · exact ⟨[], rfl⟩
  · exact exists_mapM_iff.mpr fun item hitem => exists_readAnnotation (hitems item hitem)

theorem exists_readTags (h : Passes [.type [.object], .otherProperties textSchema] v) :
    ∃ tags, readTags v = .ok tags := by
  obtain ⟨parts, rfl⟩ := exists_fields_of_passes h
  rw [readTags]
  split
  · exact ⟨[], rfl⟩
  · exact ⟨_, rfl⟩

/-! ## Spans -/

theorem exists_given_of_passes (h : Passes spanSchema (.object fields)) :
    ∃ span, ofFields fields = .ok span ∧ IsGiven fields span := by
  have hfield {name : String} {fieldSchema : List Keyword}
      (hname : (propertySchemas spanSchema).lookup name = some fieldSchema) {v : Value}
      (hv : Value.field? fields name = some v) : Passes fieldSchema v := h.field hname hv
  have hrequired := check_required.mp (h.keyword (.tail _ (.head _)))
  obtain ⟨givenTrace, htrace⟩ := Option.isSome_iff_exists.mp (hrequired "traceId" (.head _))
  obtain ⟨givenId, hid⟩ := Option.isSome_iff_exists.mp (hrequired "id" (.tail _ (.head _)))
  obtain ⟨traceId, htraceId⟩ := exists_id_of_passes (hfield rfl htrace) Nat.one_pos
  obtain ⟨id, hid'⟩ := exists_id_of_passes (hfield rfl hid) Nat.one_pos
  rw [← fieldOf_of_some htrace] at htraceId
  rw [← fieldOf_of_some hid] at hid'
  obtain ⟨kind, hkind, hgivenKind⟩ := exists_readKind fun v hv =>
    check_oneOf.mp ((hfield rfl hv).keyword (.head _))
  obtain ⟨duration, hduration, hgivenDuration⟩ := exists_readDuration fun v hv => hfield rfl hv
  obtain ⟨timestamp, htimestamp, hgivenTimestamp⟩ :=
    exists_readIntegerField fields "timestamp"
      fun v hv => (hfield rfl hv).holds
  obtain ⟨annotations, hannotations⟩ :
      ∃ annotations, readAnnotations (fieldOf fields "annotations") = .ok annotations :=
    exists_read ⟨_, rfl⟩ fun v hv => exists_readAnnotations (hfield rfl hv)
  obtain ⟨tags, htags⟩ : ∃ tags, readTags (fieldOf fields "tags") = .ok tags :=
    exists_read ⟨_, rfl⟩ fun v hv => exists_readTags (hfield rfl hv)
  have hendpoint {name : String}
      (hname : (propertySchemas spanSchema).lookup name = some endpointSchema) :
      ∃ endpoint, readEndpoint (fieldOf fields name) = .ok endpoint :=
    exists_read ⟨_, rfl⟩ fun v hv => exists_readEndpoint (hfield hname hv)
  obtain ⟨near, hnear⟩ : ∃ near, readEndpoint (fieldOf fields "localEndpoint") = .ok near :=
    hendpoint rfl
  obtain ⟨far, hfar⟩ : ∃ far, readEndpoint (fieldOf fields "remoteEndpoint") = .ok far :=
    hendpoint rfl
  -- The parent, the name and the sharing are read whatever their fields hold.
  have hreading : IsReading fields {
      traceId, id, kind, duration, annotations, tags, timestamp
      parentId := (normalizeId (fieldOf fields "parentId")).filter (· != id)
      localEndpoint := near
      remoteEndpoint := far
      name := fieldOf fields "name"
      shared := (fieldOf fields "shared").isTruthy } :=
    ⟨hid', htraceId, hkind, hduration, hannotations, htags, rfl, htimestamp, hnear, hfar, rfl, rfl⟩
  refine ⟨_, ofFields_eq_ok_iff.mpr hreading,
    htraceId, hid', fun parent => ?_, hgivenKind, hgivenTimestamp, hgivenDuration⟩
  rw [Option.filter_eq_some_iff]
  simp

end

/-- A value that violates nothing of the schema is read without a fault, and its ids, its kind and
its times are the given ones. -/
theorem ofJson_of_isValid {v : Value} (h : (Validation.ofSpan v).isValid) :
    ∃ fields span, v = .object fields ∧ ofJson v = .ok span ∧ IsGiven fields span := by
  have hpasses : Passes spanSchema v := by
    have hnone := List.isEmpty_iff.mp h
    exact List.map_eq_nil_iff.mp hnone
  obtain ⟨fields, rfl⟩ := exists_fields_of_passes hpasses
  obtain ⟨span, hspan, hgiven⟩ := exists_given_of_passes hpasses
  exact ⟨fields, span, rfl, hspan, hgiven⟩

/-- A trace id that ends in a line feed, a parent that is the span itself in another spelling, and a
timestamp that is given as a double. -/
theorem ofJson_of_isValid_of_corners :
    ∃ v : Value, (Validation.ofSpan v).isValid ∧ ∃ span, ofJson v = .ok span ∧
      span.traceId = "0000000000000abc" ∧ span.parentId = none ∧ span.timestamp = some 1 := by
  have hvalid : (Validation.ofSpan (.object [
      ("traceId", .text "ABC\n"), ("id", .text "a"), ("parentId", .text "0A"),
      ("kind", .text "CLIENT"), ("timestamp", .number (.real (.finite 1))),
      ("annotations", .list [.object [("timestamp", .whole 2), ("value", .text "x")]])])).isValid :=
    by decide +kernel
  obtain ⟨fields, span, hfields, hspan, hgiven⟩ := ofJson_of_isValid hvalid
  obtain rfl := Value.object.inj hfields
  refine ⟨_, hvalid, span, hspan, ?_, ?_, ?_⟩
  · exact Option.some.inj (hgiven.traceId.symm.trans (by decide +kernel))
  · have hid : span.id = "000000000000000a" :=
      Option.some.inj (hgiven.id.symm.trans (by decide +kernel))
    rw [Option.eq_none_iff_forall_ne_some]
    intro parent hparent
    obtain ⟨hnormal, hne⟩ := (hgiven.parentId parent).mp hparent
    have hsame : parent = "000000000000000a" :=
      Option.some.inj (hnormal.symm.trans (by decide +kernel))
    exact hne (hsame.trans hid.symm)
  · exact hgiven.timestamp.eq_some (x := .real (.finite 1)) rfl

end TraceExplorer.Span
