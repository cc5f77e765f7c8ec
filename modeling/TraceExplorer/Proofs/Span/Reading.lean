import TraceExplorer.Proofs.Success
import TraceExplorer.Span.Reader

/-!
# How a span is read

A span is read from the fields of an object if each part of it is read from its own field.
-/

namespace TraceExplorer.Span

open Json (Value)

section

variable {fields : List (Text × Value)} {name : Text} {v : Value}

theorem fieldOf_of_some (h : Value.field? fields name = some v) : fieldOf fields name = v := by
  rw [fieldOf, h]
  rfl

theorem fieldOf_of_none (h : Value.field? fields name = none) : fieldOf fields name = .null := by
  rw [fieldOf, h]
  rfl

theorem readIntegerField_null {name : String} (h : fieldOf fields name = .null) :
    readIntegerField fields name = .ok none := by
  rw [readIntegerField, h]

theorem readIntegerField_whole {name : String} {n : Int} (h : fieldOf fields name = .whole n) :
    readIntegerField fields name = .ok (some n) := by
  rw [readIntegerField, h]

/-- A field is read if it is absent or its value can be read. -/
theorem exists_read {α : Type} {read : Value → Except SpanFault α}
    (hnull : ∃ a, read .null = .ok a)
    (h : ∀ v, Value.field? fields name = some v → ∃ a, read v = .ok a) :
    ∃ a, read (fieldOf fields name) = .ok a := by
  cases hfield : Value.field? fields name with
  | none =>
      rw [fieldOf_of_none hfield]
      exact hnull
  | some v =>
      rw [fieldOf_of_some hfield]
      exact h v hfield

theorem readKind_name (kind : Kind) : readKind (.text kind.name) = .ok kind := by
  cases kind <;> rfl

end

/-! ## Whole spans -/

/-- Every part of the span is read from its own field. -/
structure IsReading (fields : List (Text × Value)) (span : Span) : Prop where
  id : normalizeId (fieldOf fields "id") = some span.id
  traceId : normalizeId (fieldOf fields "traceId") = some span.traceId
  kind : readKind (fieldOf fields "kind") = .ok span.kind
  duration : readDuration fields = .ok span.duration
  annotations : readAnnotations (fieldOf fields "annotations") = .ok span.annotations
  tags : readTags (fieldOf fields "tags") = .ok span.tags
  parentId : span.parentId = (normalizeId (fieldOf fields "parentId")).filter (· != span.id)
  timestamp : readIntegerField fields "timestamp" = .ok span.timestamp
  localEndpoint : readEndpoint (fieldOf fields "localEndpoint") = .ok span.localEndpoint
  remoteEndpoint : readEndpoint (fieldOf fields "remoteEndpoint") = .ok span.remoteEndpoint
  name : span.name = fieldOf fields "name"
  shared : span.shared = (fieldOf fields "shared").isTruthy

theorem ofFields_eq_ok_iff {fields : List (Text × Value)} {span : Span} :
    ofFields fields = .ok span ↔ IsReading fields span := by
  rw [ofFields]
  constructor
  · intro h
    split at h
    · rename_i id traceId hid htraceId
      simp only [bind_eq_ok_iff] at h
      obtain ⟨kind, hkind, duration, hduration, annotations, hannotations, tags, htags,
        timestamp, htimestamp, near, hnear, far, hfar, hspan⟩ := h
      obtain rfl := Except.ok.inj hspan
      exact ⟨hid, htraceId, hkind, hduration, hannotations, htags, rfl, htimestamp, hnear, hfar,
        rfl, rfl⟩
    · cases h
  · intro h
    simp only [h.id, h.traceId, h.kind, h.duration, h.annotations, h.tags, h.timestamp,
      h.localEndpoint, h.remoteEndpoint, ← h.parentId, ← h.name, ← h.shared, bind, Except.bind]
    rfl

end TraceExplorer.Span
