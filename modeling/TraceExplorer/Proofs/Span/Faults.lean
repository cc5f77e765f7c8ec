import TraceExplorer.Proofs.Span.Reading

/-!
# Values that are no spans

A value that is no span is refused with a report that says why, unless the first part of it that
cannot be read has a fault for which there is no report. These faults are infinite numbers and
single values in the place of objects or lists.
-/

namespace TraceExplorer.Span

open Json (Value)

inductive Part where
  | kind
  | duration
  | annotations
  | tags
  | timestamp
  | localEndpoint
  | remoteEndpoint
  deriving DecidableEq, Repr

/-- The parts in the order in which they are read. -/
def Part.all : List Part :=
  [kind, duration, annotations, tags, timestamp, localEndpoint, remoteEndpoint]

def Part.fault? (fields : List (Text × Value)) : Part → Option SpanFault
  | kind => errorOf? (readKind (fieldOf fields "kind"))
  | duration => errorOf? (readDuration fields)
  | annotations => errorOf? (readAnnotations (fieldOf fields "annotations"))
  | tags => errorOf? (readTags (fieldOf fields "tags"))
  | timestamp => errorOf? (readIntegerField fields "timestamp")
  | localEndpoint => errorOf? (readEndpoint (fieldOf fields "localEndpoint"))
  | remoteEndpoint => errorOf? (readEndpoint (fieldOf fields "remoteEndpoint"))

/-! ## Faults without a report -/

def HasInfinite (fields : List (Text × Value)) (name : String) : Prop :=
  ∃ negative, fieldOf fields name = .number (.real (.infinite negative))

def LacksFields (v : Value) : Prop := v.isTruthy ∧ ∀ entries, v ≠ .object entries

inductive EndpointEscapes (v : Value) : Failure → Prop where
  | noFields (h : LacksFields v) : EndpointEscapes v .noFields
  | port {entries : List (Text × Value)} (hv : v = .object entries)
      (h : HasInfinite entries "port") : EndpointEscapes v (.arithmetic .overflow)

/-- How annotations fail without a report. The first that cannot be read decides. -/
inductive AnnotationsEscape (v : Value) : Failure → Prop where
  | single (h : v = .bool true ∨ ∃ x, v = .number x ∧ x.isZero = false) :
      AnnotationsEscape v .notIterable
  | timestamp {before after : List Value} {entries : List (Text × Value)}
      (hv : v = .list (before ++ .object entries :: after))
      (hbefore : ∀ a ∈ before, ∃ annotation, readAnnotation a = .ok annotation)
      (h : HasInfinite entries "timestamp") : AnnotationsEscape v (.arithmetic .overflow)

inductive Part.Escapes (fields : List (Text × Value)) : Part → Failure → Prop where
  | duration (h : HasInfinite fields "duration") : Escapes fields duration (.arithmetic .overflow)
  | annotations {failure : Failure}
      (h : AnnotationsEscape (fieldOf fields "annotations") failure) :
      Escapes fields annotations failure
  | tags (h : LacksFields (fieldOf fields "tags")) : Escapes fields tags .noFields
  | timestamp (h : HasInfinite fields "timestamp") :
      Escapes fields timestamp (.arithmetic .overflow)
  | localEndpoint {failure : Failure}
      (h : EndpointEscapes (fieldOf fields "localEndpoint") failure) :
      Escapes fields localEndpoint failure
  | remoteEndpoint {failure : Failure}
      (h : EndpointEscapes (fieldOf fields "remoteEndpoint") failure) :
      Escapes fields remoteEndpoint failure

/-- A value has the ids of a span, and the first part of it that cannot be read fails without a
report. -/
def Escapes (v : Value) (failure : Failure) : Prop :=
  ∃ fields before part after, v = .object fields ∧
    (normalizeId (fieldOf fields "id")).isSome ∧ (normalizeId (fieldOf fields "traceId")).isSome ∧
    Part.all = before ++ part :: after ∧ (∀ earlier ∈ before, earlier.fault? fields = none) ∧
    part.Escapes fields failure

/-- A computation fails without a report. -/
def FailsSilently {α : Type} (x : Except SpanFault α) (failure : Failure) : Prop :=
  ∃ fault, x = .error fault ∧ fault.message? = none ∧ fault.failure = failure

section

variable {α β : Type} {x : Except SpanFault α} {failure : Failure} {fields : List (Text × Value)}
  {v : Value} {name : String}

@[simp] theorem not_failsSilently_ok (a : α) : ¬ FailsSilently (.ok a) failure := by
  rintro ⟨_, ⟨⟩, -⟩

@[simp] theorem not_failsSilently_pure (a : α) :
    ¬ FailsSilently (pure a : Except SpanFault α) failure :=
  not_failsSilently_ok a

@[simp] theorem failsSilently_error {fault : SpanFault} :
    FailsSilently (.error fault : Except SpanFault α) failure ↔
      fault.message? = none ∧ fault.failure = failure := by
  constructor
  · rintro ⟨_, ⟨⟩, h⟩
    exact h
  · intro h
    exact ⟨fault, rfl, h⟩

theorem failsSilently_bind {f : α → Except SpanFault β} :
    FailsSilently (x >>= f) failure ↔
      FailsSilently x failure ∨ ∃ a, x = .ok a ∧ FailsSilently (f a) failure := by
  cases x with
  | error fault => simp [bind, Except.bind]
  | ok a => simp [bind, Except.bind]

theorem failsSilently_mapM {l : List α} {f : α → Except SpanFault β} :
    FailsSilently (l.mapM f) failure ↔ ∃ before a after, l = before ++ a :: after ∧
      (∀ b ∈ before, ∃ c, f b = .ok c) ∧ FailsSilently (f a) failure := by
  simp only [FailsSilently, mapM_eq_error_iff]
  constructor
  · rintro ⟨fault, ⟨before, a, after, hl, hbefore, ha⟩, hfault⟩
    exact ⟨before, a, after, hl, hbefore, fault, ha, hfault⟩
  · rintro ⟨before, a, after, hl, hbefore, fault, ha, hfault⟩
    exact ⟨fault, ⟨before, a, after, hl, hbefore, ha⟩, hfault⟩

/-! ## Parts -/

theorem failsSilently_readIntegerField :
    FailsSilently (readIntegerField fields name) failure ↔
      HasInfinite fields name ∧ failure = .arithmetic .overflow := by
  rw [readIntegerField, HasInfinite]
  generalize fieldOf fields name = v
  have hrefused : ¬ FailsSilently
      (.error (.notAnInteger name v) : Except SpanFault (Option Int)) failure := by
    simp [SpanFault.message?]
  cases v with
  | null => simp
  | bool b => simp
  | number x =>
      cases x with
      | whole n => simp
      | real x =>
          cases x with
          | infinite negative => simp [SpanFault.message?, SpanFault.failure, eq_comm]
          | finite q => simp [Number.Double.truncate?, Number.Double.value?]
          | negativeZero => simp [Number.Double.truncate?, Number.Double.value?]
          | nan => simpa [Number.Double.truncate?, Number.Double.value?] using hrefused
  | text s =>
      by_cases hempty : s.isEmpty
      · simp [hempty]
      · cases hread : Number.readInteger? s with
        | none => simpa [hempty, hread] using hrefused
        | some n => simp [hempty, hread]
  | list items => simpa using hrefused
  | object entries => simpa using hrefused

theorem failsSilently_readDuration :
    FailsSilently (readDuration fields) failure ↔
      HasInfinite fields "duration" ∧ failure = .arithmetic .overflow := by
  rw [readDuration, failsSilently_bind, failsSilently_readIntegerField]
  refine or_iff_left ?_
  rintro ⟨duration, -, h⟩
  split at h
  · split at h
    · simp [SpanFault.message?] at h
    · exact not_failsSilently_ok _ h
  · exact not_failsSilently_ok _ h

theorem not_failsSilently_readKind : ¬ FailsSilently (readKind v) failure := by
  unfold readKind
  split
  · exact not_failsSilently_ok _
  · split
    · exact not_failsSilently_ok _
    · simp [SpanFault.message?]

theorem failsSilently_readTags :
    FailsSilently (readTags v) failure ↔ LacksFields v ∧ failure = .noFields := by
  unfold readTags LacksFields
  by_cases htruthy : v.isTruthy
  · cases v with
    | object entries => simp [htruthy]
    | _ => simp [htruthy, SpanFault.message?, SpanFault.failure, eq_comm]
  · simp [htruthy]

theorem HasInfinite.isTruthy (h : HasInfinite fields name) : (Value.object fields).isTruthy := by
  obtain ⟨negative, h⟩ := h
  cases fields with
  | nil => cases h
  | cons first rest => rfl

theorem failsSilently_readEndpoint :
    FailsSilently (readEndpoint v) failure ↔ EndpointEscapes v failure := by
  unfold readEndpoint
  constructor
  · intro h
    split at h
    · exact absurd h (not_failsSilently_ok _)
    · rename_i htruthy
      split at h
      · rw [failsSilently_bind, failsSilently_readIntegerField] at h
        rcases h with ⟨hinfinite, rfl⟩ | ⟨_, -, h⟩
        · exact .port rfl hinfinite
        · exact absurd h (not_failsSilently_pure _)
      · rename_i hobject
        obtain ⟨-, rfl⟩ := failsSilently_error.mp h
        exact .noFields ⟨by simpa using htruthy, hobject⟩
  · intro h
    cases h with
    | noFields h =>
        obtain ⟨htruthy, hobject⟩ := h
        rw [if_neg (by simp [htruthy])]
        split
        · exact absurd rfl (hobject _)
        · exact failsSilently_error.mpr ⟨rfl, rfl⟩
    | port hv hinfinite =>
        subst hv
        rw [if_neg (by simp [hinfinite.isTruthy]), failsSilently_bind,
          failsSilently_readIntegerField]
        exact .inl ⟨hinfinite, rfl⟩

theorem failsSilently_readAnnotation :
    FailsSilently (v |> readAnnotation) failure ↔
      ∃ entries, v = .object entries ∧ HasInfinite entries "timestamp" ∧
        failure = .arithmetic .overflow := by
  cases v with
  | object entries =>
      unfold readAnnotation
      rw [failsSilently_bind, failsSilently_readIntegerField]
      simp
  | _ =>
      unfold readAnnotation
      simp [SpanFault.message?]

theorem readAnnotations_of_iterate? {items : List Value} (h : iterate? v = some items) :
    readAnnotations v = items.mapM readAnnotation := by
  unfold readAnnotations
  split
  · rename_i hfalsy
    obtain rfl : items = [] := by
      cases v with
      | list _ => simp_all [iterate?, Value.isTruthy]
      | text s => simp_all [iterate?, Value.isTruthy, Text.isEmpty]
      | object _ => simp_all [iterate?, Value.isTruthy]
      | _ => cases h
    rfl
  · rw [h]

/-- Objects are gone through only in a list. -/
theorem eq_list_of_iterate? {items : List Value} {entries : List (Text × Value)}
    (h : iterate? v = some items) (hmem : .object entries ∈ items) : v = .list items := by
  cases v with
  | list items' => exact congrArg Value.list (Option.some.inj h)
  | text s =>
      obtain rfl := Option.some.inj h
      obtain ⟨_, -, ⟨⟩⟩ := List.mem_map.mp hmem
  | object fields =>
      obtain rfl := Option.some.inj h
      obtain ⟨_, -, ⟨⟩⟩ := List.mem_map.mp hmem
  | _ => cases h

theorem failsSilently_readAnnotations :
    FailsSilently (readAnnotations v) failure ↔ AnnotationsEscape v failure := by
  constructor
  · intro h
    cases hitems : iterate? v with
    | some items =>
        rw [readAnnotations_of_iterate? hitems, failsSilently_mapM] at h
        obtain ⟨before, bad, after, rfl, hbefore, hbad⟩ := h
        obtain ⟨entries, rfl, hinfinite, rfl⟩ := failsSilently_readAnnotation.mp hbad
        -- Texts and objects are gone through as texts, and no text is an annotation.
        have hmem : .object entries ∈ before ++ .object entries :: after := by simp
        exact .timestamp (eq_list_of_iterate? hitems hmem) hbefore hinfinite
    | none =>
        unfold readAnnotations at h
        split at h
        · exact absurd h (not_failsSilently_ok _)
        · rename_i htruthy
          rw [hitems] at h
          obtain ⟨-, rfl⟩ := failsSilently_error.mp h
          refine .single ?_
          cases v with
          | bool b => simp_all [Value.isTruthy]
          | number x => simp_all [Value.isTruthy]
          | null => simp [Value.isTruthy] at htruthy
          | _ => cases hitems
  · intro h
    cases h with
    | single h =>
        have herror : readAnnotations v = .error .annotationsNotIterable := by
          rcases h with rfl | ⟨x, rfl, hx⟩
          · rfl
          · simp [readAnnotations, Value.isTruthy, hx, iterate?]
        exact ⟨_, herror, rfl, rfl⟩
    | timestamp hv hbefore hinfinite =>
        rw [hv, readAnnotations_of_iterate? rfl, failsSilently_mapM]
        exact ⟨_, _, _, rfl, hbefore, failsSilently_readAnnotation.mpr ⟨_, rfl, hinfinite, rfl⟩⟩

theorem Part.escapes_iff {part : Part} :
    part.Escapes fields failure ↔ ∃ fault, part.fault? fields = some fault ∧
      fault.message? = none ∧ fault.failure = failure := by
  have hsilent {α : Type} (x : Except SpanFault α) : (∃ fault, errorOf? x = some fault ∧
      fault.message? = none ∧ fault.failure = failure) ↔ FailsSilently x failure := by
    simp only [errorOf?_eq_some_iff, FailsSilently]
  cases part with
  | kind =>
      refine iff_of_false (fun h => nomatch h) ?_
      rw [fault?, hsilent]
      exact not_failsSilently_readKind
  | duration =>
      rw [fault?, hsilent, failsSilently_readDuration]
      exact ⟨fun (.duration h) => ⟨h, rfl⟩, fun ⟨h, hfailure⟩ => hfailure ▸ .duration h⟩
  | annotations =>
      rw [fault?, hsilent, failsSilently_readAnnotations]
      exact ⟨fun (.annotations h) => h, .annotations⟩
  | tags =>
      rw [fault?, hsilent, failsSilently_readTags]
      exact ⟨fun (.tags h) => ⟨h, rfl⟩, fun ⟨h, hfailure⟩ => hfailure ▸ .tags h⟩
  | timestamp =>
      rw [fault?, hsilent, failsSilently_readIntegerField]
      exact ⟨fun (.timestamp h) => ⟨h, rfl⟩, fun ⟨h, hfailure⟩ => hfailure ▸ .timestamp h⟩
  | localEndpoint =>
      rw [fault?, hsilent, failsSilently_readEndpoint]
      exact ⟨fun (.localEndpoint h) => h, .localEndpoint⟩
  | remoteEndpoint =>
      rw [fault?, hsilent, failsSilently_readEndpoint]
      exact ⟨fun (.remoteEndpoint h) => h, .remoteEndpoint⟩

/-! ## Whole spans -/

/-- The first part that cannot be read gives the fault. -/
theorem errorOf?_ofFields {id traceId : Text}
    (hid : normalizeId (fieldOf fields "id") = some id)
    (htraceId : normalizeId (fieldOf fields "traceId") = some traceId) :
    errorOf? (ofFields fields) = Part.all.findSome? (·.fault? fields) := by
  simp only [ofFields, hid, htraceId, Part.all, findSome?_cons_eq_or]
  -- What a part yields has no say in whether the next one can be read.
  refine errorOf?_bind fun kind => errorOf?_bind fun duration => errorOf?_bind fun annotations => ?_
  refine errorOf?_bind fun tags => errorOf?_bind fun timestamp => errorOf?_bind fun near => ?_
  exact errorOf?_bind fun far => rfl

theorem failsSilently_ofFields : FailsSilently (ofFields fields) failure ↔
    (normalizeId (fieldOf fields "id")).isSome ∧ (normalizeId (fieldOf fields "traceId")).isSome ∧
      ∃ before part after, Part.all = before ++ part :: after ∧
        (∀ earlier ∈ before, earlier.fault? fields = none) ∧ part.Escapes fields failure := by
  cases hid : normalizeId (fieldOf fields "id") with
  | none => simp [ofFields, hid, SpanFault.message?]
  | some id =>
      cases htraceId : normalizeId (fieldOf fields "traceId") with
      | none => simp [ofFields, hid, htraceId, SpanFault.message?]
      | some traceId =>
          simp only [FailsSilently, ← errorOf?_eq_some_iff, errorOf?_ofFields hid htraceId,
            List.findSome?_eq_some_iff, Part.escapes_iff, Option.isSome_some, true_and]
          constructor
          · rintro ⟨fault, ⟨before, part, after, hall, hpart, hbefore⟩, hfault⟩
            exact ⟨before, part, after, hall, hbefore, fault, hpart, hfault⟩
          · rintro ⟨before, part, after, hall, hbefore, fault, hpart, hfault⟩
            exact ⟨fault, ⟨before, part, after, hall, hpart, hbefore⟩, hfault⟩

theorem failsSilently_ofJson : FailsSilently (ofJson v) failure ↔ Escapes v failure := by
  cases v with
  | object fields =>
      rw [ofJson, failsSilently_ofFields]
      constructor
      · rintro ⟨hid, htraceId, before, part, after, h⟩
        exact ⟨fields, before, part, after, rfl, hid, htraceId, h⟩
      · rintro ⟨_, before, part, after, ⟨⟩, hid, htraceId, h⟩
        exact ⟨hid, htraceId, before, part, after, h⟩
  | _ =>
      refine iff_of_false ?_ ?_
      · simp [ofJson, SpanFault.message?]
      · rintro ⟨_, _, _, _, ⟨⟩, -⟩

theorem failure_of_message? {fault : SpanFault} {message : String}
    (h : fault.message? = some message) :
    fault.failure = .reported (.spanInvalid (some message)) := by
  rw [← h]
  cases fault <;> first | rfl | cases h

theorem message?_eq_none_iff {fault : SpanFault} :
    fault.message? = none ↔ ∀ e, fault.failure ≠ .reported e := by
  cases hmessage : fault.message? with
  | none => cases fault <;> simp_all [SpanFault.message?, SpanFault.failure]
  | some message => simp [failure_of_message? hmessage]

end

/-- A value is read as a span, or refused as invalid span data with a report that says why, exactly
if it does not escape. If it does then what comes of it is no error with a code. -/
theorem ofJson_span_or_report (v : Value) :
    (((∃ s, (ofJson v).mapError SpanFault.failure = .ok s) ∨
        ∃ message, (ofJson v).mapError SpanFault.failure =
          .error (.reported (.spanInvalid (some message)))) ↔ ∀ failure, ¬ Escapes v failure) ∧
      ∀ failure, Escapes v failure ↔ (ofJson v).mapError SpanFault.failure = .error failure ∧
        ∀ e, failure ≠ .reported e := by
  have hescapes (failure : Failure) : Escapes v failure ↔
      (ofJson v).mapError SpanFault.failure = .error failure ∧ ∀ e, failure ≠ .reported e := by
    rw [← failsSilently_ofJson, mapError_eq_error_iff]
    constructor
    · rintro ⟨fault, hfault, hmessage, rfl⟩
      exact ⟨⟨fault, hfault, rfl⟩, message?_eq_none_iff.mp hmessage⟩
    · rintro ⟨⟨fault, hfault, rfl⟩, hreported⟩
      exact ⟨fault, hfault, message?_eq_none_iff.mpr hreported, rfl⟩
  refine ⟨?_, hescapes⟩
  simp only [hescapes]
  constructor
  · rintro (⟨s, hs⟩ | ⟨message, hmessage⟩) failure ⟨hfailure, hreported⟩
    · cases hs.symm.trans hfailure
    · cases hmessage.symm.trans hfailure
      exact hreported _ rfl
  · intro h
    cases hread : ofJson v with
    | ok s => exact .inl ⟨s, rfl⟩
    | error fault =>
        cases hmessage : fault.message? with
        | some message => exact .inr ⟨message, congrArg Except.error (failure_of_message? hmessage)⟩
        | none =>
            refine absurd ⟨?_, message?_eq_none_iff.mp hmessage⟩ (h fault.failure)
            rw [hread]
            rfl

/-- An infinite duration, a number in the place of a list, and one in the place of an object. -/
theorem ofJson_escapes_of_misplaced :
    let spanWith (name : Text) (v : Value) : Value :=
      .object [("traceId", .text "1"), ("id", .text "2"), (name, v)]
    (ofJson (spanWith "duration" (.number (.real (.infinite false))))).mapError
        SpanFault.failure = .error (.arithmetic .overflow) ∧
      (ofJson (spanWith "annotations" (.whole 5))).mapError SpanFault.failure =
        .error .notIterable ∧
      (ofJson (spanWith "tags" (.whole 5))).mapError SpanFault.failure = .error .noFields :=
  ⟨rfl, rfl, rfl⟩

end TraceExplorer.Span
