import Mathlib.Data.Rat.Defs
import TraceExplorer.Proofs.KeyedList
import TraceExplorer.Schema.Basic

/-!
# Values that pass a schema

What each keyword asks of a value that violates none of a schema.
-/

namespace TraceExplorer.Schema

open Json (Value)
open Number (Scalar)

def Passes (schema : List Keyword) (v : Value) : Prop := checkAll schema v = []

instance (schema : List Keyword) (v : Value) : Decidable (Passes schema v) :=
  inferInstanceAs (Decidable (checkAll schema v = []))

def propertySchemas (schema : List Keyword) : List (String × List Keyword) :=
  schema.flatMap fun
    | .properties schemas => schemas
    | _ => []

section

variable {schema : List Keyword} {schemas : List (String × List Keyword)}
  {fields : List (Text × Value)} {v : Value}

theorem passes_nil : Passes [] v := rfl

theorem passes_cons {keyword : Keyword} :
    Passes (keyword :: schema) v ↔ check keyword v = [] ∧ Passes schema v :=
  List.append_eq_nil_iff

theorem passes_iff : Passes schema v ↔ ∀ keyword ∈ schema, check keyword v = [] := by
  induction schema with
  | nil => exact ⟨fun _ => by simp, fun _ => passes_nil⟩
  | cons keyword rest ih => rw [passes_cons, ih, List.forall_mem_cons]

theorem Passes.keyword {keyword : Keyword} (h : Passes schema v) (hmem : keyword ∈ schema) :
    check keyword v = [] :=
  passes_iff.mp h keyword hmem

theorem violationIf_eq_nil_iff {broken : Bool} {message : String} :
    violationIf broken message = [] ↔ broken = false := by
  cases broken <;> simp [violationIf]

/-! ## Keywords -/

theorem check_type {types : List ValueType} :
    check (.type types) v = [] ↔ ∃ type ∈ types, type.holds v := by
  change violationIf _ _ = [] ↔ _
  rw [violationIf_eq_nil_iff, Bool.not_eq_false', List.any_eq_true]

theorem Passes.holds {type : ValueType} {rest : List Keyword}
    (h : Passes (.type [type] :: rest) v) : type.holds v := by
  obtain ⟨type', hmem, hholds⟩ := check_type.mp (h.keyword (.head _))
  obtain rfl := List.mem_singleton.mp hmem
  exact hholds

theorem check_required {names : List String} :
    check (.required names) (.object fields) = [] ↔
      ∀ name ∈ names, (Value.field? fields (name : String)).isSome := by
  change (absentNames fields names).map _ = [] ↔ _
  rw [List.map_eq_nil_iff, absentNames, List.filter_eq_nil_iff]
  simp [Option.isSome_iff_ne_none]

theorem check_pattern {s : Text} {p : HexPattern} :
    check (.pattern p) (.text s) = [] ↔ p.admits s := by
  change violationIf _ _ = [] ↔ _
  rw [violationIf_eq_nil_iff, Bool.not_eq_false']

theorem check_oneOf {names : List String} :
    check (.oneOf names) v = [] ↔ ∃ name ∈ names, v = .text (name : String) := by
  cases v with
  | text s =>
      change violationIf _ _ = [] ↔ _
      rw [violationIf_eq_nil_iff, Bool.not_eq_false', List.any_eq_true]
      refine exists_congr fun name => and_congr_right fun _ => ?_
      rw [decide_eq_true_eq, Value.text.injEq, eq_comm]
  | _ =>
      exact ⟨fun h => absurd (violationIf_eq_nil_iff.mp h) Bool.noConfusion,
        fun ⟨_, _, h⟩ => Value.noConfusion h⟩

theorem check_minimum {n : Int} {x : Scalar} :
    check (.minimum n) (.number x) = [] ↔ x.lt (.whole n) = false := by
  change violationIf _ _ = [] ↔ _
  rw [violationIf_eq_nil_iff]

theorem check_maximum {n : Int} {x : Scalar} :
    check (.maximum n) (.number x) = [] ↔ Scalar.lt (.whole n) x = false := by
  change violationIf _ _ = [] ↔ _
  rw [violationIf_eq_nil_iff]

theorem check_items {items : List Value} :
    check (.items schema) (.list items) = [] ↔ ∀ v ∈ items, Passes schema v := by
  change items.zipIdx.flatMap (fun p => (checkAll schema p.1).map _) = [] ↔ _
  simp only [List.flatMap_eq_nil_iff, List.map_eq_nil_iff]
  constructor
  · intro h v hv
    obtain ⟨i, hi⟩ := List.mem_iff_getElem?.mp hv
    exact h (v, i) (List.mem_zipIdx_iff_getElem?.mpr hi)
  · rintro h ⟨v, i⟩ hvi
    exact h v (List.fst_mem_of_mem_zipIdx hvi)

theorem check_properties :
    check (.properties schemas) (.object fields) = [] ↔
      ∀ p ∈ schemas, ∀ v, Value.field? fields p.1 = some v → Passes p.2 v := by
  change checkProperties schemas fields = [] ↔ _
  induction schemas with
  | nil => exact ⟨fun _ => by simp, fun _ => rfl⟩
  | cons p rest ih =>
      have hcons : checkProperties (p :: rest) fields = _ ++ checkProperties rest fields := rfl
      rw [hcons, List.append_eq_nil_iff, ih, List.forall_mem_cons]
      refine and_congr_left fun _ => ?_
      cases Value.field? fields p.1 with
      | none => simp
      | some v => simp [Passes]

theorem check_otherProperties :
    check (.otherProperties schema) (.object fields) = [] ↔
      ∀ p ∈ fields, Passes schema p.2 := by
  change (sortFields fields).flatMap (fun p => (checkAll schema p.2).map _) = [] ↔ _
  simp only [sortFields, List.flatMap_eq_nil_iff, List.map_eq_nil_iff, List.mem_mergeSort]
  rfl

/-! ## Named fields -/

theorem mem_propertySchemas {p : String × List Keyword} (h : p ∈ propertySchemas schema) :
    ∃ schemas, .properties schemas ∈ schema ∧ p ∈ schemas := by
  obtain ⟨keyword, hkeyword, hp⟩ := List.mem_flatMap.mp h
  cases keyword with
  | properties schemas => exact ⟨schemas, hkeyword, hp⟩
  | _ => cases hp

/-- A field that the schema names passes the schema of the field. -/
theorem Passes.field {name : String} {fieldSchema : List Keyword}
    (h : Passes schema (.object fields))
    (hname : (propertySchemas schema).lookup name = some fieldSchema)
    (hfield : Value.field? fields name = some v) : Passes fieldSchema v := by
  obtain ⟨schemas, hmem, hp⟩ := mem_propertySchemas (KeyedList.mem_of_lookup hname)
  exact check_properties.mp (h.keyword hmem) _ hp v hfield

end

/-! ## Kinds of values -/

section

variable {v : Value}

theorem exists_fields_of_holds (h : ValueType.object.holds v) : ∃ fields, v = .object fields := by
  cases v with
  | object fields => exact ⟨fields, rfl⟩
  | _ => cases h

theorem exists_items_of_holds (h : ValueType.array.holds v) : ∃ items, v = .list items := by
  cases v with
  | list items => exact ⟨items, rfl⟩
  | _ => cases h

theorem exists_text_of_holds (h : ValueType.string.holds v) : ∃ s, v = .text s := by
  cases v with
  | text s => exact ⟨s, rfl⟩
  | _ => cases h

theorem exists_integer_of_holds (h : ValueType.integer.holds v) :
    ∃ (x : Scalar) (n : Int), v = .number x ∧ x.exact.value? = some (n : Rat) := by
  cases v with
  | number x =>
      cases x with
      | whole n => exact ⟨.whole n, n, rfl, rfl⟩
      | real x =>
          cases hx : x.value? with
          | none => simp [ValueType.holds, hx] at h
          | some q =>
              have hden : q.den = 1 := by simpa [ValueType.holds, hx] using h
              refine ⟨.real x, q.num, rfl, ?_⟩
              rw [Scalar.exact, hx, Rat.coe_int_num_of_den_eq_one hden]
  | _ => cases h

end

end TraceExplorer.Schema
