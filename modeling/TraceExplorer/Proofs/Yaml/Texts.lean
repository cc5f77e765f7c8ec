import TraceExplorer.Proofs.Success
import TraceExplorer.Yaml.Value

/-!
# Texts of YAML values

A value has a text unless it holds a whole number with too many digits, or collections too deep
inside each other. Whichever of them comes first decides how writing the value fails.
-/

namespace TraceExplorer.Yaml.Value

def isCollection : Value → Bool
  | list _ | mapping _ | set _ | pairs _ => true
  | _ => false

def keysAndValues (entries : List (Value × Value)) : List Value :=
  entries.flatMap fun (k, v) => [k, v]

def parts : Value → List Value
  | list items => items
  | set members => members
  | mapping entries | pairs entries => keysAndValues entries
  | _ => []

/-- The depth that is left for the parts. A pair is a collection of its own. -/
def partDepth (depth : Nat) : Value → Nat
  | pairs _ => depth - 1
  | _ => depth

/-- Why a value has no text down to a depth. -/
inductive LacksText : Nat → Value → Failure → Prop where
  | digits {depth : Nat} {n : Int} (hdigits : ¬ Number.hasText n) :
      LacksText depth (number (.whole n)) (.unusableValue "whole number with too many digits")
  | deep {v : Value} (hcollection : v.isCollection) : LacksText 0 v .tooDeep
  | part {depth : Nat} {v part : Value} {before after : List Value} {failure : Failure}
      (hparts : v.parts = before ++ part :: after)
      (hbefore : ∀ earlier ∈ before, ∃ text, earlier.quotedTo (v.partDepth depth) = .ok text)
      (hpart : LacksText (v.partDepth depth) part failure) : LacksText (depth + 1) v failure

section

variable {v : Value} {depth : Nat} {failure : Failure}

/-! ## Parts -/

theorem errorOf?_quotedItems (depth : Nat) (items : List Value) :
    errorOf? (quotedItems depth items) = items.findSome? fun v => errorOf? (v.quotedTo depth) := by
  induction items with
  | nil => rfl
  | cons v rest ih =>
      rw [quotedItems, findSome?_cons_eq_or, ← ih]
      exact errorOf?_bind fun _ => errorOf?_bind_pure

theorem errorOf?_of_entries {write : List (Value × Value) → Except Failure (List String)}
    {join : String → String → String} (hnil : write [] = .ok [])
    (hcons : ∀ k v rest, write ((k, v) :: rest) = do
      let key ← k.quotedTo depth
      let value ← v.quotedTo depth
      return join key value :: (← write rest)) (entries : List (Value × Value)) :
    errorOf? (write entries) =
      (keysAndValues entries).findSome? fun v => errorOf? (v.quotedTo depth) := by
  induction entries with
  | nil => rw [hnil]; rfl
  | cons entry rest ih =>
      obtain ⟨k, v⟩ := entry
      have hfirst : keysAndValues ((k, v) :: rest) = k :: v :: keysAndValues rest := rfl
      rw [hcons, hfirst, findSome?_cons_eq_or, findSome?_cons_eq_or, ← ih]
      exact errorOf?_bind fun _ => errorOf?_bind fun _ => errorOf?_bind_pure

theorem errorOf?_quotedEntries (depth : Nat) (entries : List (Value × Value)) :
    errorOf? (quotedEntries depth entries) =
      (keysAndValues entries).findSome? fun v => errorOf? (v.quotedTo depth) :=
  errorOf?_of_entries (by rw [quotedEntries]) (fun _ _ _ => by rw [quotedEntries]) entries

theorem errorOf?_quotedPairs (depth : Nat) (items : List (Value × Value)) :
    errorOf? (quotedPairs depth items) =
      (keysAndValues items).findSome? fun v => errorOf? (v.quotedTo (depth - 1)) :=
  errorOf?_of_entries (by rw [quotedPairs]) (fun _ _ _ => by rw [quotedPairs]) items

/-- The first part without a text decides. -/
theorem errorOf?_quotedTo_succ (hcollection : v.isCollection) :
    errorOf? (v.quotedTo (depth + 1)) =
      v.parts.findSome? fun part => errorOf? (part.quotedTo (v.partDepth depth)) := by
  cases v with
  | list items => rw [quotedTo, errorOf?_bind_pure, errorOf?_quotedItems]; rfl
  | mapping entries => rw [quotedTo, errorOf?_bind_pure, errorOf?_quotedEntries]; rfl
  | set members =>
      rw [quotedTo]
      split
      · rename_i hempty
        rw [List.isEmpty_iff.mp hempty]
        rfl
      · rw [errorOf?_bind_pure, errorOf?_quotedItems]
        rfl
  | pairs items => rw [quotedTo, errorOf?_bind_pure, errorOf?_quotedPairs]; rfl
  | _ => cases hcollection

theorem partDepth_lt (v : Value) (depth : Nat) : v.partDepth depth < depth + 1 := by
  cases v with
  | pairs items =>
      rw [partDepth]
      omega
  | _ => exact Nat.lt_succ_self depth

theorem quotedTo_zero (hcollection : v.isCollection) : v.quotedTo 0 = .error .tooDeep := by
  cases v with
  | list | mapping | set | pairs => simp [quotedTo]
  | _ => cases hcollection

theorem quotedTo_of_not_isCollection (hcollection : ¬ v.isCollection) :
    v.quotedTo depth = v.plainQuoted := by
  cases v with
  | list | mapping | set | pairs => exact absurd rfl hcollection
  | _ => rw [quotedTo] <;> simp

theorem isCollection_of_mem_parts {part : Value} (hpart : part ∈ v.parts) : v.isCollection := by
  cases v with
  | list | mapping | set | pairs => rfl
  | _ => cases hpart

/-! ## Writing -/

theorem plainQuoted_eq_error_iff :
    v.plainQuoted = .error failure ↔
      ∃ n, v = number (.whole n) ∧ ¬ Number.hasText n ∧
        failure = .unusableValue "whole number with too many digits" := by
  cases v with
  | number x =>
      cases x with
      | whole n =>
          rw [plainQuoted, numberText]
          constructor
          · intro h
            split at h
            · cases h
            · rename_i hdigits
              exact ⟨n, rfl, hdigits, (Except.error.inj h).symm⟩
          · rintro ⟨_, ⟨⟩, hdigits, rfl⟩
            rw [if_neg hdigits]
      | real x => simp [plainQuoted, numberText]
  | _ => simp [plainQuoted]

/-- A value fails to be written down to a depth exactly if it has no text for the same reason. -/
theorem quotedTo_eq_error_iff : v.quotedTo depth = .error failure ↔ LacksText depth v failure := by
  constructor
  · intro h
    -- A pair takes two steps down, so the induction is on all smaller depths.
    induction depth using Nat.strongRecOn generalizing v with
    | ind depth ih =>
      by_cases hcollection : v.isCollection
      · cases depth with
        | zero =>
            cases (quotedTo_zero hcollection).symm.trans h
            exact .deep hcollection
        | succ depth =>
            rw [← errorOf?_eq_some_iff, errorOf?_quotedTo_succ hcollection,
              List.findSome?_eq_some_iff] at h
            obtain ⟨before, part, after, hparts, hpart, hbefore⟩ := h
            refine .part hparts (fun earlier hearlier => ?_)
              (ih _ (partDepth_lt v depth) (errorOf?_eq_some_iff.mp hpart))
            exact errorOf?_eq_none_iff.mp (hbefore earlier hearlier)
      · rw [quotedTo_of_not_isCollection hcollection, plainQuoted_eq_error_iff] at h
        obtain ⟨n, rfl, hdigits, rfl⟩ := h
        exact .digits hdigits
  · intro h
    induction h with
    | digits hdigits =>
        rw [quotedTo_of_not_isCollection (by simp [isCollection]), plainQuoted_eq_error_iff]
        exact ⟨_, rfl, hdigits, rfl⟩
    | deep hcollection => exact quotedTo_zero hcollection
    | part hparts hbefore hpart ih =>
        have hmem := isCollection_of_mem_parts (hparts ▸ List.mem_append_cons_self)
        rw [← errorOf?_eq_some_iff, errorOf?_quotedTo_succ hmem, List.findSome?_eq_some_iff]
        exact ⟨_, _, _, hparts, errorOf?_eq_some_iff.mpr ih,
          fun earlier hearlier => errorOf?_eq_none_iff.mpr (hbefore earlier hearlier)⟩

theorem LacksText.isCollection_or_whole (h : LacksText depth v failure) :
    v.isCollection ∨ ∃ n, v = number (.whole n) := by
  cases h with
  | digits => exact .inr ⟨_, rfl⟩
  | deep hcollection => exact .inl hcollection
  | part hparts => exact .inl (isCollection_of_mem_parts (hparts ▸ List.mem_append_cons_self))

/-- There are two reasons to have no text. -/
theorem LacksText.eq_or_eq (h : LacksText depth v failure) :
    failure = .unusableValue "whole number with too many digits" ∨ failure = .tooDeep := by
  induction h with
  | digits => exact .inl rfl
  | deep => exact .inr rfl
  | part _ _ _ ih => exact ih

theorem quoted_eq_error_iff : v.quoted = .error failure ↔ LacksText textDepth v failure :=
  quotedTo_eq_error_iff

theorem quoted_of_not_isCollection (hcollection : ¬ v.isCollection) : v.quoted = v.plainQuoted :=
  quotedTo_of_not_isCollection hcollection

theorem display_eq_error_iff : v.display = .error failure ↔ LacksText textDepth v failure := by
  rw [← quoted_eq_error_iff]
  cases v with
  | text | date | moment =>
      rw [quoted_of_not_isCollection (by simp [isCollection])]
      simp [display, plainQuoted]
  | _ => simp only [display, map_eq_error_iff]

theorem isTruthy_of_mem_parts {part : Value} (hpart : part ∈ v.parts) : v.isTruthy := by
  cases v with
  | list items | set items =>
      cases items with
      | nil => cases hpart
      | cons first rest => rfl
  | mapping entries | pairs entries =>
      cases entries with
      | nil => cases hpart
      | cons first rest => rfl
  | _ => cases hpart

/-- A value without a text counts as present. -/
theorem LacksText.isTruthy (h : LacksText (depth + 1) v failure) : v.isTruthy := by
  cases h with
  | @digits _ n hdigits =>
      have hne : n ≠ 0 := by
        rintro rfl
        have hpos (k : Nat) : 0 < Nat.pow 10 k := Nat.pow_pos (by decide)
        exact hdigits (decide_eq_true (hpos Number.digitLimit))
      simpa [Value.isTruthy, Number.Scalar.isZero, Number.Scalar.exact, Number.Double.isZero,
        Number.Double.value?] using hne
  | part hparts => exact isTruthy_of_mem_parts (hparts ▸ List.mem_append_cons_self)

end

end TraceExplorer.Yaml.Value
