import TraceExplorer.Proofs.Positions

/-!
# Lists of keys with values

Looking up a key finds the first value under it, and the only one if no key occurs twice. A list
that grows by changes under keys has the keys in the order of their first changes.
-/

namespace TraceExplorer.KeyedList

variable {α β : Type} [DecidableEq α] {entries : List (α × β)} {key : α} {value : β}

theorem isSome_lookup_iff : (entries.lookup key).isSome ↔ key ∈ entries.map (·.1) := by
  rw [List.lookup_isSome_iff, List.mem_map]
  exact exists_congr fun entry => and_congr_right fun _ => beq_iff_eq.trans eq_comm

theorem lookup_of_mem (hnodup : (entries.map (·.1)).Nodup) (h : (key, value) ∈ entries) :
    entries.lookup key = some value := by
  induction entries with
  | nil => simp at h
  | cons first rest ih =>
      obtain ⟨hfirst, hrest⟩ := List.nodup_cons.mp hnodup
      rcases List.mem_cons.mp h with rfl | h
      · exact List.lookup_cons_self
      · have hne : (key == first.1) = false := by
          rw [beq_eq_false_iff_ne]
          rintro rfl
          exact hfirst (List.mem_map.mpr ⟨_, h, rfl⟩)
        rw [List.lookup_cons, hne]
        exact ih hrest h

theorem mem_of_lookup (h : entries.lookup key = some value) : (key, value) ∈ entries := by
  obtain ⟨before, after, rfl, -⟩ := List.lookup_eq_some_iff.mp h
  simp

theorem lookup_perm {entries' : List (α × β)} (hnodup : (entries.map (·.1)).Nodup)
    (h : entries.Perm entries') : entries.lookup key = entries'.lookup key := by
  refine Option.ext fun value => ⟨fun hvalue => ?_, fun hvalue => ?_⟩
  · exact lookup_of_mem ((h.map _).nodup_iff.mp hnodup) (h.mem_iff.mp (mem_of_lookup hvalue))
  · exact lookup_of_mem hnodup (h.mem_iff.mpr (mem_of_lookup hvalue))

theorem lookup_filter (hnodup : (entries.map (·.1)).Nodup) (p : β → Bool) (key : α) :
    (entries.filter fun entry => p entry.2).lookup key = (entries.lookup key).filter p := by
  have hnodup' : ((entries.filter fun entry => p entry.2).map (·.1)).Nodup :=
    (List.filter_sublist.map _).nodup hnodup
  refine Option.ext fun value => ⟨fun hvalue => ?_, fun hvalue => ?_⟩
  · obtain ⟨hmem, hp⟩ := List.mem_filter.mp (mem_of_lookup hvalue)
    exact Option.filter_eq_some_iff.mpr ⟨lookup_of_mem hnodup hmem, hp⟩
  · obtain ⟨hlookup, hp⟩ := Option.filter_eq_some_iff.mp hvalue
    exact lookup_of_mem hnodup' (List.mem_filter.mpr ⟨mem_of_lookup hlookup, hp⟩)

/-! ## Changes -/

/-- Puts under a key what comes of its old value; a new key goes to the end. -/
def upsert (next : Option β → β) (key : α) : List (α × β) → List (α × β)
  | [] => [(key, next none)]
  | (first, value) :: rest =>
    if first = key then (first, next (some value)) :: rest
    else (first, value) :: upsert next key rest

section

variable {next : Option β → β} {other : α}

theorem keys_upsert :
    (upsert next key entries).map (·.1) =
      if key ∈ entries.map (·.1) then entries.map (·.1) else entries.map (·.1) ++ [key] := by
  induction entries with
  | nil => rfl
  | cons entry rest ih =>
      obtain ⟨first, value⟩ := entry
      by_cases h : first = key
      · simp [upsert, h]
      · have h' : ¬ key = first := fun e => h e.symm
        simp only [upsert, h, ↓reduceIte, List.map_cons, ih, List.mem_cons, h', false_or]
        split <;> rfl

theorem lookup_upsert :
    (upsert next key entries).lookup other =
      if other = key then some (next (entries.lookup key)) else entries.lookup other := by
  induction entries with
  | nil =>
      by_cases hother : other = key
      · simp [upsert, hother]
      · simp [upsert, hother, List.lookup_cons, beq_eq_false_iff_ne.mpr hother]
  | cons entry rest ih =>
      obtain ⟨first, value⟩ := entry
      by_cases hfirst : first = key
      · subst hfirst
        by_cases hother : other = first
        · simp [upsert, hother]
        · simp [upsert, hother, List.lookup_cons, beq_eq_false_iff_ne.mpr hother]
      · have hne : (key == first) = false := beq_eq_false_iff_ne.mpr (Ne.symm hfirst)
        simp only [upsert, hfirst, ↓reduceIte, List.lookup_cons, hne]
        by_cases hother : other = first
        · have hne' : ¬ other = key := hother ▸ hfirst
          simp [hother, hfirst]
        · simp only [beq_eq_false_iff_ne.mpr hother, ih]

variable {γ : Type} {keyOf : γ → α} {nextOf : γ → Option β → β}

theorem keys_foldl_upsert (changes : List γ) :
    (changes.foldl (fun entries c => upsert (nextOf c) (keyOf c) entries) []).map (·.1) =
      (changes.map keyOf).eraseDups := by
  induction changes using List.reverseRecOn with
  | nil => rfl
  | append_singleton changes c ih =>
      rw [List.foldl_concat, keys_upsert, ih, List.map_append, List.map_singleton,
        Positions.eraseDups_concat]
      simp only [List.mem_eraseDups]

/-- A key has what its own changes make of it, one after the other. -/
theorem lookup_foldl_upsert (changes : List γ) (entries : List (α × β)) :
    (changes.foldl (fun entries c => upsert (nextOf c) (keyOf c) entries) entries).lookup key =
      (changes.filter (keyOf · == key)).foldl (fun old c => some (nextOf c old))
        (entries.lookup key) := by
  induction changes generalizing entries with
  | nil => rfl
  | cons c rest ih =>
      rw [List.foldl_cons, ih, lookup_upsert, List.filter_cons]
      by_cases hkey : key = keyOf c
      · simp [← hkey]
      · have hne : (keyOf c == key) = false := beq_eq_false_iff_ne.mpr (Ne.symm hkey)
        simp [hkey, hne]

end

section

variable {γ : Type} {elements : List γ} {element : γ} {keyOf : γ → α} {valueOf : γ → Option β}

omit [DecidableEq α] in
theorem nodup_filterMap (hnodup : (elements.map keyOf).Nodup) :
    ((elements.filterMap fun e => (valueOf e).map (keyOf e, ·)).map (·.1)).Nodup := by
  rw [List.Nodup, List.pairwise_map, List.pairwise_filterMap]
  refine (List.pairwise_map.mp hnodup).imp fun hne first hfirst second hsecond => ?_
  obtain ⟨_, -, rfl⟩ := Option.map_eq_some_iff.mp hfirst
  obtain ⟨_, -, rfl⟩ := Option.map_eq_some_iff.mp hsecond
  exact hne

/-- What is listed under the keys of distinct elements is found under them. -/
theorem lookup_filterMap (hnodup : (elements.map keyOf).Nodup) (h : element ∈ elements) :
    (elements.filterMap fun e => (valueOf e).map (keyOf e, ·)).lookup (keyOf element) =
      valueOf element := by
  set listed := elements.filterMap fun e => (valueOf e).map (keyOf e, ·)
  cases hlookup : listed.lookup (keyOf element) with
  | some value =>
      obtain ⟨e, he, hentry⟩ := List.mem_filterMap.mp (mem_of_lookup hlookup)
      obtain ⟨_, hvalue, heq⟩ := Option.map_eq_some_iff.mp hentry
      obtain ⟨hkey, rfl⟩ := Prod.mk.inj heq
      rw [← List.inj_on_of_nodup_map hnodup he h hkey, hvalue]
  | none =>
      refine (Option.eq_none_iff_forall_not_mem.mpr fun value hvalue => ?_).symm
      have hmem : (keyOf element, value) ∈ listed :=
        List.mem_filterMap.mpr ⟨element, h, by rw [Option.mem_def.mp hvalue]; rfl⟩
      simpa using List.lookup_eq_none_iff.mp hlookup _ hmem

end

end TraceExplorer.KeyedList
