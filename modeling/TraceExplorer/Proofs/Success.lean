/-!
# Computations that can fail

A sequence of steps that can fail succeeds if each step does, and fails with the first failure.
-/

namespace TraceExplorer

variable {ε α β : Type}

def errorOf? : Except ε α → Option ε
  | .ok _ => none
  | .error e => some e

theorem errorOf?_eq_some_iff {x : Except ε α} {e : ε} : errorOf? x = some e ↔ x = .error e := by
  cases x with
  | error e' => simp [errorOf?]
  | ok a => simp [errorOf?]

theorem errorOf?_eq_none_iff {x : Except ε α} : errorOf? x = none ↔ ∃ a, x = .ok a := by
  cases x with
  | error e => simp [errorOf?]
  | ok a => simp [errorOf?]

/-- The first step that fails gives the failure, if the failures of the others do not depend on what
it yields. -/
theorem errorOf?_bind {x : Except ε α} {f : α → Except ε β} {rest : Option ε}
    (h : ∀ a, errorOf? (f a) = rest) : errorOf? (x >>= f) = (errorOf? x).or rest := by
  cases x with
  | error e => rfl
  | ok a => exact h a

theorem errorOf?_bind_pure {x : Except ε α} {f : α → β} :
    errorOf? (x >>= fun a => pure (f a)) = errorOf? x := by
  cases x <;> rfl

/-- What is found first is found at the first element, or else in the rest. -/
theorem findSome?_cons_eq_or (f : α → Option β) (a : α) (l : List α) :
    (a :: l).findSome? f = (f a).or (l.findSome? f) := by
  rw [List.findSome?_cons]
  cases f a <;> rfl

theorem bind_eq_ok_iff {x : Except ε α} {f : α → Except ε β} {b : β} :
    (x >>= f) = .ok b ↔ ∃ a, x = .ok a ∧ f a = .ok b := by
  cases x with
  | error e => simp [bind, Except.bind]
  | ok a => simp [bind, Except.bind]

theorem toOption_eq_some_iff {x : Except ε α} {a : α} : x.toOption = some a ↔ x = .ok a := by
  cases x with
  | error e => simp [Except.toOption]
  | ok a => simp [Except.toOption]

theorem bind_eq_error_iff {x : Except ε α} {f : α → Except ε β} {e : ε} :
    (x >>= f) = .error e ↔ x = .error e ∨ ∃ a, x = .ok a ∧ f a = .error e := by
  cases x with
  | error e' => simp [bind, Except.bind]
  | ok a => simp [bind, Except.bind]

theorem map_eq_ok_iff {x : Except ε α} {f : α → β} {b : β} :
    x.map f = .ok b ↔ ∃ a, x = .ok a ∧ f a = b := by
  cases x <;> simp [Except.map]

theorem map_eq_error_iff {x : Except ε α} {f : α → β} {e : ε} :
    x.map f = .error e ↔ x = .error e := by
  cases x <;> simp [Except.map]

theorem mapError_eq_ok_iff {ε' : Type} {x : Except ε α} {f : ε → ε'} {a : α} :
    x.mapError f = .ok a ↔ x = .ok a := by
  constructor
  · intro h
    cases x with
    | error e => cases h
    | ok b => exact congrArg Except.ok (Except.ok.inj h)
  · rintro rfl
    rfl

theorem mapError_eq_error_iff {ε' : Type} {x : Except ε α} {f : ε → ε'} {e : ε'} :
    x.mapError f = .error e ↔ ∃ e', x = .error e' ∧ f e' = e := by
  constructor
  · intro h
    cases x with
    | error e' => exact ⟨e', rfl, Except.error.inj h⟩
    | ok b => cases h
  · rintro ⟨e', rfl, rfl⟩
    rfl

theorem exists_mapM_iff {l : List α} {f : α → Except ε β} :
    (∃ bs, l.mapM f = .ok bs) ↔ ∀ a ∈ l, ∃ b, f a = .ok b := by
  induction l with
  | nil => exact ⟨by simp, fun _ => ⟨[], rfl⟩⟩
  | cons a rest ih =>
      rw [List.forall_mem_cons, ← ih, List.mapM_cons]
      constructor
      · rintro ⟨bs, hbs⟩
        obtain ⟨b, hb, htail⟩ := bind_eq_ok_iff.mp hbs
        obtain ⟨bs', hbs', -⟩ := bind_eq_ok_iff.mp htail
        exact ⟨⟨b, hb⟩, bs', hbs'⟩
      · rintro ⟨⟨b, hb⟩, bs, hbs⟩
        exact ⟨b :: bs, bind_eq_ok_iff.mpr ⟨b, hb, bind_eq_ok_iff.mpr ⟨bs, hbs, rfl⟩⟩⟩

/-- The first failure stops a sequence of computations. -/
theorem mapM_eq_error_iff {l : List α} {f : α → Except ε β} {e : ε} :
    l.mapM f = .error e ↔ ∃ before a after, l = before ++ a :: after ∧
      (∀ b ∈ before, ∃ c, f b = .ok c) ∧ f a = .error e := by
  induction l with
  | nil => simp [pure, Except.pure]
  | cons a rest ih =>
      rw [List.mapM_cons, bind_eq_error_iff]
      constructor
      · rintro (ha | ⟨b, hb, htail⟩)
        · exact ⟨[], a, rest, rfl, by simp, ha⟩
        · rcases bind_eq_error_iff.mp htail with htail | ⟨bs, -, hpure⟩
          · obtain ⟨before, bad, after, rfl, hbefore, hbad⟩ := ih.mp htail
            exact ⟨a :: before, bad, after, rfl,
              List.forall_mem_cons.mpr ⟨⟨b, hb⟩, hbefore⟩, hbad⟩
          · cases hpure
      · rintro ⟨before, bad, after, heq, hbefore, hbad⟩
        cases before with
        | nil =>
            obtain ⟨rfl, rfl⟩ := List.cons.inj heq
            exact .inl hbad
        | cons first before =>
            obtain ⟨rfl, rfl⟩ := List.cons.inj heq
            obtain ⟨⟨b, hb⟩, hbefore⟩ := List.forall_mem_cons.mp hbefore
            exact .inr ⟨b, hb, bind_eq_error_iff.mpr
              (.inl (ih.mpr ⟨before, bad, after, rfl, hbefore, hbad⟩))⟩

end TraceExplorer
