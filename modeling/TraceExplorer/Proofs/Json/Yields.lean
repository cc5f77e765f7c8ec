import TraceExplorer.Json.Reader

/-!
# What the JSON readers yield

Each reader is opened once: what it yields at the start of a text is told by what the readers it
calls yield. The lemmas go both ways, so a reading can be taken apart and put together again.
-/

namespace TraceExplorer.Json

/-- A part of `s` was read as `a`, and `left` is left. -/
def Yields {α : Type} {s : List CodePoint} (x : Except Stop (α × Rest s)) (a : α)
    (left : List CodePoint) : Prop :=
  ∃ r : Rest s, x = .ok (a, r) ∧ r.1 = left

section

variable {α : Type} {depth opened : Nat} {taken s rest left : List CodePoint} {t : Text} {v : Value}
  {items : List Value} {fields all : List (Text × Value)} {c : CodePoint}

@[simp] theorem yields_ok {p : α × Rest s} {a : α} :
    Yields (.ok p) a left ↔ p.1 = a ∧ p.2.1 = left := by
  obtain ⟨b, r⟩ := p
  constructor
  · rintro ⟨r', h, rfl⟩
    cases h
    exact ⟨rfl, rfl⟩
  · rintro ⟨rfl, rfl⟩
    exact ⟨r, rfl, rfl⟩

@[simp] theorem not_yields_error {stop : Stop} {a : α} :
    ¬ Yields (s := s) (.error stop) a left := by
  rintro ⟨_, h, -⟩
  cases h

theorem Yields.length_lt {α : Type} {a : α} {x : Except Stop (α × Rest s)} (h : Yields x a left) :
    left.length < s.length := by
  obtain ⟨r, -, rfl⟩ := h
  exact r.2

theorem Yields.ne_nil {α : Type} {a : α} {x : Except Stop (α × Rest s)} (h : Yields x a left) :
    s ≠ [] :=
  List.ne_nil_of_length_pos (Nat.zero_lt_of_lt h.length_lt)

theorem Yields.unique {α : Type} {a a' : α} {left' : List CodePoint}
    {x : Except Stop (α × Rest s)} (h : Yields x a left) (h' : Yields x a' left') :
    a = a' ∧ left = left' := by
  obtain ⟨r, rfl, rfl⟩ := h
  exact yields_ok.mp h'

/-! ## Strings -/

theorem not_yields_readString_nil : ¬ Yields (readString opened taken []) t left := by
  rw [readString]
  exact not_yields_error

theorem yields_readString_quote :
    Yields (readString opened taken (.char '"' :: rest)) t left ↔
      ⟨taken.reverse⟩ = t ∧ rest = left := by
  rw [readString]
  exact yields_ok

theorem not_yields_readString_backslash :
    ¬ Yields (readString opened taken [.char '\\']) t left := by
  rw [readString]
  exact not_yields_error

theorem yields_readString_codeEscape :
    Yields (readString opened taken (.char '\\' :: .char 'u' :: rest)) t left ↔
      ∃ c width, readCodeEscape rest = .ok (c, width) ∧
        Yields (readString opened (c :: taken) (rest.drop width)) t left := by
  rw [readString]
  cases hescape : readCodeEscape rest with
  | error stop => simp
  | ok p =>
      obtain ⟨c, width⟩ := p
      cases hread : readString opened (c :: taken) (rest.drop width) with
      | error stop => simp [and_assoc, hread]
      | ok q => simp [and_assoc, hread]

theorem yields_readString_escape (hc : c ≠ .char 'u') :
    Yields (readString opened taken (.char '\\' :: c :: rest)) t left ↔
      ∃ e, c.char?.bind shortEscape? = some e ∧
        Yields (readString opened (.char e :: taken) rest) t left := by
  rw [readString]
  · cases hescape : c.char?.bind shortEscape? with
    | none => simp
    | some e =>
      cases hread : readString opened (.char e :: taken) rest with
      | error stop => simp [hread]
      | ok q => simp [hread]
  · simp [hc]

theorem yields_readString_plain (hquote : c ≠ .char '"') (hescape : c ≠ .char '\\') :
    Yields (readString opened taken (c :: rest)) t left ↔
      0x20 ≤ c.code ∧ Yields (readString opened (c :: taken) rest) t left := by
  rw [readString]
  · split
    · rename_i hcode
      simp [Nat.not_le.mpr hcode]
    · rename_i hcode
      cases hread : readString opened (c :: taken) rest with
      | error stop => simp
      | ok q => simp [Nat.not_lt.mp hcode]
  all_goals simp [hquote, hescape]

/-! ## Values -/

theorem not_yields_readValue_nil : ¬ Yields (readValue depth []) v left := by
  rw [readValue]
  · split
    · exact not_yields_error
    · split
      · rename_i hlength
        exact absurd hlength (Nat.not_lt_zero _)
      · exact not_yields_error
  all_goals simp

theorem yields_readValue_text :
    Yields (readValue depth (.char '"' :: rest)) v left ↔
      ∃ t, Yields (readString (rest.length + 1) [] rest) t left ∧ .text t = v := by
  rw [readValue]
  cases hread : readString (rest.length + 1) [] rest with
  | error stop => simp
  | ok q => simp [and_assoc, and_comm]

theorem yields_readValue_list :
    Yields (readValue depth (.char '[' :: rest)) v left ↔
      depth ≠ 0 ∧ ((.list [] = v ∧ skipSpace rest = .char ']' :: left) ∨
        (skipSpace rest).head? ≠ some (.char ']') ∧
          ∃ items, Yields (readItems (depth - 1) (skipSpace rest)) items left ∧
            .list items = v) := by
  rw [readValue]
  split
  · rename_i hdepth
    simp [hdepth]
  · rename_i hdepth
    split
    · rename_i after hstart
      simp [hdepth, hstart]
    · rename_i hstart
      have hstart : ∀ after, skipSpace rest ≠ .char ']' :: after := hstart
      have hhead : (skipSpace rest).head? ≠ some (.char ']') := by
        intro hhead
        obtain ⟨after, hafter⟩ := List.head?_eq_some_iff.mp hhead
        exact hstart after hafter
      cases hread : readItems (depth - 1) (skipSpace rest) with
      | error stop => simp [hstart]
      | ok q => simp [hdepth, hhead, hstart, and_assoc, and_comm]

theorem yields_readValue_object :
    Yields (readValue depth (.char '\x7b' :: rest)) v left ↔
      depth ≠ 0 ∧ ((.object [] = v ∧ skipSpace rest = .char '\x7d' :: left) ∨
        (skipSpace rest).head? ≠ some (.char '\x7d') ∧
          ∃ fields, Yields (readFields (depth - 1) [] (skipSpace rest)) fields left ∧
            .object fields = v) := by
  rw [readValue]
  split
  · rename_i hdepth
    simp [hdepth]
  · rename_i hdepth
    split
    · rename_i after hstart
      simp [hdepth, hstart]
    · rename_i hstart
      have hstart : ∀ after, skipSpace rest ≠ .char '\x7d' :: after := hstart
      have hhead : (skipSpace rest).head? ≠ some (.char '\x7d') := by
        intro hhead
        obtain ⟨after, hafter⟩ := List.head?_eq_some_iff.mp hhead
        exact hstart after hafter
      cases hread : readFields (depth - 1) [] (skipSpace rest) with
      | error stop => simp [hstart]
      | ok q => simp [hdepth, hhead, hstart, and_assoc, and_comm]

theorem yields_readValue_atom (hquote : c ≠ .char '"') (hlist : c ≠ .char '[')
    (hobject : c ≠ .char '\x7b') :
    Yields (readValue depth (c :: rest)) v left ↔
      readAtom (c :: rest) = .ok (v, left) ∧ left.length < (c :: rest).length := by
  rw [readValue]
  · cases hatom : readAtom (c :: rest) with
    | error stop => simp
    | ok p =>
        obtain ⟨w, after⟩ := p
        by_cases hlength : after.length < (c :: rest).length
        · simp only [hlength, dite_true, yields_ok, Except.ok.injEq, Prod.mk.injEq]
          constructor
          · rintro ⟨rfl, rfl⟩
            exact ⟨⟨rfl, rfl⟩, hlength⟩
          · exact And.left
        · simp only [hlength, dite_false, not_yields_error, Except.ok.injEq, Prod.mk.injEq,
            false_iff, not_and]
          rintro ⟨rfl, rfl⟩
          exact hlength
  all_goals simp [hquote, hlist, hobject]

theorem yields_readItems :
    Yields (readItems depth s) items left ↔
      ∃ v r, Yields (readValue depth s) v r ∧
        (([v] = items ∧ skipSpace r = .char ']' :: left) ∨
          ∃ after, skipSpace r = .char ',' :: after ∧
            ∃ more, Yields (readItems depth (skipSpace after)) more left ∧ v :: more = items) := by
  rw [readItems]
  cases hvalue : readValue depth s with
  | error stop => simp
  | ok p =>
      obtain ⟨v, r⟩ := p
      simp only [yields_ok, and_assoc, exists_and_left, exists_eq_left']
      split
      · rename_i after hafter
        simp [hafter]
      · rename_i after hafter
        cases hmore : readItems depth (skipSpace after) with
        | error stop => simp [hafter, hmore]
        | ok q => simp [hafter, hmore, and_assoc, and_comm]
      · rename_i hclose hcomma
        have hclose : ∀ after, skipSpace r.1 ≠ .char ']' :: after := hclose
        have hcomma : ∀ after, skipSpace r.1 ≠ .char ',' :: after := hcomma
        simp [hclose, hcomma]

/-- A name, a colon and a value were read after the quote in front of the name. -/
def YieldsField (depth : Nat) (s : List CodePoint) (name : Text) (v : Value)
    (left : List CodePoint) : Prop :=
  ∃ r, Yields (readString (s.length + 1) [] s) name r ∧
    ∃ after, skipSpace r = .char ':' :: after ∧ Yields (readValue depth (skipSpace after)) v left

theorem yields_readFields :
    Yields (readFields depth fields (.char '"' :: s)) all left ↔
      ∃ name v r, YieldsField depth s name v r ∧
        ((setField fields name v = all ∧ skipSpace r = .char '\x7d' :: left) ∨
          ∃ after, skipSpace r = .char ',' :: after ∧
            Yields (readFields depth (setField fields name v) (skipSpace after)) all left) := by
  simp only [YieldsField]
  rw [readFields]
  cases hname : readString (s.length + 1) [] s with
  | error stop => simp
  | ok p =>
      obtain ⟨name, r⟩ := p
      simp only [yields_ok, and_assoc, exists_and_left, exists_eq_left']
      split
      · rename_i after hafter
        simp only [hafter, List.cons.injEq, true_and, exists_eq_left']
        cases hvalue : readValue depth (skipSpace after) with
        | error stop => simp
        | ok p =>
            obtain ⟨v, q⟩ := p
            simp only [yields_ok, and_assoc, exists_and_left, exists_eq_left']
            split
            · rename_i rest hrest
              simp [hrest]
            · rename_i rest hrest
              cases hmore : readFields depth (setField fields name v) (skipSpace rest) with
              | error stop => simp [hrest, hmore]
              | ok q => simp [hrest, hmore]
            · rename_i hclose hcomma
              have hclose : ∀ after, skipSpace q.1 ≠ .char '\x7d' :: after := hclose
              have hcomma : ∀ after, skipSpace q.1 ≠ .char ',' :: after := hcomma
              simp [hclose, hcomma]
      · rename_i hcolon
        have hcolon : ∀ after, skipSpace r.1 ≠ .char ':' :: after := hcolon
        simp [hcolon]

theorem not_yields_readFields_nil : ¬ Yields (readFields depth fields []) all left := by
  rw [readFields]
  · exact not_yields_error
  all_goals simp

theorem not_yields_readFields (hc : c ≠ .char '"') :
    ¬ Yields (readFields depth fields (c :: s)) all left := by
  rw [readFields]
  · exact not_yields_error
  all_goals simp [hc]

end

end TraceExplorer.Json
