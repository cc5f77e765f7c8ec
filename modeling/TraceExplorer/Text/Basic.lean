/-!
# Texts

A text is a list of code points. It may hold halves of surrogate pairs, which escapes in JSON and
YAML can name one by one although they stand for no character. Texts are equal if their code
points are, and they are ordered by them.
-/

namespace TraceExplorer

/-- A code point: a character, or half of a surrogate pair. The halves are counted from U+D800. -/
inductive CodePoint where
  | char (c : Char)
  | surrogate (half : Fin 0x800)
  deriving DecidableEq, Repr

namespace CodePoint

def code : CodePoint → Nat
  | char c => c.toNat
  | surrogate half => 0xD800 + half.val

def ofNat (n : Nat) : CodePoint :=
  if h : 0xD800 ≤ n ∧ n < 0xE000 then surrogate ⟨n - 0xD800, by omega⟩ else char (Char.ofNat n)

/-- The character that stands for a code point where only characters can stand. -/
def shown : CodePoint → Char
  | char c => c
  | surrogate _ => '\uFFFD'

def char? : CodePoint → Option Char
  | char c => some c
  | surrogate _ => none

def isChar (p : Char → Bool) : CodePoint → Bool
  | char c => p c
  | surrogate _ => false

theorem code_injective {a b : CodePoint} (h : a.code = b.code) : a = b := by
  have outside (c : Char) (half : Fin 0x800) : c.toNat ≠ 0xD800 + half.val := by
    have valid : c.val.toNat < 0xD800 ∨ 0xDFFF < c.val.toNat ∧ c.val.toNat < 0x110000 := c.valid
    have := half.isLt
    simp only [Char.toNat]
    omega
  cases a with
  | char c =>
    cases b with
    | char d => exact congrArg char (Char.ext (UInt32.toNat_inj.1 h))
    | surrogate half => exact absurd h (outside c half)
  | surrogate half =>
    cases b with
    | char d => exact absurd h.symm (outside d half)
    | surrogate other =>
      simp only [code, Nat.add_left_cancel_iff] at h
      exact congrArg surrogate (Fin.ext h)

end CodePoint

structure Text where
  points : List CodePoint
  deriving DecidableEq, Repr, Inhabited

namespace Text

def ofChars (s : List Char) : Text := ⟨s.map .char⟩

def ofString (s : String) : Text := ofChars s.toList

instance : Coe String Text := ⟨ofString⟩

instance : Append Text := ⟨fun s t => ⟨s.points ++ t.points⟩⟩

def empty : Text := ⟨[]⟩

def isEmpty (s : Text) : Bool := s.points.isEmpty

def length (s : Text) : Nat := s.points.length

def chars? (s : Text) : Option (List Char) := s.points.mapM (·.char?)

/-- The text as a string in which half of a surrogate pair is shown as a replacement character. -/
def shown (s : Text) : String := String.ofList (s.points.map (·.shown))

def padLeft (fill : Char) (width : Nat) (s : Text) : Text :=
  ⟨List.replicate (width - s.length) (.char fill) ++ s.points⟩

theorem chars?_ofChars (s : List Char) : (ofChars s).chars? = some s := by
  induction s with
  | nil => rfl
  | cons c rest ih =>
    simp only [chars?, ofChars, List.map_cons] at ih ⊢
    rw [List.mapM_cons, ih]
    rfl

theorem ofChars_injective {s t : List Char} (h : ofChars s = ofChars t) : s = t := by
  have hchars := congrArg chars? h
  rw [chars?_ofChars, chars?_ofChars] at hchars
  exact Option.some.inj hchars

theorem padLeft_ofChars (fill : Char) (width : Nat) (s : List Char) :
    (ofChars s).padLeft fill width = ofChars (List.replicate (width - s.length) fill ++ s) := by
  rw [padLeft, ofChars, ofChars, List.map_append, List.map_replicate, length, List.length_map]

/-! ## Order -/

/-- The first difference decides, and the start of a text comes before it. -/
def pointsLe : List CodePoint → List CodePoint → Bool
  | [], _ => true
  | _ :: _, [] => false
  | a :: as, b :: bs => a.code < b.code || (a.code == b.code && pointsLe as bs)

instance : LE Text := ⟨fun s t => pointsLe s.points t.points = true⟩

instance (s t : Text) : Decidable (s ≤ t) := inferInstanceAs (Decidable (_ = true))

theorem pointsLe_cons_iff {a b : CodePoint} {as bs : List CodePoint} :
    pointsLe (a :: as) (b :: bs) ↔ a.code < b.code ∨ a.code = b.code ∧ pointsLe as bs := by
  simp [pointsLe]

theorem pointsLe_total (s t : List CodePoint) : pointsLe s t ∨ pointsLe t s := by
  induction s generalizing t with
  | nil => exact Or.inl rfl
  | cons a as ih =>
    cases t with
    | nil => exact Or.inr rfl
    | cons b bs =>
      rw [pointsLe_cons_iff, pointsLe_cons_iff]
      rcases Nat.lt_trichotomy a.code b.code with h | h | h
      · exact Or.inl (Or.inl h)
      · exact (ih bs).imp (fun le => Or.inr ⟨h, le⟩) fun le => Or.inr ⟨h.symm, le⟩
      · exact Or.inr (Or.inl h)

theorem pointsLe_trans {s t u : List CodePoint} (h : pointsLe s t) (k : pointsLe t u) :
    pointsLe s u := by
  induction s generalizing t u with
  | nil => rfl
  | cons a as ih =>
    cases t with
    | nil => simp [pointsLe] at h
    | cons b bs =>
      cases u with
      | nil => simp [pointsLe] at k
      | cons c cs =>
        rw [pointsLe_cons_iff] at h k ⊢
        rcases h with h | ⟨h, le⟩
        · rcases k with k | ⟨k, _⟩
          · exact Or.inl (Nat.lt_trans h k)
          · exact Or.inl (k ▸ h)
        · rcases k with k | ⟨k, le'⟩
          · exact Or.inl (h ▸ k)
          · exact Or.inr ⟨h.trans k, ih le le'⟩

theorem pointsLe_antisymm {s t : List CodePoint} (h : pointsLe s t) (k : pointsLe t s) :
    s = t := by
  induction s generalizing t with
  | nil =>
    cases t with
    | nil => rfl
    | cons b bs => simp [pointsLe] at k
  | cons a as ih =>
    cases t with
    | nil => simp [pointsLe] at h
    | cons b bs =>
      rw [pointsLe_cons_iff] at h k
      rcases h with h | ⟨h, le⟩
      · rcases k with k | ⟨k, _⟩
        · exact absurd h (Nat.lt_asymm k)
        · exact absurd k (Nat.ne_of_gt h)
      · rcases k with k | ⟨_, le'⟩
        · exact absurd h (Nat.ne_of_gt k)
        · rw [CodePoint.code_injective h, ih le le']

theorem le_total (s t : Text) : s ≤ t ∨ t ≤ s := pointsLe_total s.points t.points

theorem le_trans {s t u : Text} (h : s ≤ t) (k : t ≤ u) : s ≤ u := pointsLe_trans h k

theorem le_antisymm {s t : Text} (h : s ≤ t) (k : t ≤ s) : s = t := by
  cases s
  cases t
  exact congrArg Text.mk (pointsLe_antisymm h k)

end Text

end TraceExplorer
