import Mathlib.Data.List.Basic
import TraceExplorer.Proofs.Json.Taking

/-!
# Reading and the text behind it

What a reader took of a text it takes of every longer text too. The proof follows the readers: one
lemma for each, and one induction on the length of the text for all of them. Hence a text that
starts with a brace and is read as a whole is no part of a longer text that is read.
-/

namespace TraceExplorer.Json

section

variable {depth opened : Nat} {taken s r rest left w : List CodePoint} {t : Text} {v : Value}
  {items : List Value} {fields all : List (Text × Value)} {c : CodePoint}

/-- A reader took permitted code points, and takes the same with more text behind them. -/
structure Settled (reads : List CodePoint → List CodePoint → Prop) (s left : List CodePoint) :
    Prop where
  consumes : Consumes s left
  append : ∀ w, reads (s ++ w) (left ++ w)

/-! ## Strings -/

/-- In a string that ends, no part of an escape is followed by more text. -/
theorem readCodeEscape_append_of_yields {width : Nat} (h : readCodeEscape s = .ok (c, width))
    (hread : Yields (readString opened taken (s.drop width)) t left) :
    readCodeEscape (s ++ w) = .ok (c, width) := by
  apply readCodeEscape_append h
  by_contra hnext
  rw [not_or, not_not] at hnext
  obtain ⟨hshort, hslash, hu⟩ := hnext
  obtain ⟨hlength, high, -, rfl | ⟨-, hlong, -⟩⟩ := readCodeEscape_spec h
  · match s, hlength with
    | [_, _, _, _, d], _ =>
        obtain rfl := Option.some.inj hslash
        exact not_yields_readString_backslash hread
    | _ :: _ :: _ :: _ :: d :: e :: rest, _ =>
        obtain rfl := Option.some.inj hslash
        obtain rfl := Option.some.inj hu
        obtain ⟨c', width, hcode, -⟩ := yields_readString_codeEscape.mp hread
        obtain ⟨hrest, -⟩ := readCodeEscape_spec hcode
        apply hshort
        simp only [List.length_cons]
        omega
  · exact hshort hlong

abbrev StringSettles (taken : List CodePoint) (t : Text) : List CodePoint → List CodePoint → Prop :=
  Settled fun s left => ∀ opened, Yields (readString opened taken s) t left

theorem stringSettles_quote : StringSettles taken ⟨taken.reverse⟩ (.char '"' :: rest) rest := by
  refine ⟨(Consumes.refl rest).cons (by decide), fun w opened => ?_⟩
  exact yields_readString_quote.mpr ⟨rfl, rfl⟩

theorem stringSettles_codeEscape {width : Nat} (hcode : readCodeEscape rest = .ok (c, width))
    (hread : Yields (readString opened (c :: taken) (rest.drop width)) t left)
    (hrest : StringSettles (c :: taken) t (rest.drop width) left) :
    StringSettles taken t (.char '\\' :: .char 'u' :: rest) left := by
  have htaken := (consumes_readCodeEscape hcode).trans hrest.consumes
  refine ⟨(htaken.cons (by decide)).cons (by decide), fun w opened => ?_⟩
  rw [List.cons_append, List.cons_append, yields_readString_codeEscape]
  refine ⟨c, width, readCodeEscape_append_of_yields hcode hread, ?_⟩
  rw [List.drop_append_of_le_length (width_le_of_readCodeEscape hcode)]
  exact hrest.append w opened

theorem stringSettles_escape {e : Char} (hc : c ≠ .char 'u')
    (he : c.char?.bind shortEscape? = some e)
    (hrest : StringSettles (.char e :: taken) t rest left) :
    StringSettles taken t (.char '\\' :: c :: rest) left := by
  have hpermitted := permitted_of_shortEscape? he
  refine ⟨(hrest.consumes.cons hpermitted).cons (by decide), fun w opened => ?_⟩
  exact (yields_readString_escape hc).mpr ⟨e, he, hrest.append w opened⟩

theorem stringSettles_plain (hquote : c ≠ .char '"') (hslash : c ≠ .char '\\')
    (hc : 0x20 ≤ c.code) (hrest : StringSettles (c :: taken) t rest left) :
    StringSettles taken t (c :: rest) left := by
  refine ⟨hrest.consumes.cons (.inr hc), fun w opened => ?_⟩
  exact (yields_readString_plain hquote hslash).mpr ⟨hc, hrest.append w opened⟩

theorem settled_readString (h : Yields (readString opened taken s) t left) :
    StringSettles taken t s left := by
  -- an escape takes more than one code point, hence the induction on the length
  induction hlength : s.length using Nat.strong_induction_on generalizing s taken with
  | _ n ih =>
      subst hlength
      match s with
      | [] => exact absurd h not_yields_readString_nil
      | c :: rest =>
          by_cases hquote : c = .char '"'
          · subst hquote
            obtain ⟨rfl, rfl⟩ := yields_readString_quote.mp h
            exact stringSettles_quote
          by_cases hslash : c = .char '\\'
          · subst hslash
            match rest with
            | [] => exact absurd h not_yields_readString_backslash
            | d :: rest =>
                by_cases hu : d = .char 'u'
                · subst hu
                  obtain ⟨c, width, hcode, hread⟩ := yields_readString_codeEscape.mp h
                  have hshorter : (rest.drop width).length < rest.length + 1 + 1 := by
                    rw [List.length_drop]
                    omega
                  exact stringSettles_codeEscape hcode hread (ih _ hshorter hread rfl)
                · obtain ⟨e, he, hread⟩ := (yields_readString_escape hu).mp h
                  have hshorter : rest.length < rest.length + 1 + 1 := by omega
                  exact stringSettles_escape hu he (ih _ hshorter hread rfl)
          · obtain ⟨hc, hread⟩ := (yields_readString_plain hquote hslash).mp h
            have hshorter : rest.length < rest.length + 1 := by omega
            exact stringSettles_plain hquote hslash hc (ih _ hshorter hread rfl)

/-! ## Values -/

/-- What is read as a value is settled, unless it is a part of a longer word or number. -/
def ValuesSettle (s : List CodePoint) : Prop :=
  ∀ {depth v left}, Yields (readValue depth s) v left →
    Consumes s left ∧ ((∃ c ∈ s, c.isChar isAtomChar = false) →
      ∀ w, Yields (readValue depth (s ++ w)) v (left ++ w))

def ItemsSettle (s : List CodePoint) : Prop :=
  ∀ {depth items left}, Yields (readItems depth s) items left →
    Settled (fun s left => Yields (readItems depth s) items left) s left

def FieldsSettle (s : List CodePoint) : Prop :=
  ∀ {depth fields all left}, Yields (readFields depth fields s) all left →
    Settled (fun s left => Yields (readFields depth fields s) all left) s left

theorem valuesSettle (ih : ∀ r, r.length < s.length → ItemsSettle r ∧ FieldsSettle r) :
    ValuesSettle s := by
  intro depth v left h
  match s with
  | [] => exact absurd h not_yields_readValue_nil
  | c :: rest =>
      have hspace : (skipSpace rest).length < (c :: rest).length :=
        Nat.lt_succ_of_le (length_skipSpace_le rest)
      by_cases hquote : c = .char '"'
      · subst hquote
        obtain ⟨t, hread, rfl⟩ := yields_readValue_text.mp h
        have hsettled := settled_readString hread
        refine ⟨hsettled.consumes.cons (by decide), fun _ w => ?_⟩
        exact yields_readValue_text.mpr ⟨t, hsettled.append w _, rfl⟩
      by_cases hlist : c = .char '['
      · subst hlist
        obtain ⟨hdepth, ⟨rfl, hclose⟩ | ⟨hopen, items, hread, rfl⟩⟩ := yields_readValue_list.mp h
        · refine ⟨(consumes_of_skipSpace hclose (by decide)).cons (by decide), fun _ w => ?_⟩
          exact yields_readValue_list.mpr ⟨hdepth, .inl ⟨rfl, skipSpace_append_cons hclose⟩⟩
        · have hsettled := (ih _ hspace).1 hread
          have hconsumes := (consumes_skipSpace rest).trans hsettled.consumes
          refine ⟨hconsumes.cons (by decide), fun _ w => ?_⟩
          rw [List.cons_append, yields_readValue_list]
          refine ⟨hdepth, .inr ?_⟩
          rw [skipSpace_append hread.ne_nil, List.head?_append_of_ne_nil _ hread.ne_nil]
          exact ⟨hopen, items, hsettled.append w, rfl⟩
      by_cases hobject : c = .char '\x7b'
      · subst hobject
        obtain ⟨hdepth, ⟨rfl, hclose⟩ | ⟨hopen, fields, hread, rfl⟩⟩ :=
          yields_readValue_object.mp h
        · refine ⟨(consumes_of_skipSpace hclose (by decide)).cons (by decide), fun _ w => ?_⟩
          exact yields_readValue_object.mpr ⟨hdepth, .inl ⟨rfl, skipSpace_append_cons hclose⟩⟩
        · have hsettled := (ih _ hspace).2 hread
          have hconsumes := (consumes_skipSpace rest).trans hsettled.consumes
          refine ⟨hconsumes.cons (by decide), fun _ w => ?_⟩
          rw [List.cons_append, yields_readValue_object]
          refine ⟨hdepth, .inr ?_⟩
          rw [skipSpace_append hread.ne_nil, List.head?_append_of_ne_nil _ hread.ne_nil]
          exact ⟨hopen, fields, hsettled.append w, rfl⟩
      · obtain ⟨hatom, hlength⟩ := (yields_readValue_atom hquote hlist hobject).mp h
        refine ⟨consumes_readAtom hatom, fun hstop w => ?_⟩
        rw [List.cons_append, yields_readValue_atom hquote hlist hobject, ← List.cons_append]
        refine ⟨readAtom_append hatom hstop, ?_⟩
        rw [List.length_append, List.length_append]
        exact Nat.add_lt_add_right hlength _

theorem itemsSettle (hs : ValuesSettle s) (ih : ∀ r, r.length < s.length → ItemsSettle r) :
    ItemsSettle s := by
  intro depth items left h
  obtain ⟨v, r, hvalue, hnext⟩ := yields_readItems.mp h
  obtain ⟨hconsumes, happend⟩ := hs hvalue
  obtain ⟨rfl, hclose⟩ | ⟨after, hcomma, more, hmore, rfl⟩ := hnext
  · refine ⟨hconsumes.trans (consumes_of_skipSpace hclose (by decide)), fun w => ?_⟩
    have hstop := hconsumes.mem (mem_of_skipSpace hclose)
    exact yields_readItems.mpr
      ⟨v, r ++ w, happend ⟨_, hstop, by decide⟩ w, .inl ⟨rfl, skipSpace_append_cons hclose⟩⟩
  · have hlength : (skipSpace after).length < s.length :=
      (length_skipSpace_le after).trans_lt
        ((length_lt_of_skipSpace hcomma).trans hvalue.length_lt)
    have hsettled := ih _ hlength hmore
    have hmoreConsumes := (consumes_skipSpace after).trans hsettled.consumes
    refine ⟨hconsumes.trans ((consumes_of_skipSpace hcomma (by decide)).trans hmoreConsumes),
      fun w => ?_⟩
    have hstop := hconsumes.mem (mem_of_skipSpace hcomma)
    refine yields_readItems.mpr ⟨v, r ++ w, happend ⟨_, hstop, by decide⟩ w,
      .inr ⟨after ++ w, skipSpace_append_cons hcomma, more, ?_, rfl⟩⟩
    rw [skipSpace_append hmore.ne_nil]
    exact hsettled.append w

/-- A field is settled if what is left tells where its value ends. -/
theorem settled_yieldsField (ih : ∀ r, r.length ≤ s.length → ValuesSettle r) {depth : Nat}
    {name : Text} {v : Value} {left : List CodePoint} (h : YieldsField depth s name v left) :
    left.length < s.length ∧ Consumes s left ∧ ((∃ c ∈ left, c.isChar isAtomChar = false) →
      ∀ w, YieldsField depth (s ++ w) name v (left ++ w)) := by
  obtain ⟨r, hname, after, hcolon, hvalue⟩ := h
  have hafter : (skipSpace after).length < s.length :=
    (length_skipSpace_le after).trans_lt
      ((length_lt_of_skipSpace hcolon).trans hname.length_lt)
  have hsettled := settled_readString hname
  obtain ⟨hconsumes, happend⟩ := ih _ hafter.le hvalue
  refine ⟨hvalue.length_lt.trans hafter, ?_, fun hstop w => ?_⟩
  · have hcolonConsumes : Consumes r after := consumes_of_skipSpace hcolon (by decide)
    exact hsettled.consumes.trans
      (hcolonConsumes.trans ((consumes_skipSpace after).trans hconsumes))
  · obtain ⟨c, hc, hatom⟩ := hstop
    refine ⟨r ++ w, hsettled.append w _, after ++ w, skipSpace_append_cons hcolon, ?_⟩
    rw [skipSpace_append hvalue.ne_nil]
    exact happend ⟨c, hconsumes.mem hc, hatom⟩ w

theorem fieldsSettle (ih : ∀ r, r.length < s.length → ValuesSettle r ∧ FieldsSettle r) :
    FieldsSettle s := by
  intro depth fields all left h
  match s with
  | [] => exact absurd h not_yields_readFields_nil
  | c :: start =>
      by_cases hquote : c = .char '"'
      · subst hquote
        obtain ⟨name, v, r, hfield, hnext⟩ := yields_readFields.mp h
        obtain ⟨hlength, hstart, happend⟩ :=
          settled_yieldsField (fun r hr => (ih r (Nat.lt_succ_of_le hr)).1) hfield
        have hconsumes : Consumes (.char '"' :: start) r := hstart.cons (by decide)
        obtain ⟨rfl, hclose⟩ | ⟨after, hcomma, hmore⟩ := hnext
        · refine ⟨hconsumes.trans (consumes_of_skipSpace hclose (by decide)), fun w => ?_⟩
          have hfieldAppend := happend ⟨_, mem_of_skipSpace hclose, by decide⟩ w
          rw [List.cons_append, yields_readFields]
          exact ⟨name, v, r ++ w, hfieldAppend, .inl ⟨rfl, skipSpace_append_cons hclose⟩⟩
        · have hafter : (skipSpace after).length < (CodePoint.char '"' :: start).length :=
            (length_skipSpace_le after).trans_lt
              ((length_lt_of_skipSpace hcomma).trans (Nat.lt_succ_of_lt hlength))
          have hsettled := (ih _ hafter).2 hmore
          have hmoreConsumes := (consumes_skipSpace after).trans hsettled.consumes
          refine ⟨hconsumes.trans ((consumes_of_skipSpace hcomma (by decide)).trans hmoreConsumes),
            fun w => ?_⟩
          have hfieldAppend := happend ⟨_, mem_of_skipSpace hcomma, by decide⟩ w
          rw [List.cons_append, yields_readFields]
          refine ⟨name, v, r ++ w, hfieldAppend,
            .inr ⟨after ++ w, skipSpace_append_cons hcomma, ?_⟩⟩
          rw [skipSpace_append hmore.ne_nil]
          exact hsettled.append w
      · exact absurd h (not_yields_readFields hquote)

/-- What any reader takes is settled. -/
theorem reading_settles (s : List CodePoint) : ValuesSettle s ∧ ItemsSettle s ∧ FieldsSettle s := by
  induction hlength : s.length using Nat.strong_induction_on generalizing s with
  | _ n ih =>
      subst hlength
      have hshorter (r : List CodePoint) (hr : r.length < s.length) :
          ValuesSettle r ∧ ItemsSettle r ∧ FieldsSettle r := ih _ hr r rfl
      have hvalues : ValuesSettle s := valuesSettle fun r hr => (hshorter r hr).2
      refine ⟨hvalues, itemsSettle hvalues fun r hr => (hshorter r hr).2.1, fieldsSettle ?_⟩
      exact fun r hr => ⟨(hshorter r hr).1, (hshorter r hr).2.2⟩

/-! ## Whole texts -/

theorem read_eq_ok_iff {source : Text} :
    read source = .ok v ↔ source.points.head? ≠ some (.char '\uFEFF') ∧
      ∃ left, Yields (readValue depthLimit (skipSpace source.points)) v left ∧
        skipSpace left = [] := by
  rw [read]
  split
  · rename_i hmark
    simp [hmark]
  · rename_i hmark
    cases hvalue : readValue depthLimit (skipSpace source.points) with
    | error stop => simp
    | ok p =>
        obtain ⟨w, r⟩ := p
        simp only [hmark, not_false_eq_true, true_and, ne_eq, yields_ok, and_assoc,
          exists_and_left, exists_eq_left']
        split
        · rename_i hend
          simp [hend]
        · rename_i hend
          have hend : skipSpace r.1 ≠ [] := hend
          simp [hend]

/-- A text that is read has no control characters but white space. -/
theorem permitted_of_read {source : Text} (h : read source = .ok v) :
    ∀ c ∈ source.points, Permitted c := by
  obtain ⟨-, left, hvalue, hleft⟩ := read_eq_ok_iff.mp h
  have hend := consumes_skipSpace left
  rw [hleft] at hend
  obtain ⟨all, hall, hpermitted⟩ := (consumes_skipSpace source.points).trans
    (((reading_settles _).1 hvalue).1.trans hend)
  rw [hall, List.append_nil]
  exact hpermitted

theorem head?_of_yields_object (h : Yields (readValue depth s) (.object fields) left) :
    s.head? = some (.char '\x7b') := by
  match s with
  | [] => exact absurd h not_yields_readValue_nil
  | c :: rest =>
      by_cases hquote : c = .char '"'
      · subst hquote
        obtain ⟨t, -, ht⟩ := yields_readValue_text.mp h
        cases ht
      by_cases hlist : c = .char '['
      · subst hlist
        obtain ⟨-, ⟨hv, -⟩ | ⟨-, items, -, hv⟩⟩ := yields_readValue_list.mp h <;> cases hv
      by_cases hobject : c = .char '\x7b'
      · rw [hobject]
        rfl
      · exact absurd ((yields_readValue_atom hquote hlist hobject).mp h).1 readAtom_ne_object

theorem head?_of_read_object {source : Text} (h : read source = .ok (.object fields))
    (hspace : ∀ c ∈ source.points.head?, ¬ c.isChar isSpace) :
    source.points.head? = some (.char '\x7b') := by
  obtain ⟨-, left, hvalue, -⟩ := read_eq_ok_iff.mp h
  have hskip : skipSpace source.points = source.points := by
    cases hsource : source.points with
    | nil => rfl
    | cons c rest =>
        rw [hsource] at hspace
        exact skipSpace_cons_of_neg (hspace c rfl)
  rw [hskip] at hvalue
  exact head?_of_yields_object hvalue

/-- After an object, no more than white space can follow. -/
theorem skipSpace_of_read_append {v' : Value} (hhead : s.head? = some (.char '\x7b'))
    (h : read ⟨s⟩ = .ok v) (h' : read ⟨s ++ w⟩ = .ok v') : skipSpace w = [] := by
  obtain ⟨rest, rfl⟩ := List.head?_eq_some_iff.mp hhead
  rw [List.cons_append] at h'
  obtain ⟨-, left, hvalue, hleft⟩ := read_eq_ok_iff.mp h
  obtain ⟨-, left', hvalue', hleft'⟩ := read_eq_ok_iff.mp h'
  rw [skipSpace_cons_of_neg (by decide)] at hvalue hvalue'
  have hmore := ((reading_settles _).1 hvalue).2 ⟨_, List.mem_cons_self, by decide⟩ w
  rw [List.cons_append] at hmore
  obtain ⟨-, rfl⟩ := hmore.unique hvalue'
  rwa [skipSpace_append_of_nil hleft] at hleft'

end

end TraceExplorer.Json
