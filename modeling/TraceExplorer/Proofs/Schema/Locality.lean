import TraceExplorer.Proofs.Schema.Documents

/-!
# Documents are checked span by span

What is found in a document is what is found in each of its spans on its own, one after the other,
with the path of the span in front. This is so also where one result is written while the spans are
checked, in which a flag and the list of findings are kept apart: the flag stays up exactly as long
as nothing is found.
-/

namespace TraceExplorer.Schema

open Json (Value)

/-- A finding in a span that stands at a place of a document: the place takes that of the dollar
sign in front of its path. -/
def Finding.movedTo (place : String) (f : Finding) : Finding :=
  { f with path := place ++ String.ofList f.path.toList.tail }

/-- The spans that an item of a list stands for, with their places: the items of a list, or the item
itself. -/
def placedSpansOfItem : Value × Nat → List (String × Value)
  | (.list spans, i) =>
    spans.zipIdx.map fun (span, j) => ("$[" ++ toString i ++ "][" ++ toString j ++ "]", span)
  | (span, i) => [("$[" ++ toString i ++ "]", span)]

def placedSpans (items : List Value) : List (String × Value) :=
  items.zipIdx.flatMap placedSpansOfItem

structure Draft where
  valid : Bool := true
  spanCount : Nat := 0
  findings : List Finding := []

abbrev Checking := StateM Draft

namespace Checking

def report (f : Finding) : Checking Unit :=
  modify fun d => { d with valid := false, findings := d.findings ++ [f] }

def checkSpan (place : List PathStep) (span : Value) : Checking Unit := do
  modify fun d => { d with spanCount := d.spanCount + 1 }
  forM (checkAll spanSchema span) fun violation =>
    report ⟨pathText (place ++ violation.path), violation.message, none⟩

def checkItem (item : Value × Nat) : Checking Unit :=
  match item.1 with
  | .list spans => forM spans.zipIdx fun (span, j) => checkSpan [.index item.2, .index j] span
  | span => checkSpan [.index item.2] span

def checkDocument : Value → Checking Unit
  | .object fields => checkSpan [] (.object fields)
  | .list items => forM items.zipIdx checkItem
  | v => report ⟨"$", "Expected a span object or a list, got " ++ v.kindName, none⟩

end Checking

/-- A draft says the same as a result. Its flag is up if nothing was found. -/
structure Draft.Agrees (d : Draft) (v : Validation) : Prop where
  valid : d.valid = v.isValid
  spanCount : d.spanCount = v.spanCount
  findings : d.findings = v.findings

section

variable {v : Validation} {d : Draft} {f : Finding} {path place : List PathStep}
  {span : Value} {α : Type}

/-! ## Paths -/

theorem toList_intercalate_empty (l : List String) :
    ("".intercalate l).toList = l.flatMap (·.toList) := by
  rw [String.toList_intercalate, String.toList_empty]
  induction l with
  | nil => rfl
  | cons s rest ih =>
      cases rest with
      | nil => simp
      | cons s' rest =>
          rw [List.map_cons, List.map_cons, List.intercalate_cons_cons, ← List.map_cons, ih]
          simp

/-- A path below a place is written behind the place, less its dollar sign. -/
theorem exists_toList_pathText (place path : List PathStep) :
    ∃ rest, (pathText path).toList = '$' :: rest ∧
      (pathText (place ++ path)).toList = (pathText place).toList ++ rest := by
  refine ⟨("".intercalate _).toList, String.toList_append, ?_⟩
  simp only [pathText, String.toList_append, toList_intercalate_empty, List.map_append,
    List.flatMap_append, List.append_assoc]

theorem pathText_append (place path : List PathStep) :
    pathText (place ++ path) = pathText place ++ String.ofList (pathText path).toList.tail := by
  obtain ⟨rest, hrest, hmoved⟩ := exists_toList_pathText place path
  rw [← String.toList_inj, hmoved, String.toList_append, hrest, List.tail_cons,
    String.toList_ofList]

theorem exists_path_of_mem_ofSpan (h : f ∈ (Validation.ofSpan span).findings) :
    ∃ rest, f.path = "$" ++ rest := by
  obtain ⟨violation, -, rfl⟩ := List.mem_map.mp h
  exact ⟨_, rfl⟩

/-! ## Spans at their places -/

namespace Validation

theorem findings_addSpan (v : Validation) (place : List PathStep) (span : Value) :
    (v.addSpan place none span).findings =
      v.findings ++ (ofSpan span).findings.map (·.movedTo (pathText place)) := by
  simp only [addSpan, ofSpan, List.nil_append, List.map_map, pathText_append place]
  rfl

/-- Spans were checked at their places on the way from one result to another. -/
structure Lists (placed : List (String × Value)) (before after : Validation) : Prop where
  spanCount : after.spanCount = before.spanCount + placed.length
  findings : after.findings = before.findings ++
    placed.flatMap fun p => (ofSpan p.2).findings.map (·.movedTo p.1)

theorem composes_lists : Composes Lists where
  refl v := ⟨rfl, (List.append_nil _).symm⟩
  trans h h' := by
    constructor
    · rw [h'.spanCount, h.spanCount, List.length_append, Nat.add_assoc]
    · rw [h'.findings, h.findings, List.flatMap_append, List.append_assoc]

theorem lists_addSpan (v : Validation) (place : List PathStep) (span : Value) :
    Lists [(pathText place, span)] v (v.addSpan place none span) := by
  refine ⟨rfl, ?_⟩
  rw [findings_addSpan, List.flatMap_singleton]

theorem pathText_item (i : Nat) : pathText [.index i] = "$[" ++ toString i ++ "]" := by
  rw [← String.toList_inj]
  simp [pathText]

theorem pathText_item_item (i j : Nat) :
    pathText [.index i, .index j] = "$[" ++ toString i ++ "][" ++ toString j ++ "]" := by
  rw [← String.toList_inj]
  simp [pathText]

theorem lists_addSpan_item (v : Validation) (i : Nat) (span : Value) :
    Lists [("$[" ++ toString i ++ "]", span)] v (v.addSpan [.index i] none span) := by
  rw [← pathText_item]
  exact lists_addSpan v _ span

theorem lists_addItem (v : Validation) (item : Value × Nat) :
    Lists (placedSpansOfItem item) v (v.addItem item) := by
  obtain ⟨item, i⟩ := item
  cases item with
  | list spans =>
      have hall : Lists _ v
          (spans.zipIdx.foldl (fun v p => v.addSpan [.index i, .index p.2] none p.1) v) :=
        composes_lists.foldl _ (fun v p => lists_addSpan v [.index i, .index p.2] p.1) v
      simp only [pathText_item_item] at hall
      rwa [← List.map_eq_flatMap] at hall
  | _ => exact lists_addSpan_item v i _

theorem lists_ofItems (filePath : String) (items : List Value) :
    Lists (placedSpans items) { filePath } (ofJson filePath (.list items)) :=
  composes_lists.foldl _ lists_addItem _

end Validation

/-! ## Drafts -/

namespace Checking

/-- A part of a check changes a draft as a function changes a result. -/
def Follows (c : Checking Unit) (change : Validation → Validation) : Prop :=
  ∀ d v, Draft.Agrees d v → (c.run d).2.Agrees (change v)

theorem run_forM_report (violations : List Violation) (f : Violation → Finding) (d : Draft) :
    (forM violations fun violation => report (f violation)).run d =
      ((), { d with
        valid := d.valid && violations.isEmpty
        findings := d.findings ++ violations.map f }) := by
  induction violations generalizing d with
  | nil =>
      rw [List.isEmpty_nil, Bool.and_true, List.map_nil, List.append_nil]
      rfl
  | cons violation rest ih =>
      have hfirst : (report (f violation)).run d =
          ((), { d with valid := false, findings := d.findings ++ [f violation] }) := rfl
      change (report (f violation) >>= fun _ => forM rest _).run d = _
      rw [StateT.run_bind, hfirst]
      refine (ih _).trans ?_
      simp

theorem follows_forM {l : List α} {part : α → Checking Unit}
    {change : Validation → α → Validation} (h : ∀ a, Follows (part a) fun v => change v a) :
    Follows (forM l part) fun v => l.foldl change v := by
  induction l with
  | nil => exact fun _ _ h => h
  | cons a rest ih =>
      intro d v hagrees
      exact ih _ _ (h a d v hagrees)

theorem run_checkSpan (place : List PathStep) (span : Value) (d : Draft) :
    (checkSpan place span).run d = ((), {
      valid := d.valid && (checkAll spanSchema span).isEmpty
      spanCount := d.spanCount + 1
      findings := d.findings ++ (checkAll spanSchema span).map fun violation =>
        ⟨pathText (place ++ violation.path), violation.message, none⟩ }) :=
  run_forM_report _ _ { d with spanCount := d.spanCount + 1 }

theorem follows_checkSpan (place : List PathStep) (span : Value) :
    Follows (checkSpan place span) fun v => v.addSpan place none span := by
  rintro d v ⟨hvalid, hcount, hfindings⟩
  rw [run_checkSpan]
  refine ⟨?_, ?_, ?_⟩
  · rw [Bool.eq_iff_iff]
    simp [hvalid, Validation.isValid, Validation.addSpan]
  · simp [hcount, Validation.addSpan]
  · simp [hfindings, Validation.addSpan]

theorem follows_checkItem (item : Value × Nat) :
    Follows (checkItem item) fun v => v.addItem item := by
  obtain ⟨v, i⟩ := item
  cases v with
  | list spans => exact follows_forM fun p => follows_checkSpan _ _
  | _ => exact follows_checkSpan _ _

theorem agrees_checkDocument (filePath : String) (v : Value) :
    ((checkDocument v).run {}).2.Agrees (Validation.ofJson filePath v) := by
  have hnew : Draft.Agrees {} { filePath } := ⟨rfl, rfl, rfl⟩
  cases v with
  | object fields => exact follows_checkSpan _ _ _ _ hnew
  | list items => exact follows_forM follows_checkItem _ _ hnew
  | _ => exact ⟨rfl, rfl, rfl⟩

end Checking

end

/-- What is found in a list is what is found in each of its spans, at its place, and the spans are
counted. A draft that is written while any document is checked ends with the same findings and the
same number of spans; its flag is up if nothing was found and down if something was. -/
theorem ofJson_span_by_span :
    (∀ (filePath : String) (items : List Value),
      (Validation.ofJson filePath (.list items)).findings =
        (placedSpans items).flatMap (fun p =>
          (Validation.ofSpan p.2).findings.map (·.movedTo p.1)) ∧
      (Validation.ofJson filePath (.list items)).spanCount = (placedSpans items).length) ∧
    (∀ span, ∀ f ∈ (Validation.ofSpan span).findings, ∃ rest, f.path = "$" ++ rest) ∧
    ∀ (filePath : String) (v : Value),
      let d := ((Checking.checkDocument v).run {}).2
      d.Agrees (Validation.ofJson filePath v) ∧ (d.valid ↔ d.findings = []) := by
  refine ⟨fun filePath items => ?_, fun _ _ => exists_path_of_mem_ofSpan, ?_⟩
  · obtain ⟨hcount, hfindings⟩ := Validation.lists_ofItems filePath items
    exact ⟨hfindings, hcount.trans (Nat.zero_add _)⟩
  · intro filePath v d
    have hagrees : d.Agrees _ := Checking.agrees_checkDocument filePath v
    refine ⟨hagrees, ?_⟩
    rw [hagrees.valid, Validation.isValid, List.isEmpty_iff, hagrees.findings]

/-- A span, and a list with a span whose id is no number and a value that is no span. -/
theorem ofJson_span_by_span_of_lists :
    let misnamed : Value := .object [("traceId", .text "1"), ("id", .text "zz")]
    let items : List Value :=
      [.object [("traceId", .text "1"), ("id", .text "1")], .list [misnamed, .whole 5]]
    (Validation.ofJson "t.json" (.list items)).findings =
        (placedSpans items).flatMap (fun p =>
          (Validation.ofSpan p.2).findings.map (·.movedTo p.1)) ∧
      (Validation.ofJson "t.json" (.list items)).findings.map (·.path) =
        ["$[1][0].id", "$[1][1]"] ∧
      (Validation.ofJson "t.json" (.list items)).spanCount = 3 ∧
      ∃ f ∈ (Validation.ofSpan misnamed).findings, f.path = "$.id" ∧
        ∃ rest, f.path = "$" ++ rest := by
  intro misnamed items
  obtain ⟨hlists, hdollar, -⟩ := ofJson_span_by_span
  obtain ⟨hfindings, hcount⟩ := hlists "t.json" items
  obtain ⟨f, hf, hpath⟩ : ∃ f ∈ (Validation.ofSpan misnamed).findings, f.path = "$.id" :=
    List.mem_map.mp (show "$.id" ∈ (Validation.ofSpan misnamed).findings.map (·.path) by
      decide +kernel)
  refine ⟨hfindings, by decide +kernel, hcount, f, hf, hpath, hdollar misnamed f hf⟩

end TraceExplorer.Schema
