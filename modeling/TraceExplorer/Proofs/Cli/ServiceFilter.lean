import TraceExplorer.Cli.Commands
import TraceExplorer.Proofs.Summary.Filter
import TraceExplorer.Proofs.Trace.Lines

/-!
# The service that a command looks at

Showing a tree takes the chosen service in any case, as the services of the spans are in lower case.
Ranking traces takes it as it is, so that a service in another case is as good as none.
-/

namespace TraceExplorer.Cli

def loweredName (name : String) : String := (Text.ofString name).lower.shown

def Surroundings.withService (s : Surroundings) (service : Option Text) : Surroundings :=
  { s with config := { s.config with serviceName := service } }

def listOptions (s : Surroundings) (given : Option String) : ListOptions :=
  { serviceName := chosenService s given, utc := s.config.useUtc, zone := s.host.zone }

def sayBatch (s : Surroundings) (format : OutputFormat) (batch : Batch) : Session Unit := do
  batch.notes.forM (Session.logNote s.threshold)
  batch.skipped.forM (tellSkipped s)
  let items ← Session.get batch.items
  sayItems format items batch.skipped.length

section

variable {s : Surroundings} {file given : Option String} {name : String} {service : Text}
  {path : Host.Path}

/-! ## Names -/

theorem ofString_loweredName (name : String) :
    Text.ofString (loweredName name) = (Text.ofString name).lower := by
  obtain ⟨lowered, hlowered⟩ := Text.exists_lower_ofChars name.toList
  have htext : (Text.ofString name).lower = Text.ofChars lowered := hlowered
  have hshown : (Text.ofChars lowered).shown = String.ofList lowered := by
    rw [Text.shown, Text.ofChars, List.map_map]
    exact congrArg String.ofList (List.map_id lowered)
  rw [loweredName, htext, hshown, Text.ofString, String.toList_ofList]

theorem ofString_injective {name name' : String} (h : Text.ofString name = Text.ofString name') :
    name = name' :=
  String.toList_injective (Text.ofChars_injective h)

theorem loweredName_eq_empty_iff : loweredName name = "" ↔ name = "" := by
  have hempty (name : String) : (Text.ofString name).isEmpty ↔ name = "" := by
    rw [Text.isEmpty, Text.ofString, Text.ofChars, List.isEmpty_iff, List.map_eq_nil_iff,
      String.toList_eq_nil_iff]
  rw [← hempty, ← hempty, ofString_loweredName, Text.isEmpty_lower]

/-! ## Showing a tree -/

theorem expandAsAsked_lower (t : TraceTree) (service : Option Text) (expandAll : Bool)
    (expand : List String) :
    expandAsAsked t (service.map Text.lower) expandAll expand =
      expandAsAsked t service expandAll expand := by
  cases service with
  | none => rfl
  | some name => simp only [expandAsAsked, Option.map_some, Text.lower_lower]

/-- A tree is shown for the chosen service in lower case, wherever the service was chosen. -/
theorem run_tree (s : Surroundings) (file given : Option String) (expandAll : Bool)
    (expand : List String) :
    Command.run s (.tree file given expandAll expand) =
      Command.run (s.withService ((chosenService s given).map Text.lower))
        (.tree file none expandAll expand) := by
  have hshown (path : Host.Path) : showTree s given expandAll expand path =
      showTree (s.withService ((chosenService s given).map Text.lower)) none expandAll expand
        path := by
    have hchosen : chosenService (s.withService ((chosenService s given).map Text.lower)) none =
        (chosenService s given).map Text.lower := rfl
    have hload : loadTree (s.withService ((chosenService s given).map Text.lower)) path =
        loadTree s path := rfl
    simp only [showTree, hchosen, hload, expandAsAsked_lower]
  have hbody := funext hshown
  rw [Command.run, Command.run, hbody]
  rfl

theorem chosenService_loweredName (s : Surroundings) (name : String) :
    (chosenService s (some (loweredName name))).map Text.lower =
      (chosenService s (some name)).map Text.lower := by
  by_cases hname : name = ""
  · subst hname
    rw [loweredName_eq_empty_iff.mpr rfl]
  · have hlowered : loweredName name ≠ "" := mt loweredName_eq_empty_iff.mp hname
    simp [chosenService, Option.filter_some, hname, hlowered, ofString_loweredName,
      Text.lower_lower]

/-! ## Ranking traces -/

theorem get_bind_congr {α β : Type} {x : Except Failure α} {f g : α → Session β}
    (h : ∀ a, x = .ok a → f a = g a) : (Session.get x >>= f) = (Session.get x >>= g) := by
  cases x with
  | error e => rfl
  | ok a => exact h a rfl

theorem summarizeFile_eq (s : Surroundings) (given : Option String) (format : OutputFormat)
    (path : Host.Path) :
    summarizeFile s given format path =
      Session.get (Trace.loadAll s.host path) >>= fun traces =>
        sayBatch s format (Batch.ofTraces (listOptions s given) traces) := rfl

theorem listOptions_withService_none (s : Surroundings) (given : Option String) :
    listOptions (s.withService none) none = { listOptions s given with serviceName := none } := rfl

/-- A list for a chosen service that is not in lower case is a list for no service, wherever the
service was chosen. -/
theorem run_summarize (hchosen : chosenService s given = some service)
    (hcase : service.lower ≠ service) (file : Option String) (format : OutputFormat) :
    Command.run s (.summarize file given format) =
      Command.run (s.withService none) (.summarize file none format) := by
  have hgiven : listOptions s given =
      { listOptions s given with serviceName := some service } := by
    rw [listOptions, hchosen]
  have hlisted (path : Host.Path) : summarizeFile s given format path =
      summarizeFile (s.withService none) none format path := by
    rw [summarizeFile_eq, summarizeFile_eq]
    apply get_bind_congr
    intro traces htraces
    rw [hgiven, Batch.ofTraces_of_unlowered (Trace.allRead_of_loadAll htraces) hcase,
      listOptions_withService_none s given]
    rfl
  have hbody := funext hlisted
  rw [Command.run, Command.run, hbody]
  rfl

end

/-! ## A valid file -/

theorem run_summarize_of_load {s : Surroundings} {name : String} {traces : List (List Span)}
    (hcheck : checkInput s (.ofText name) = pure true)
    (hload : Trace.loadAll s.host (.ofText name) = .ok traces) (given : Option String)
    (format : OutputFormat) :
    Command.run s (.summarize (some name) given format) =
      sayBatch s format (Batch.ofTraces (listOptions s given) traces) >>= fun _ => pure 0 := by
  simp only [Command.run, withInput, namedPath, pure_bind, hcheck, summarizeFile_eq, hload]
  rfl

theorem checkInput_of_isValid {s : Surroundings} {path : Host.Path} {v : Schema.Validation}
    (hv : Schema.Validation.ofFile s.host path = .ok v) (hvalid : v.isValid)
    (hthere : s.host.pathExists path = .ok true) : checkInput s path = pure true := by
  have hget {α β : Type} (a : α) (f : α → Session β) : (Session.get (.ok a) >>= f) = f a := rfl
  rw [checkInput, hthere, hv, hget]
  simp only [hget, hvalid, Bool.not_true, Bool.false_eq_true, if_false]
  cases s.config.schemaValidation <;> rfl

/-- The tree is the same for a service in any case. The list of traces for a service that is not in
lower case is that for no service: the list for the service in lower case without the shares. -/
theorem run_service_case (s : Surroundings) (file : Option String) (name : String) :
    (∀ expandAll expand, Command.run s (.tree file (some name) expandAll expand) =
      Command.run s (.tree file (some (loweredName name)) expandAll expand)) ∧
    (loweredName name ≠ name → ∀ format, Command.run s (.summarize file (some name) format) =
      Command.run (s.withService none) (.summarize file none format)) ∧
    ∀ traces items,
      (Batch.ofTraces (listOptions s (some (loweredName name))) traces).items = .ok items →
      (Batch.ofTraces (listOptions (s.withService none) none) traces).items =
        .ok (items.map (·.unshared)) := by
  refine ⟨fun expandAll expand => ?_, fun hcase format => ?_, fun traces items hitems => ?_⟩
  · rw [run_tree, ← chosenService_loweredName, ← run_tree]
  · have hname : name ≠ "" := by
      rintro rfl
      exact hcase (loweredName_eq_empty_iff.mpr rfl)
    have hchosen : chosenService s (some name) = some (Text.ofString name) := by
      simp [chosenService, Option.filter_some, hname]
    apply run_summarize hchosen
    intro hlower
    rw [← ofString_loweredName] at hlower
    exact hcase (ofString_injective hlower)
  · rw [listOptions_withService_none s (some (loweredName name))]
    exact Batch.items_unshared hitems

/-- A list of one trace, with and without its share. -/
theorem run_service_case_of_capital :
    let s : Surroundings := { host := {}, config := {}, threshold := 30 }
    let traces : List (List Span) := [[{
      traceId := "0000000000000001", id := "0000000000000001", timestamp := some 1000000
      duration := some 10, localEndpoint := some { serviceName := some "web" } }]]
    loweredName "Web" ≠ "Web" ∧
    (∀ format, Command.run s (.summarize (some "spans.jsonl") (some "Web") format) =
      Command.run (s.withService none) (.summarize (some "spans.jsonl") none format)) ∧
    ∃ items, (Batch.ofTraces (listOptions s (some (loweredName "Web"))) traces).items = .ok items ∧
      items.map (·.servicePercentage) = [some 100] ∧
      (Batch.ofTraces (listOptions (s.withService none) none) traces).items =
        .ok (items.map (·.unshared)) := by
  intro s traces
  obtain ⟨-, hlist, hrows⟩ := run_service_case s (some "spans.jsonl") "Web"
  have hcase : loweredName "Web" ≠ "Web" := by decide +kernel
  let batch := Batch.ofTraces (listOptions s (some (loweredName "Web"))) traces
  have hshares : batch.items.toOption.map (·.map (·.servicePercentage)) = some [some 100] := by
    decide +kernel
  obtain ⟨items, hitems, hshares⟩ := Option.map_eq_some_iff.mp hshares
  have hitems := toOption_eq_some_iff.mp hitems
  exact ⟨hcase, hlist hcase, items, hitems, hshares, hrows traces items hitems⟩

/-- A valid file with one trace, which is spent in one service. Its share is printed only for the
service in lower case. -/
theorem run_summarize_ne_of_capital :
    ∃ (s : Surroundings) (file : String) (v : Schema.Validation),
      Schema.Validation.ofFile s.host (.ofText file) = .ok v ∧ v.isValid ∧
      let printed (name : String) : List String :=
        ((Command.run s (.summarize (some file) (some name) .text)).run.run {}).2.output
      printed "Web" ≠ printed (loweredName "Web") := by
  let json := "\x7b\"traceId\":\"1\",\"id\":\"1\",\"timestamp\":1,\"duration\":1," ++
    "\"localEndpoint\":\x7b\"serviceName\":\"web\"\x7d\x7d"
  let text := json ++ "\n"
  let s : Surroundings := { host := Trace.hostOfText text, config := {}, threshold := 30 }
  let traces : List (List Span) := [[{
    traceId := "0000000000000001", id := "0000000000000001", timestamp := some 1
    duration := some 1, localEndpoint := some { serviceName := some "web" } }]]
  have hpath : Host.Path.ofText "spans.jsonl" = Trace.onlyPath := by decide +kernel
  have hr : '\r' ∉ text.toList := by decide +kernel
  have hplain : Text.bodies (Text.plainLines text) = [json.toList] := by decide +kernel
  have hfull : Text.bodies (Text.fullLines text) = [json.toList] := by decide +kernel
  have hreads : List.Forall₂ Schema.Validation.Reads [json.toList] [.object [
      ("traceId", .text "1"), ("id", .text "1"), ("timestamp", .whole 1),
      ("duration", .whole 1), ("localEndpoint", .object [("serviceName", .text "web")])]] := by
    refine .cons ?_ .nil
    unfold Schema.Validation.Reads
    simp only [json, String.toList_append]
    set_option maxRecDepth 1000 in cbv
  have hload : Trace.loadAll s.host (.ofText "spans.jsonl") = .ok traces := by
    rw [hpath, Trace.loadAll_eq_ok_iff (by decide +kernel) (Trace.readText_hostOfText hr), hfull]
    exact ⟨_, hreads, rfl⟩
  obtain ⟨v, hv, hchecked⟩ :=
    Schema.Validation.ofLines_of_reads Trace.onlyPath.text (by simp) (hplain ▸ hreads)
  rw [← Trace.ofFile_hostOfText hr, ← hpath] at hv
  have hvalid : v.isValid := hchecked.isValid.mpr ⟨rfl, by decide +kernel⟩
  have hthere : s.host.pathExists (.ofText "spans.jsonl") = .ok true := by
    rw [hpath, Host.pathExists, Trace.lookup_hostOfText]
  have hcheck : checkInput s (.ofText "spans.jsonl") = pure true :=
    checkInput_of_isValid hv hvalid hthere
  refine ⟨s, "spans.jsonl", v, hv, hvalid, ?_⟩
  simp only [run_summarize_of_load hcheck hload]
  decide +kernel

end TraceExplorer.Cli
