import TraceExplorer.Cli.CommandLine
import TraceExplorer.Cli.Console
import TraceExplorer.Json.Writer
import TraceExplorer.Schema.Validation
import TraceExplorer.Timeline.Mapper
import TraceExplorer.Trace.Loader
import TraceExplorer.Visibility.State

/-!
# The commands

What each command prints. A command yields its exit code: zero, or one if the input is refused.
-/

namespace TraceExplorer.Cli

open Number (Scalar Double ArithmeticError)
open Session

structure Surroundings where
  host : Host
  config : Config
  threshold : Nat

def padLeft (fill : Char) (width : Nat) (s : String) : String :=
  String.ofList (List.replicate (width - s.length) fill) ++ s

def padRight (fill : Char) (width : Nat) (s : String) : String :=
  s ++ String.ofList (List.replicate (width - s.length) fill)

/-- The service to look at: the given one, or else that of the settings. -/
def chosenService (s : Surroundings) (given : Option String) : Option Text :=
  ((given.filter (· != "")).map Text.ofString).or s.config.serviceName

/-! ## Input files -/

/-- An input file must be there, and valid if files are to be validated. What is wrong with it is
printed. -/
def checkInput (s : Surroundings) (path : Host.Path) : Session Bool := do
  if !(← get (s.host.pathExists path)) then throw (.fileMissing path.text)
  if !s.config.schemaValidation then return true
  let validation ← get (Schema.Validation.ofFile s.host path)
  if !validation.isValid then
    warn validation.summary
    warn (Report.make .schemaViolated (some path.text)).text
  return validation.isValid

def namedPath : Option String → Session Host.Path
  | some file => pure (.ofText file)
  | none => throw .unsuitable

def withInput (s : Surroundings) (file : Option String) (body : Host.Path → Session Unit) :
    Session Nat := do
  let path ← namedPath file
  if ← checkInput s path then
    body path
    return 0
  else return 1

def loadTree (s : Surroundings) (path : Host.Path) : Session TraceTree := do
  let spans ← get (Trace.loadOne s.host path)
  let tree ← get (TraceTree.build spans)
  tree.notes.forM (logNote s.threshold)
  return tree

/-! ## Summarizing -/

/-- A bar as wide as a trace, one mark for every five percent and at least one. -/
def bar (width : Int) : String :=
  padRight ' ' 20 (String.ofList (List.replicate (max 1 (width / 5)).toNat '#'))

def itemText (item : TraceListItem) : String :=
  let duration := if item.durationText = "" then "-" else item.durationText
  "  ".intercalate
    ([item.traceId.shown, item.startText, padLeft ' ' 10 duration,
        padLeft ' ' 4 (toString item.spanCount) ++ " spans"] ++
      (item.width.map bar).toList ++
      (item.servicePercentage.map fun n => toString n ++ "%").toList ++
      (item.errorClass.map fun name => "[" ++ name ++ "]").toList)

def tellSkipped (s : Surroundings) (skipped : SkippedTrace) : Session Unit := do
  logSkipped s.threshold skipped
  let name : Text := (skipped.traceId.filter (!·.isEmpty)).getD "<empty>"
  warn ("⚠️  Skipped trace " ++ name.shown ++ ": " ++ skipped.failure.shortText)

def sayItems (format : OutputFormat) (items : List TraceListItem) (skipped : Nat) :
    Session Unit :=
  match format with
  | .json => do
    let values ← getNumber (items.mapM (·.toJson))
    say ((Json.Value.list values).write { indent := some 2 })
  | .text => do
    items.forM fun item => say (itemText item)
    say ""
    say (toString items.length ++ " trace(s), " ++ toString skipped ++ " skipped")

def summarizeFile (s : Surroundings) (service : Option String) (format : OutputFormat)
    (path : Host.Path) : Session Unit := do
  let traces ← get (Trace.loadAll s.host path)
  let batch := Batch.ofTraces
    { serviceName := chosenService s service, utc := s.config.useUtc, zone := s.host.zone } traces
  batch.notes.forM (logNote s.threshold)
  batch.skipped.forM (tellSkipped s)
  let items ← get batch.items
  sayItems format items batch.skipped.length

/-! ## Showing a tree -/

/-- The mark in front of a row: whether the node has children, and whether they are shown. -/
def rowMark (r : VisibilityRecord) : String :=
  if r.childIds.isEmpty then "   " else if r.expanded then "[-]" else "[+]"

def spanLabel (s : Span) : String :=
  let names := s.serviceNames.map (·.shown)
  let services := if names.isEmpty then "unknown" else ",".intercalate names
  if s.name.isTruthy then services ++ ": " ++ s.name.display.shown else services

def rowText (p : Placement) (r : VisibilityRecord) : Except ArithmeticError String := do
  let duration ← optionalDurationText (p.group.primary.duration.map .whole)
  let indent := String.join (List.replicate p.depth "  ")
  return indent ++ rowMark r ++ " " ++ p.id.shown ++ " " ++ spanLabel p.group.primary ++
    (if duration = "" then "" else " " ++ duration)

def treeRows (t : TraceTree) (view : VisibilityState) : Except ArithmeticError (List String) :=
  let rows := t.placements.filterMap fun p =>
    ((view.find? p.id).filter (·.visible)).map fun r => (p, r)
  rows.mapM fun (p, r) => rowText p r

def expandAsAsked (t : TraceTree) (service : Option Text) (expandAll : Bool)
    (expand : List String) : Except TraceError VisibilityState := do
  let start := VisibilityState.initial t
  let byService ← match service with
    | some name => do pure (← start.showNodes (t.idsOfService (Text.lower name))).state
    | none => pure start
  let all ← if expandAll then do pure (← byService.expandAll).state else pure byService
  expand.foldlM (fun view (given : String) =>
    match canonicalId given with
    | some id => do return (← view.showNodes [id]).state
    | none => throw (.spanUnknown none)) all

def showTree (s : Surroundings) (service : Option String) (expandAll : Bool)
    (expand : List String) (path : Host.Path) : Session Unit := do
  let tree ← loadTree s path
  let view ← getReported (expandAsAsked tree (chosenService s service) expandAll expand)
  if tree.headless then say "(headless trace: root span missing)"
  let rows ← getNumber (treeRows tree view)
  rows.forM say

/-! ## Zooming -/

def percentText (x : Scalar) : Except ArithmeticError String :=
  (x.toFixed 2).map (padLeft ' ' 6)

def zoomedRowText (r : ZoomedRow Scalar) : Except ArithmeticError String := do
  let left ← percentText r.offset
  let width ← percentText r.width
  return (if r.highlighted then "*" else " ") ++ " " ++ r.id.shown ++ "  left=" ++ left ++
    "%  width=" ++ width ++ "%"

/-- The ends of a window; both must have a value. Without any they are one empty end, given
twice. -/
def windowEnds : Option Double → Option Double → Except Failure (Double × Double)
  | some first, some last => .ok (first, last)
  | none, none => .error (.reported (.zoomRangeInvalid (some "[] >= []")))
  | _, _ => .error .unsuitable

def showWindow (s : Surroundings) (first last : Option Double) (path : Host.Path) :
    Session Unit := do
  let tree ← loadTree s path
  let timeline ← getNumber (Mapper.ofTree tree)
  let (first, last) ← get (windowEnds first last)
  let (rows, shown) ←
    get ((timeline.zoom (.real first) (.real last)).mapError ZoomError.failure)
  let labels ← getNumber shown.markers
  say ("markers: " ++ " ".intercalate labels)
  let lines ← getNumber (rows.mapM zoomedRowText)
  lines.forM say

/-! ## Showing the settings -/

/-- Shows the settings. Of those only a number can be without a text. -/
def showSettings (s : Surroundings) : Session Unit := do
  if !Number.hasText s.config.maxWorkers then
    throw (.unusableValue "whole number with too many digits")
  say (s.config.toJson.write { asciiOnly := true, indent := some 2 })

/-! ## All commands -/

def validateFile (s : Surroundings) (path : Host.Path) : Session Nat := do
  let validation ← get (Schema.Validation.ofFile s.host path)
  say validation.summary
  return if validation.isValid then 0 else 1

def Command.run (s : Surroundings) : Command → Session Nat
  | .summarize traces service format => withInput s traces (summarizeFile s service format)
  | .tree trace service expandAll expand =>
    withInput s trace (showTree s service expandAll expand)
  | .zoom trace first last => withInput s trace (showWindow s first last)
  | .validate trace => do validateFile s (← namedPath trace)
  | .showConfig => do
    showSettings s
    return 0

end TraceExplorer.Cli
