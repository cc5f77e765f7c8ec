import TraceExplorer.Host.Basic
import TraceExplorer.Json.Reader
import TraceExplorer.Schema.SpanSchema
import TraceExplorer.Text.Blank

/-!
# Validating files of spans

Every span in a file is checked against the schema. The result counts the spans and lists the
violations with their paths, and with line numbers in files of one value a line.
-/

namespace TraceExplorer.Schema

open Json (Value)

structure Finding where
  path : String
  message : String
  line : Option Nat := none
  deriving DecidableEq, Repr

def Finding.text (f : Finding) : String :=
  match f.line with
  | some n => "  Line " ++ toString n ++ ": " ++ f.path ++ " - " ++ f.message
  | none => "  " ++ f.path ++ " - " ++ f.message

structure Validation where
  filePath : String
  spanCount : Nat := 0
  findings : List Finding := []
  deriving DecidableEq, Repr

namespace Validation

def isValid (v : Validation) : Bool := v.findings.isEmpty

def summary (v : Validation) : String :=
  if v.isValid then
    "✓ " ++ v.filePath ++ ": Valid (" ++ toString v.spanCount ++ " spans)"
  else
    "\n".intercalate
      (("✗ " ++ v.filePath ++ ": " ++ toString v.findings.length ++ " error(s)") ::
        v.findings.map (·.text))

def ofFault (filePath message : String) (line : Option Nat := none) : Validation :=
  { filePath, findings := [⟨"$", message, line⟩] }

/-- Adds a span at the given place of a file. -/
def addSpan (place : List PathStep) (line : Option Nat) (v : Validation) (span : Value) :
    Validation :=
  { v with
    spanCount := v.spanCount + 1
    findings := v.findings ++ (checkAll spanSchema span).map fun violation =>
      ⟨pathText (place ++ violation.path), violation.message, line⟩ }

def ofSpan (span : Value) : Validation := addSpan [] none { filePath := "<dict>" } span

/-- Adds an item of a list: a span, or a list of spans. -/
def addItem (v : Validation) (item : Value × Nat) : Validation :=
  match item.1 with
  | .list spans =>
    spans.zipIdx.foldl (fun v (span, j) => v.addSpan [.index item.2, .index j] none span) v
  | span => v.addSpan [.index item.2] none span

/-- Validates decoded JSON that holds one span, one trace or many. -/
def ofJson (filePath : String) : Value → Validation
  | .object fields => addSpan [] none { filePath } (.object fields)
  | .list items => items.zipIdx.foldl addItem { filePath }
  | v => ofFault filePath ("Expected a span object or a list, got " ++ v.kindName)

/-- Adds a line that holds one span; a blank line holds none. -/
def addLine (v : Validation) (line : String × Nat) : Except Failure Validation :=
  let trimmed := Text.trim line.1
  if trimmed.isEmpty then .ok v
  else
    match Json.read trimmed with
    | .ok span => .ok (v.addSpan [] (some line.2) span)
    | .error fault =>
      match fault.failure with
      | .notJson reason =>
        .ok { v with findings := v.findings ++ [⟨"$", "Invalid JSON: " ++ reason, some line.2⟩] }
      | failure => .error failure

def ofLines (filePath text : String) : Except Failure Validation :=
  let trimmed := String.ofList (Text.trimChars text.toList)
  if trimmed = "" then .ok (ofFault filePath "Trace file is empty" (some 0))
  else ((Text.plainLines trimmed).zipIdx 1).foldlM addLine { filePath }

def ofText (filePath text : String) : Except Failure Validation :=
  match Json.read text with
  | .ok v => .ok (ofJson filePath v)
  | .error fault =>
    match fault.failure with
    | .notJson reason => .ok (ofFault filePath ("Invalid JSON: " ++ reason))
    | failure => .error failure

/-- Validates a file. A file that is missing or a directory is a finding. -/
def ofFile (h : Host) (path : Host.Path) : Except Failure Validation := do
  if !(← h.pathExists path) then
    return ofFault path.text ("File not found: " ++ path.text)
  match h.readText path with
  | .error (.isDirectory name) =>
    return ofFault path.text ("Cannot read file: " ++ Failure.directoryText name)
  | .error failure => throw failure
  | .ok text =>
    if path.extension = ".jsonl" then ofLines path.text text else ofText path.text text

end Validation

end TraceExplorer.Schema
