/-!
# Errors with a code

An error that people see has a code, a message and a next step. The message names the details of
the case when there are any.
-/

namespace TraceExplorer

/-- What went wrong, by area: settings, traces, span data, files. -/
inductive ErrorCode where
  | configMissing
  | configInvalid
  | settingInvalid
  | timestampMissing
  | traceEmpty
  | zoomRangeInvalid
  | zoomActive
  | spanUnknown
  | spanInvalid
  | schemaViolated
  | traceMissing
  | fileUnreadable
  deriving DecidableEq, Repr

namespace ErrorCode

def all : List ErrorCode :=
  [configMissing, configInvalid, settingInvalid, timestampMissing, traceEmpty, zoomRangeInvalid,
    zoomActive, spanUnknown, spanInvalid, schemaViolated, traceMissing, fileUnreadable]

def label : ErrorCode → String
  | configMissing => "E001"
  | configInvalid => "E002"
  | settingInvalid => "E007"
  | timestampMissing => "E100"
  | traceEmpty => "E101"
  | zoomRangeInvalid => "E102"
  | zoomActive => "E103"
  | spanUnknown => "E104"
  | spanInvalid => "E200"
  | schemaViolated => "E201"
  | traceMissing => "E301"
  | fileUnreadable => "E302"

def ofLabel? (label : String) : Option ErrorCode := all.find? (·.label == label)

theorem ofLabel?_label (code : ErrorCode) : ofLabel? code.label = some code := by
  cases code <;> decide

def headline : ErrorCode → String
  | configMissing => "Config file not found"
  | configInvalid => "Config file is invalid"
  | settingInvalid => "Invalid environment value"
  | timestampMissing => "Trace is missing a timestamp"
  | traceEmpty => "Trace has no spans"
  | zoomRangeInvalid => "Invalid zoom range"
  | zoomActive => "Zoom already active"
  | spanUnknown => "Unknown span id"
  | spanInvalid => "Span data is invalid"
  | schemaViolated => "Schema validation failed"
  | traceMissing => "Trace file not found"
  | fileUnreadable => "Cannot read file"

/-- The message of the code has a place for details. Details of other codes are also shown on a
line of their own. -/
def expectsDetails : ErrorCode → Bool
  | traceEmpty | zoomActive | schemaViolated => false
  | _ => true

def nextStep : ErrorCode → String
  | configMissing => "Check the --config path or remove it to use defaults"
  | configInvalid => "Check YAML syntax; top level must be a mapping"
  | settingInvalid => "Run 'traceview show-config' to inspect resolved settings"
  | timestampMissing => "At least one span needs a timestamp; exclude this trace from display"
  | traceEmpty => "Check the trace file contains at least one span"
  | zoomRangeInvalid => "The zoom start must be lower than the zoom end"
  | zoomActive => "Zoom out before selecting a new range"
  | spanUnknown => "Use an id present in the trace tree"
  | spanInvalid => "Run 'traceview validate --trace <file>' to see details"
  | schemaViolated => "Run 'traceview validate --trace <file>' to see details"
  | traceMissing => "Check the --trace/--traces path"
  | fileUnreadable => "Check file permissions and path"

end ErrorCode

structure Report where
  code : ErrorCode
  message : String
  nextStep : String
  details : Option String
  deriving DecidableEq, Repr

namespace Report

/-- The report of a code; empty details count as none in the message. -/
def make (code : ErrorCode) (details : Option String) : Report where
  code := code
  message :=
    match details with
    | none | some "" => code.headline
    | some text => code.headline ++ ": " ++ text
  nextStep := code.nextStep
  details := if code.expectsDetails then none else details

def lines (r : Report) : List String :=
  ["TV-" ++ r.code.label ++ ": " ++ r.message] ++
    (match r.details with
      | none | some "" => []
      | some text => ["  Details: " ++ text]) ++
    ["  Next step: " ++ r.nextStep]

def text (r : Report) : String := "\n".intercalate r.lines

end Report

inductive TraceError where
  | general (details : Option String)
  | timestampMissing (traceId : Option String)
  | traceEmpty (details : Option String)
  | zoomRangeInvalid (details : Option String)
  | zoomActive (details : Option String)
  | spanUnknown (details : Option String)
  | spanInvalid (details : Option String)
  | config (code : ErrorCode) (details : Option String)
  deriving DecidableEq, Repr

namespace TraceError

def code : TraceError → ErrorCode
  | general _ => .spanInvalid
  | timestampMissing _ => .timestampMissing
  | traceEmpty _ => .traceEmpty
  | zoomRangeInvalid _ => .zoomRangeInvalid
  | zoomActive _ => .zoomActive
  | spanUnknown _ => .spanUnknown
  | spanInvalid _ => .spanInvalid
  | config code _ => code

def details : TraceError → Option String
  | timestampMissing none | timestampMissing (some "") => none
  | timestampMissing (some traceId) => some ("trace " ++ traceId)
  | general details | traceEmpty details | zoomRangeInvalid details | zoomActive details
  | spanUnknown details | spanInvalid details | config _ details => details

def report (e : TraceError) : Report := .make e.code e.details

end TraceError

end TraceExplorer
