import TraceExplorer.Config.Basic
import TraceExplorer.Summary.Batch

/-!
# The console

A command prints lines on two channels, and it may fail after some of them. Log lines go to the
error channel if their level is high enough.
-/

namespace TraceExplorer.Cli

/-- The lines printed so far: those of the result, and those about errors. -/
structure Console where
  output : List String := []
  errors : List String := []
  deriving DecidableEq, Repr

/-- A computation that prints lines and may fail. -/
abbrev Session := ExceptT Failure (StateM Console)

def linesText (lines : List String) : String := String.join (lines.map (· ++ "\n"))

namespace Session

def say (line : String) : Session Unit :=
  modify fun c => { c with output := c.output ++ [line] }

def warn (line : String) : Session Unit :=
  modify fun c => { c with errors := c.errors ++ [line] }

def get {α : Type} (result : Except Failure α) : Session α := ExceptT.mk (pure result)

def getReported {α : Type} (result : Except TraceError α) : Session α :=
  get (result.mapError .reported)

def getNumber {α : Type} (result : Except Number.ArithmeticError α) : Session α :=
  get (liftArithmetic result)

end Session

/-! ## Log lines -/

inductive LogLevel where
  | debug
  | warning
  deriving DecidableEq, Repr

namespace LogLevel

def name : LogLevel → String
  | debug => "DEBUG"
  | warning => "WARNING"

def rank : LogLevel → Nat
  | debug => 10
  | warning => 30

def thresholds : List (String × Nat) :=
  [("NOTSET", 0), ("DEBUG", 10), ("INFO", 20), ("WARN", 30), ("WARNING", 30), ("ERROR", 40),
    ("CRITICAL", 50), ("FATAL", 50)]

/-- Names that stand for something other than a level. -/
def reservedNames : List String := ["BASIC_FORMAT", "_STYLES"]

/-- The rank from which on log lines are printed. A name that is not known stands for warnings. -/
def threshold (name : String) : Except Failure Nat :=
  if reservedNames.contains name then .error (.unusableValue ("Unknown level: " ++ name))
  else .ok ((thresholds.lookup name).getD warning.rank)

end LogLevel

namespace Session

def log (threshold : Nat) (level : LogLevel) (part message : String) : Session Unit :=
  if threshold ≤ level.rank then warn (level.name ++ " " ++ part ++ ": " ++ message)
  else pure ()

def logNote (threshold : Nat) (note : BuildNote) : Session Unit :=
  log threshold .debug "traceview.trace.build_trace" note.text

def logSkipped (threshold : Nat) (skipped : SkippedTrace) : Session Unit :=
  log threshold .warning "traceview.summary" skipped.logText

end Session

end TraceExplorer.Cli
