import TraceExplorer.Failure
import TraceExplorer.Span.Basic

/-!
# How serious the errors of a trace are

A classifier looks at one span after the other and is told the worst verdict so far. The verdict
on a trace is the worst one given; it never gets better.
-/

namespace TraceExplorer

/-- The kinds of error in a trace, from harmless to serious. -/
inductive ErrorType where
  | none
  | transient
  | critical
  deriving DecidableEq, Repr, Inhabited

namespace ErrorType

def all : List ErrorType := [none, transient, critical]

def name : ErrorType → String
  | none => "none"
  | transient => "transient"
  | critical => "critical"

def ofName? (s : String) : Option ErrorType := all.find? (·.name == s)

def severity : ErrorType → Nat
  | none => 0
  | transient => 1
  | critical => 2

def worse (a b : ErrorType) : ErrorType := if a.severity < b.severity then b else a

/-- A critical error stays. Else a tag named `error`, even an empty one, is critical, and an
annotation `error` is transient. -/
def classify (s : Span) (current : ErrorType) : ErrorType :=
  if current = critical then current
  else if s.tags.any (·.1 == "error") then critical
  else if s.annotations.any (·.value == "error") then transient
  else current

end ErrorType

/-- Judges a span, given the worst verdict so far. It may keep a state, and it may fail. -/
abbrev Classifier (σ : Type) := Span → ErrorType → ExceptT Failure (StateM σ) ErrorType

namespace Classifier

def standard {σ : Type} : Classifier σ := fun s current => pure (ErrorType.classify s current)

def judge {σ : Type} (classify : Classifier σ) (current : ErrorType) :
    List Span → ExceptT Failure (StateM σ) ErrorType
  | [] => pure current
  | s :: rest => do
    let verdict ← classify s current
    judge classify (current.worse verdict) rest

end Classifier

end TraceExplorer
