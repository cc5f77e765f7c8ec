import TraceExplorer.Error
import TraceExplorer.Number.Scalar
import TraceExplorer.Text.Quoted

/-!
# Failures

Everything that can stop an operation: an error with a code, or a fault in the data or the
surroundings that no code covers.
-/

namespace TraceExplorer

open Number (ArithmeticError)

inductive Failure where
  | reported (error : TraceError)
  | arithmetic (error : ArithmeticError)
  /-- A value of the right kind that cannot be used. -/
  | unusableValue (reason : String)
  | notJson (reason : String)
  /-- Data inside data beyond the limit. -/
  | tooDeep
  /-- A text without characters where one is expected. -/
  | noCharacter
  /-- A single value where several are expected. -/
  | notIterable
  /-- Data of a kind that an operation does not take. -/
  | unsuitable
  /-- A value without fields where an object is expected. -/
  | noFields
  | absentKey (key : Text)
  | fileMissing (path : String)
  | isDirectory (path : String)
  /-- A path that leads on from a file. -/
  | notADirectory (path : String)
  | nameTooLong (path : String)
  /-- A file that is not UTF-8 text. -/
  | notText
  /-- A moment in a year that the system clock cannot hold. -/
  | yearTooLarge
  | settingsMissing
  deriving DecidableEq, Repr

namespace Failure

def directoryText (path : String) : String :=
  "[Errno 21] Is a directory: " ++ Text.quote path

def notADirectoryText (path : String) : String :=
  "[Errno 20] Not a directory: " ++ Text.quote path

def nameTooLongText (path : String) : String :=
  "[Errno 36] File name too long: " ++ Text.quote path

def yearTooLargeText : String := "[Errno 75] Value too large for defined data type"

def settingsMissingText : String := "Config not initialized. Call load_config() first."

def text : Failure → String
  | reported e => e.report.text
  | arithmetic .overflow => "number out of range"
  | arithmetic .divisionByZero => "division by zero"
  | unusableValue reason | notJson reason => reason
  | tooDeep => "nested too deeply"
  | noCharacter => "value has no characters"
  | notIterable => "value is not iterable"
  | unsuitable => "value is not suitable"
  | noFields => "value has no fields"
  | absentKey key => Text.quote key
  | fileMissing path => path
  | isDirectory path => directoryText path
  | notADirectory path => notADirectoryText path
  | nameTooLong path => nameTooLongText path
  | notText => "invalid UTF-8"
  | yearTooLarge => yearTooLargeText
  | settingsMissing => settingsMissingText

/-- The kind of a failure, as it is named in log lines. -/
def kindName : Failure → String
  | reported _ => "TraceError"
  | arithmetic .overflow => "OverflowError"
  | arithmetic .divisionByZero => "ZeroDivisionError"
  | unusableValue _ => "ValueError"
  | notJson _ => "JSONDecodeError"
  | tooDeep => "RecursionError"
  | noCharacter => "IndexError"
  | notIterable | unsuitable => "TypeError"
  | noFields => "AttributeError"
  | absentKey _ => "KeyError"
  | fileMissing _ => "FileNotFoundError"
  | isDirectory _ => "IsADirectoryError"
  | notADirectory _ => "NotADirectoryError"
  | nameTooLong _ | yearTooLarge => "OSError"
  | notText => "UnicodeDecodeError"
  | settingsMissing => "RuntimeError"

/-- The wording of a failure in a list of skipped traces: an error with a code shows its
message. -/
def shortText : Failure → String
  | reported e => e.report.message
  | failure => failure.text

/-- The wording of a failure in log lines: a failure without a code is named. -/
def logText : Failure → String
  | reported e => e.report.message
  | failure => failure.kindName ++ ": " ++ failure.text

/-- The report of a failure under the given code. An error with a code has its own report, unless
details are given. -/
def reportUnder (failure : Failure) (code : ErrorCode) (details : Option String) : Report :=
  match failure, details with
  | reported e, none => e.report
  | _, none | _, some "" => .make code (some failure.text)
  | _, some details => .make code (some details)

end Failure

def liftArithmetic {α : Type} : Except ArithmeticError α → Except Failure α
  | .ok a => .ok a
  | .error e => .error (.arithmetic e)

end TraceExplorer
