import TraceExplorer.Config.Search
import TraceExplorer.Number.Numeral
import TraceExplorer.Text.Case
import TraceExplorer.Yaml.Document

/-!
# Settings

Settings come from four sources: variables of the process, a settings file of lines, a YAML file,
and the command line. Each source has the last word over those before it. A value is read by the
type of its setting, whatever source it came from.
-/

namespace TraceExplorer

open Json (Value)

structure Config where
  useUtc : Bool := false
  serviceName : Option Text := none
  maxWorkers : Int := 1
  schemaValidation : Bool := true
  logLevel : Text := "WARNING"
  envFile : Option Host.Path := none
  configFile : Option Host.Path := none
  deriving DecidableEq, Repr

inductive ConfigFault where
  | fileMissing (path : String)
  | notYaml (path : String)
  | notAMapping (path : String)
  | notABoolean (name : String) (v : Yaml.Value)
  | notAnInteger (name : String) (v : Yaml.Value)
  | belowOne (name : String) (v : Yaml.Value)
  | other (failure : Failure)

namespace ConfigFault

/-- The failure for a setting whose value is refused. A value without a text fails in its own
way. -/
def refusal (name : String) (v : Yaml.Value) (reason : String) : Failure :=
  match v.quoted with
  | .ok text => .reported (.config .settingInvalid (some (name ++ "=" ++ text ++ reason)))
  | .error failure => failure

def failure : ConfigFault → Failure
  | fileMissing path => .reported (.config .configMissing (some path))
  | notYaml path => .reported (.config .configInvalid (some (path ++ ": not valid YAML")))
  | notAMapping path =>
    .reported (.config .configInvalid (some (path ++ ": top level must be a mapping")))
  | notABoolean name v => refusal name v " is not a boolean"
  | notAnInteger name v => refusal name v " is not an integer"
  | belowOne name v => refusal name v " must be at least 1"
  | other failure => failure

end ConfigFault

namespace Config

/-! ## Values of settings -/

abbrev Settings := List (String × Yaml.Value)

def trueWords : List String := ["1", "true", "yes", "on"]

def falseWords : List String := ["0", "false", "no", "off", ""]

def textOf (v : Yaml.Value) : Except ConfigFault Text := v.display.mapError .other

/-- Reads a truth value, by its text in lower case. -/
def readBool (name : String) (v : Yaml.Value) : Except ConfigFault Bool := do
  match v with
  | .bool b => return b
  | _ =>
    let word := Text.lower (Text.trim (← textOf v))
    if trueWords.any (· = word) then return true
    if falseWords.any (· = word) then return false
    throw (.notABoolean name v)

def integerOfBytes? (bytes : List UInt8) : Option Int :=
  if bytes.all (· < 0x80) then
    Number.readIntegerIn? 10 (bytes.map fun b => Char.ofNat b.toNat)
  else none

/-- The whole number that a value holds, or writes. A double is cut. -/
def integer? : Yaml.Value → Option Int
  | .bool b => some (if b then 1 else 0)
  | .number (.whole n) => some n
  | .number (.real x) => x.truncate?
  | .text s => Number.readInteger? s
  | .bytes bytes => integerOfBytes? bytes
  | _ => none

def readInteger (name : String) (v : Yaml.Value) : Except ConfigFault Int :=
  match v, integer? v with
  | .number (.real (.infinite _)), _ => .error (.other (.arithmetic .overflow))
  | _, some n => .ok n
  | _, none => .error (.notAnInteger name v)

def readPositive (name : String) (v : Yaml.Value) : Except ConfigFault Int := do
  let n ← readInteger name v
  if n < 1 then throw (.belowOne name v)
  return n

/-- The text of a setting that counts as present. -/
def readText? (settings : Settings) (name : String) : Except ConfigFault (Option Text) :=
  ((settings.lookup name).filter (·.isTruthy)).mapM textOf

def readOr {α : Type} (settings : Settings) (name : String)
    (read : String → Yaml.Value → Except ConfigFault α) (default : α) : Except ConfigFault α :=
  match settings.lookup name with
  | some v => read name v
  | none => .ok default

def ofSettings (settings : Settings) (envFile configFile : Option Host.Path) :
    Except ConfigFault Config := do
  let useUtc ← readOr settings "use_utc" readBool false
  let serviceName ← readText? settings "service_name"
  let maxWorkers ← readOr settings "max_workers" readPositive 1
  let schemaValidation ← readOr settings "schema_validation" readBool true
  let logLevel := ((← readText? settings "log_level").map Text.upper).getD "WARNING"
  return {
    useUtc, serviceName, maxWorkers, schemaValidation, logLevel, envFile, configFile }

/-! ## Sources -/

def variableNames : List (String × String) :=
  [("TRACEVIEW_UTC", "use_utc"), ("TRACEVIEW_SERVICE_NAME", "service_name"),
    ("TRACEVIEW_MAX_WORKERS", "max_workers"), ("TRACEVIEW_VALIDATE", "schema_validation"),
    ("TRACEVIEW_LOG_LEVEL", "log_level")]

def ofVariables (environment : List (String × Text)) : Settings :=
  variableNames.filterMap fun (key, name) =>
    (environment.lookup key).map fun value => (name, .text value)

/-- The values of a later source take the place of those of an earlier one. -/
def override {α : Type} (earlier later : List (String × α)) : List (String × α) :=
  later.foldl (fun all (name, v) => Json.setField all name v) earlier

def settingNames : List String := variableNames.map (·.2)

def ofDocument (top : Yaml.TopMapping) : Settings :=
  settingNames.filterMap fun (name : String) => (top.field? name).map fun v => (name, v)

/-- The entries of a YAML file. A file that says nothing has none. -/
def readYamlFile (h : Host) (path : Host.Path) : Except ConfigFault Yaml.TopMapping := do
  if !(← (h.pathExists path).mapError .other) then throw (.fileMissing path.text)
  let text ← (h.readText path).mapError .other
  match Yaml.Document.ofText text with
  | .ok .nothing => return .empty
  | .ok (.mapping top) => return top
  | .ok .other => throw (.notAMapping path.text)
  | .error .malformed => throw (.notYaml path.text)
  | .error (.failed failure) => throw (.other failure)

def configFileName : String := "traceview.yaml"

/-- The files that settings are read from, as they are given. An empty name gives none. -/
structure Sources where
  envFile : Option String := none
  configFile : Option String := none
  overrides : Settings := []

/-- The overrides that give a value. Null gives none. -/
def Sources.given (sources : Sources) : Settings :=
  sources.overrides.filter fun (_, v) => !v.isNull

/-- The path of a file that is given by a name that is not empty. -/
def givenPath? (name : Option String) : Option Host.Path :=
  (name.filter (· != "")).map Host.Path.ofText

/-- The settings file of lines: the given one, or else the one that is found. Only a file that is
there counts. -/
def envFilePath? (h : Host) (sources : Sources) : Except Failure (Option Host.Path) := do
  let named ← match givenPath? sources.envFile with
    | some path => pure (some path)
    | none => findEnvFile h {}
  match named with
  | some path => return if ← h.pathExists path then some path else none
  | none => return none

/-- The YAML file: the given one, or else the one in the working directory, if it is there. -/
def configFilePath? (h : Host) (sources : Sources) : Except Failure (Option Host.Path) := do
  match givenPath? sources.configFile with
  | some path => return some path
  | none =>
    let usual := Host.Path.absolute (h.workingDirectory ++ [configFileName])
    return if ← h.pathExists usual then some usual else none

/-- The variables of the process, and those that the settings file of lines gives. -/
def variablesOf (h : Host) (envFile : Option Host.Path) :
    Except Failure (List (String × Text)) := do
  match envFile with
  | some path =>
    let settings ← readEnvFile h path
    return override h.environment (settings.map fun (name, value) => (name, .ofString value))
  | none => return h.environment

def load (h : Host) (sources : Sources) : Except ConfigFault Config := do
  let envFile ← (envFilePath? h sources).mapError .other
  let fromVariables := ofVariables (← (variablesOf h envFile).mapError .other)
  let configFile ← (configFilePath? h sources).mapError .other
  let fromYaml ← match configFile with
    | some path => (readYamlFile h path).map ofDocument
    | none => .ok []
  ofSettings (override (override fromVariables fromYaml) sources.given) envFile configFile

/-! ## Use -/

def isParallel (c : Config) : Bool := 1 < c.maxWorkers

def pathToJson : Option Host.Path → Value
  | some path => .text path.text
  | none => .null

def toJson (c : Config) : Value :=
  .object [
    ("use_utc", .bool c.useUtc),
    ("service_name", (c.serviceName.map Value.text).getD .null),
    ("max_workers", .whole c.maxWorkers),
    ("schema_validation", .bool c.schemaValidation),
    ("log_level", .text c.logLevel),
    ("env_file_path", pathToJson c.envFile),
    ("config_file_path", pathToJson c.configFile)]

/-- The settings in force; there must be some. -/
def current : Option Config → Except Failure Config
  | some c => .ok c
  | none => .error .settingsMissing

end Config

end TraceExplorer
