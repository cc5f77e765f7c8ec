import TraceExplorer.Cli.Arguments
import TraceExplorer.Number.Numeral

/-!
# The command line

The arguments of the program: options for all commands, then a command with options of its own.
-/

namespace TraceExplorer.Cli

open Number (Double)

inductive OptionKey where
  | help
  | verbose
  | version
  | config
  | envFile
  | logLevel
  | utc
  | noValidate
  | traces
  | trace
  | service
  | format
  | expandAll
  | expand
  | first
  | last
  deriving DecidableEq, Repr

inductive CommandName where
  | summarize
  | tree
  | zoom
  | validate
  | showConfig
  deriving DecidableEq, Repr

namespace CommandName

def all : List CommandName := [summarize, tree, zoom, validate, showConfig]

def text : CommandName → String
  | summarize => "summarize"
  | tree => "tree"
  | zoom => "zoom"
  | validate => "validate"
  | showConfig => "show-config"

def ofText? (s : String) : Option CommandName := all.find? (·.text == s)

end CommandName

inductive OutputFormat where
  | text
  | json
  deriving DecidableEq, Repr

def OutputFormat.ofName? : String → Option OutputFormat
  | "text" => some .text
  | "json" => some .json
  | _ => none

structure GlobalOptions where
  verbose : Bool := false
  config : Option String := none
  envFile : Option String := none
  logLevel : Option String := none
  utc : Bool := false
  noValidate : Bool := false
  deriving DecidableEq, Repr

/-- A command with its options. A file, or an end of a window, may be given without a value. -/
inductive Command where
  | summarize (traces : Option String) (service : Option String) (format : OutputFormat)
  | tree (trace : Option String) (service : Option String) (expandAll : Bool)
      (expand : List String)
  | zoom (trace : Option String) (first last : Option Double)
  | validate (trace : Option String)
  | showConfig
  deriving DecidableEq, Repr

structure CommandLine where
  options : GlobalOptions
  command : Command
  deriving DecidableEq, Repr

/-- Why there is nothing to do: the arguments cannot be read, or they only ask for information. -/
inductive Halt where
  | usage (error : UsageError)
  | help (command : Option CommandName)
  | version
  deriving DecidableEq, Repr

/-! ## Options of the program -/

def helpOption : OptionSpec OptionKey := { key := .help, names := ["-h", "--help"] }

def globalOptions : List (OptionSpec OptionKey) :=
  [ helpOption,
    { key := .verbose, names := ["--verbose", "-v"] },
    { key := .version, names := ["--version"] },
    { key := .config, names := ["--config"], takesValue := true },
    { key := .envFile, names := ["--env-file"], takesValue := true },
    { key := .logLevel, names := ["--log-level"], takesValue := true },
    { key := .utc, names := ["--utc"] },
    { key := .noValidate, names := ["--no-validate"] } ]

/-- Takes an option for all commands. One without a value is empty. -/
def GlobalOptions.apply (o : GlobalOptions) (key : OptionKey) (value : Option String) :
    Except Halt GlobalOptions :=
  match key with
  | .help => .error (.help none)
  | .version => .error .version
  | .verbose => .ok { o with verbose := true }
  | .config => .ok { o with config := some (value.getD "") }
  | .envFile => .ok { o with envFile := some (value.getD "") }
  | .logLevel => .ok { o with logLevel := some (value.getD "") }
  | .utc => .ok { o with utc := true }
  | .noValidate => .ok { o with noValidate := true }
  | _ => .ok o

def globalGrammar : Grammar OptionKey GlobalOptions Halt where
  options := globalOptions
  hasCommand := true
  apply := GlobalOptions.apply
  refuse := .usage

/-! ## Options of a command -/

def traceOption : OptionSpec OptionKey :=
  { key := .trace, names := ["--trace"], takesValue := true }

def serviceOption : OptionSpec OptionKey :=
  { key := .service, names := ["--service"], takesValue := true }

def CommandName.options : CommandName → List (OptionSpec OptionKey)
  | summarize =>
    [ helpOption, { key := .traces, names := ["--traces"], takesValue := true }, serviceOption,
      { key := .format, names := ["--format"], takesValue := true } ]
  | tree =>
    [ helpOption, traceOption, { key := .expandAll, names := ["--expand-all"] },
      { key := .expand, names := ["--expand"], takesValue := true }, serviceOption ]
  | zoom =>
    [ helpOption, traceOption, { key := .first, names := ["--min"], takesValue := true },
      { key := .last, names := ["--max"], takesValue := true } ]
  | validate => [helpOption, traceOption]
  | showConfig => [helpOption]

structure Draft where
  traces : Option (Option String) := none
  trace : Option (Option String) := none
  service : Option String := none
  format : OutputFormat := .text
  expandAll : Bool := false
  expand : List String := []
  first : Option (Option Double) := none
  last : Option (Option Double) := none

/-- The text of an empty list, which stands for a span that is not named. -/
def unnamedText : String := "[]"

def readWith {α : Type} (name : String) (read : String → Option α) :
    Option String → Except Halt (Option α)
  | none => .ok none
  | some value =>
    match read value with
    | some a => .ok (some a)
    | none => .error (.usage (.valueInvalid name value))

def Draft.apply (command : CommandName) (d : Draft) (key : OptionKey) (value : Option String) :
    Except Halt Draft :=
  match key with
  | .help => .error (.help (some command))
  | .traces => .ok { d with traces := some value }
  | .trace => .ok { d with trace := some value }
  | .service => .ok { d with service := value }
  | .format => do
    let format ← readWith "--format" OutputFormat.ofName? value
    return { d with format := format.getD .text }
  | .expandAll => .ok { d with expandAll := true }
  | .expand => .ok { d with expand := d.expand ++ [value.getD unnamedText] }
  | .first => do
    let x ← readWith "--min" (fun s => Number.readDouble? s) value
    return { d with first := some x }
  | .last => do
    let x ← readWith "--max" (fun s => Number.readDouble? s) value
    return { d with last := some x }
  | _ => .ok d

def CommandName.grammar (command : CommandName) : Grammar OptionKey Draft Halt where
  options := command.options
  hasCommand := false
  apply := Draft.apply command
  refuse := .usage

def required {α : Type} (name : String) : Option α → Except Halt α
  | some a => .ok a
  | none => .error (.usage (.optionMissing name))

def CommandName.withOptions (command : CommandName) (d : Draft) : Except Halt Command :=
  match command with
  | summarize => do
    let traces ← required "--traces" d.traces
    return .summarize traces d.service d.format
  | tree => do
    let trace ← required "--trace" d.trace
    return .tree trace d.service d.expandAll d.expand
  | zoom => do
    let trace ← required "--trace" d.trace
    let first ← required "--min" d.first
    let last ← required "--max" d.last
    return .zoom trace first last
  | validate => do
    let trace ← required "--trace" d.trace
    return .validate trace
  | showConfig => .ok .showConfig

/-! ## The whole command line -/

/-- Reads the arguments of the program. An argument that nothing explains is refused once the
command was read. -/
def CommandLine.read (arguments : List String) : Except Halt CommandLine := do
  let p ← globalGrammar.read {} arguments
  match p.command with
  | [] => throw (.usage .commandMissing)
  | name :: rest =>
    match CommandName.ofText? name with
    | none => throw (.usage (.commandUnknown name))
    | some commandName =>
      let own ← commandName.grammar.read {} rest
      let command ← commandName.withOptions own.values
      let unknown := p.unknown ++ own.unknown
      if !unknown.isEmpty then throw (.usage (.unrecognized unknown))
      return { options := p.values, command }

end TraceExplorer.Cli
