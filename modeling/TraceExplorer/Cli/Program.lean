import TraceExplorer.Cli.Commands

/-!
# The program

The program reads its arguments, loads the settings and runs a command. A failure is reported on
the error channel. The exit code is zero for success, one for a failure or refused input, and two
for arguments that cannot be read.
-/

namespace TraceExplorer.Cli

structure Run where
  code : Nat
  console : Console
  deriving DecidableEq, Repr

def versionText : String := "traceview 0.1.0"

def usageText : Option CommandName → String
  | none => "usage: traceview [options] " ++ "|".intercalate (CommandName.all.map (·.text))
  | some command =>
    "usage: traceview " ++ command.text ++ " " ++
      " ".intercalate (command.options.map fun spec => "[" ++ "|".intercalate spec.names ++ "]")

/-- The report of a failure that has one: an error with a code, or a file that cannot be read. -/
def reportOf? (failure : Failure) : Option Report :=
  match failure with
  | .reported e => some e.report
  | .fileMissing path => some (failure.reportUnder .traceMissing (some path))
  | .isDirectory path =>
    some (failure.reportUnder .fileUnreadable (some (Failure.directoryText path)))
  | .notADirectory path =>
    some (failure.reportUnder .fileUnreadable (some (Failure.notADirectoryText path)))
  | .nameTooLong path =>
    some (failure.reportUnder .fileUnreadable (some (Failure.nameTooLongText path)))
  | .yearTooLarge =>
    some (failure.reportUnder .fileUnreadable (some Failure.yearTooLargeText))
  | _ => none

/-- What is printed about a failure. A verbose program adds what kind of failure it is. -/
def failureLines (verbose : Bool) (failure : Failure) : List String :=
  let kind := failure.kindName ++ ": " ++ failure.text
  match reportOf? failure with
  | some report => report.text :: (if verbose then ["", "--- Full Traceback ---", kind] else [])
  | none =>
    if verbose then ["Traceback:", kind]
    else ["Error: " ++ failure.text, "Run with --verbose for full traceback"]

/-- The sources of the settings for a command line. Only options that are given override. -/
def settingSources (o : GlobalOptions) : Config.Sources where
  envFile := o.envFile
  configFile := o.config
  overrides :=
    (if o.utc then [("use_utc", .bool true)] else []) ++
      (o.logLevel.map fun level => ("log_level", Yaml.Value.text (.ofString level))).toList ++
      (if o.noValidate then [("schema_validation", .bool false)] else [])

def CommandLine.execute (h : Host) (line : CommandLine) : Session Nat := do
  let config ← Session.get ((Config.load h (settingSources line.options)).mapError (·.failure))
  let threshold ← Session.get (LogLevel.threshold config.logLevel.shown)
  line.command.run { host := h, config, threshold }

def run (h : Host) (arguments : List String) : Run :=
  match CommandLine.read arguments with
  | .error (.usage e) =>
    ⟨2, { errors := [usageText none, "traceview: error: " ++ e.message] }⟩
  | .error (.help command) => ⟨0, { output := [usageText command] }⟩
  | .error .version => ⟨0, { output := [versionText] }⟩
  | .ok line =>
    match (line.execute h).run.run {} with
    | (.ok code, console) => ⟨code, console⟩
    | (.error failure, console) =>
      ⟨1, { console with
        errors := console.errors ++ failureLines line.options.verbose failure }⟩

end TraceExplorer.Cli
