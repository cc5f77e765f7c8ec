import TraceExplorer.Calendar.ZoneText
import TraceExplorer.Cli.Program

/-!
# The program on a machine

Takes down what the program can see of the machine before it runs: the files that its arguments
name, those that settings may come from, and all directories that lead to them. Then it prints
what the run printed.
-/

namespace TraceExplorer

/-- What is at the given names from the root of the machine. What cannot be read as a file counts
as a directory. -/
def probe (names : List String) : IO (Option FileEntry) := do
  try
    let bytes ← IO.FS.readBinFile ("/" ++ "/".intercalate names)
    return some (.file bytes)
  catch
    | .noFileOrDirectory .. => return none
    | _ => return some .directory

/-- The paths that the arguments may name, alone or after an equals sign. -/
def namedPaths (arguments : List String) : List Host.Path :=
  arguments.flatMap fun argument =>
    let (_, value) := Cli.splitAssigned argument
    (argument :: value.toList).map Host.Path.ofText

def upward (dir : List String) : List (List String) :=
  (List.range (dir.length + 1)).reverse.map dir.take

def settingPlaces (dir : List String) : List (List String) :=
  (dir ++ [Config.configFileName]) ::
    (upward dir).flatMap fun above => [above ++ [Config.envFileName], above ++ [".git"]]

/-- All places to take down, the directories that lead to a place before it. -/
def places (h : Host) (arguments : List String) : List (List String) :=
  let named := (namedPaths arguments).flatMap fun path =>
    (List.range (path.names.length + 1)).map fun n =>
      h.resolve { path with names := path.names.take n }
  ((settingPlaces h.workingDirectory ++ named).flatMap fun place =>
    (upward place).reverse).eraseDups.filter (!·.isEmpty)

def observe (arguments : List String) : IO Host := do
  let environment ← (Config.variableNames.map (·.1)).filterMapM fun name => do
    return (← IO.getEnv name).map fun value => (name, .ofString value)
  let zone := (← IO.getEnv "TZ").bind Calendar.Zone.ofText?
  let surroundings : Host := {
    workingDirectory := Host.Path.namesOf (toString (← IO.currentDir))
    home := (← IO.getEnv "HOME").map Host.Path.ofText
    environment
    zone := zone.getD .utc }
  let entries ← (places surroundings arguments).filterMapM fun place => do
    return (← probe place).map (place, ·)
  return { surroundings with entries }

end TraceExplorer

def main (arguments : List String) : IO UInt32 := do
  let run := TraceExplorer.Cli.run (← TraceExplorer.observe arguments) arguments
  IO.print (TraceExplorer.Cli.linesText run.console.output)
  IO.eprint (TraceExplorer.Cli.linesText run.console.errors)
  return run.code.toUInt32
