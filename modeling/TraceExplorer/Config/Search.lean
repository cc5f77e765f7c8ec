import TraceExplorer.Config.Dotenv
import TraceExplorer.Host.Basic

/-!
# Finding a settings file

A file named `.env` is looked for in a directory and those above it. The search ends at the home
directory, at a directory that holds `.git`, at the root, and after twenty directories; each of
these is still looked at.
-/

namespace TraceExplorer.Config

def envFileName : String := ".env"

/-- The most directories that are looked at. -/
def searchDepth : Nat := 20

/-- The search does not go above this directory. -/
def isBoundary (h : Host) (dir : List String) : Bool :=
  h.home == some (Host.Path.absolute dir) || dir.isEmpty || h.existsAt (dir ++ [".git"])

def searched (h : Host) : Nat → List String → List (List String)
  | 0, _ => []
  | depth + 1, dir =>
    dir :: (if isBoundary h dir then [] else searched h depth dir.dropLast)

def firstEnvFile (h : Host) : List (List String) → Except Failure (Option Host.Path)
  | [] => .ok none
  | dir :: rest => do
    let path := Host.Path.absolute (dir ++ [envFileName])
    if ← h.pathExists path then return some path
    firstEnvFile h rest

def findEnvFile (h : Host) (start : Host.Path) : Except Failure (Option Host.Path) :=
  if start.isAddressable then firstEnvFile h (searched h searchDepth (h.resolve start))
  else .error (.unusableValue "embedded null byte")

/-- The settings in a file; a file that is missing holds none. -/
def readEnvFile (h : Host) (path : Host.Path) : Except Failure (List (String × String)) := do
  if ← h.pathExists path then return Dotenv.read (← h.readText path)
  return []

end TraceExplorer.Config
