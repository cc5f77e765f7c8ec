import TraceExplorer.Calendar.Stamp
import TraceExplorer.Host.Path
import TraceExplorer.Text.Lines

/-!
# The host of a program

What a program can see of the machine it runs on: files and directories, the working directory,
the home directory, variables, and the local time zone. It is a value, so everything computed from
it is a function of it. A path is followed name by name, and what is wrong first decides how looking
it up fails.
-/

namespace TraceExplorer

inductive FileEntry where
  | file (bytes : ByteArray)
  | directory

/-- The machine a program runs on. Entries are found by their names from the root. -/
structure Host where
  entries : List (List String × FileEntry) := []
  workingDirectory : List String := []
  home : Option Host.Path := none
  environment : List (String × Text) := []
  zone : Calendar.Zone := .utc

namespace Host

/-! ## Finding files -/

def entryAt? (h : Host) (names : List String) : Option FileEntry :=
  if names.isEmpty then some .directory else h.entries.lookup names

def existsAt (h : Host) (names : List String) : Bool := (h.entryAt? names).isSome

inductive Lookup where
  | found (entry : FileEntry)
  | missing
  /-- The path leads on from a file. -/
  | notADirectory
  /-- The path, or a name that is looked for in a directory, is too long. -/
  | tooLong
  /-- The path holds a NUL, which no path does. -/
  | unaddressable

/-- The most bytes of a name in a directory. -/
def nameLimit : Nat := 255

/-- The most bytes of a path. -/
def pathLimit : Nat := 4095

/-- Follows names from a place; each one but the last must lead to a directory. -/
def follow (h : Host) (place : List String) : List String → Lookup
  | [] =>
    match h.entryAt? place with
    | some entry => .found entry
    | none => .missing
  | name :: rest =>
    match h.entryAt? place with
    | none => .missing
    | some (.file _) => .notADirectory
    | some .directory =>
      if name = ".." then follow h place.dropLast rest
      else if nameLimit < name.utf8ByteSize then .tooLong
      else follow h (place ++ [name]) rest

def lookup (h : Host) (p : Path) : Lookup :=
  if !p.isAddressable then .unaddressable
  else if pathLimit < p.text.utf8ByteSize then .tooLong
  else h.follow (if p.isAbsolute then [] else h.workingDirectory) p.names

/-- Something is at a path. A path that is too long is refused. -/
def pathExists (h : Host) (p : Path) : Except Failure Bool :=
  match h.lookup p with
  | .found _ => .ok true
  | .missing | .notADirectory | .unaddressable => .ok false
  | .tooLong => .error (.nameTooLong p.text)

/-- The names from the root that a path leads to, whether or not anything is there. -/
def resolve (h : Host) (p : Path) : List String :=
  Path.collapseUps (if p.isAbsolute then p.names else h.workingDirectory ++ p.names)

/-! ## Reading files -/

/-- The text of the file at a path, with every line end as a line feed. -/
def readText (h : Host) (p : Path) : Except Failure String :=
  match h.lookup p with
  | .missing => .error (.fileMissing p.text)
  | .notADirectory => .error (.notADirectory p.text)
  | .tooLong => .error (.nameTooLong p.text)
  | .unaddressable => .error (.unusableValue "embedded null byte")
  | .found .directory => .error (.isDirectory p.text)
  | .found (.file bytes) =>
    match String.fromUTF8? bytes with
    | none => .error .notText
    | some s => .ok (String.ofList (Text.unifyLineEnds s.toList))

end Host

end TraceExplorer
