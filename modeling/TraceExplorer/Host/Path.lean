import TraceExplorer.Text.Lines

/-!
# Paths

A path is a root and the names along it. Repeated slashes and names of one dot do not count; the
name of two dots is kept, because what it leads to depends on the files.
-/

namespace TraceExplorer.Host

/-- A path: its root, which is empty for a relative path, and the names along it. -/
structure Path where
  root : String := ""
  names : List String := []
  deriving DecidableEq, Repr

namespace Path

/-- The root that a text of slashes and names starts with. Exactly two slashes are a root of their
own. -/
def rootOf : List Char → String
  | '/' :: '/' :: '/' :: _ => "/"
  | '/' :: '/' :: _ => "//"
  | '/' :: _ => "/"
  | _ => ""

/-- The names between slashes, without empty ones and those of one dot. -/
def namesOf (s : String) : List String :=
  ((Text.splitAtChar '/' s.toList).map String.ofList).filter fun name =>
    name != "" && name != "."

def ofText (s : String) : Path := ⟨rootOf s.toList, namesOf s⟩

def absolute (names : List String) : Path := ⟨"/", names⟩

/-- The text of a path; a path without names is one dot. -/
def text (p : Path) : String :=
  let joined := p.root ++ "/".intercalate p.names
  if joined = "" then "." else joined

def isAbsolute (p : Path) : Bool := p.root != ""

/-- The path can lead somewhere: it holds no NUL. -/
def isAddressable (p : Path) : Bool := !p.names.any (·.contains '\x00')

def lastName (p : Path) : String := (p.names.getLast?).getD ""

/-- The ending of the last name, from its last dot on. A dot at either end of the name starts no
ending. -/
def extension (p : Path) : String :=
  let name := p.lastName.toList
  let ending := (name.reverse.takeWhile (· != '.')).reverse
  let stem := name.length - ending.length - 1
  if ending.isEmpty || ending.length = name.length || stem = 0 then ""
  else String.ofList ('.' :: ending)

/-- Leaves out each name that a name of two dots takes back. -/
def collapseUps (names : List String) : List String :=
  (names.foldl (fun above name => if name = ".." then above.tail else name :: above) []).reverse

end Path

end TraceExplorer.Host
