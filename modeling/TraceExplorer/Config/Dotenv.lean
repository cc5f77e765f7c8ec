import TraceExplorer.Json.Value
import TraceExplorer.Text.Blank
import TraceExplorer.Text.Lines

/-!
# Settings files of lines

A file holds one setting on each line, a name and a value with an equals sign between them. The
word `export` may stand in front, and quotes around the value. Blank lines, lines that start with
a number sign and lines without an equals sign hold no setting.
-/

namespace TraceExplorer.Dotenv

def splitEquals? : List Char → Option (List Char × List Char)
  | [] => none
  | '=' :: rest => some ([], rest)
  | c :: rest => (splitEquals? rest).map fun (name, value) => (c :: name, value)

/-- The word that may stand in front of a setting. -/
def exportWord : List Char := "export ".toList

def dropExport (line : List Char) : List Char :=
  if exportWord.isPrefixOf line then line.drop exportWord.length else line

def isQuotedBy (quote : Char) (value : List Char) : Bool :=
  value.head? == some quote && value.getLast? == some quote

/-- The value without the quotes around it. A lone quote leaves nothing. -/
def dropQuotes (value : List Char) : List Char :=
  if isQuotedBy '"' value || isQuotedBy '\'' value then (value.drop 1).dropLast else value

def readLine? (line : List Char) : Option (String × String) :=
  let trimmed := Text.trimChars line
  if trimmed.isEmpty || trimmed.head? = some '#' then none
  else
    (splitEquals? (dropExport trimmed)).map fun (name, value) =>
      (String.ofList (Text.trimChars name),
        String.ofList (dropQuotes (Text.trimChars value)))

/-- The settings of a text. A later setting of a name takes the place of an earlier one. -/
def read (text : String) : List (String × String) :=
  ((Text.fullLines text).filterMap fun line => readLine? line.toList).foldl
    (fun settings (name, value) => Json.setField settings name value) []

end TraceExplorer.Dotenv
