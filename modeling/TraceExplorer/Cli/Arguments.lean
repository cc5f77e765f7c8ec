import TraceExplorer.Text.DecimalDigit
import TraceExplorer.Text.Lines

/-!
# Reading arguments

The arguments of a program are options and other words. A long option may be shortened while it
stays the only one of its kind, and takes a value from the next word or after an equals sign; two
dashes after the equals sign are no value. Short options without a value may share a dash. What an
argument is depends on all options, so every argument is looked at before the first one is read.
-/

namespace TraceExplorer.Cli

/-- An option: its key, its names with their dashes, and whether it takes a value. A short name is
a dash and one letter. -/
structure OptionSpec (κ : Type) where
  key : κ
  names : List String
  takesValue : Bool := false

inductive Shape (κ : Type) where
  | word
  /-- The two dashes after which every argument is a word. -/
  | separator
  /-- An option, and what is written onto it: after an equals sign, or right after a short name. -/
  | option (spec : OptionSpec κ) (name : String) (attached : Option String)
  | unknown

inductive UsageError where
  | ambiguous (argument : String)
  | valueMissing (name : String)
  | valueUnexpected (name value : String)
  | valueInvalid (name value : String)
  | unrecognized (arguments : List String)
  | optionMissing (name : String)
  | commandMissing
  | commandUnknown (name : String)
  deriving DecidableEq, Repr

def UsageError.message : UsageError → String
  | ambiguous argument => "ambiguous option: " ++ argument
  | valueMissing name => "argument " ++ name ++ ": expected one argument"
  | valueUnexpected name value => "argument " ++ name ++ ": ignored explicit argument " ++ value
  | valueInvalid name value => "argument " ++ name ++ ": invalid value " ++ value
  | unrecognized arguments => "unrecognized arguments: " ++ " ".intercalate arguments
  | optionMissing name => "the following arguments are required: " ++ name
  | commandMissing => "the following arguments are required: cmd"
  | commandUnknown name => "argument cmd: invalid choice " ++ name

section Shapes

variable {κ : Type}

def findOption? (options : List (OptionSpec κ)) (name : String) : Option (OptionSpec κ) :=
  options.find? fun spec => spec.names.contains name

def splitAssigned (argument : String) : String × Option String :=
  let s := argument.toList
  let name := String.ofList (s.takeWhile (· != '='))
  match s.dropWhile (· != '=') with
  | _ :: value => (name, some (String.ofList value))
  | [] => (name, none)

/-- All options a long name of which starts with the given text, once for each such name. -/
def longCandidates (options : List (OptionSpec κ)) (start : String) :
    List (OptionSpec κ × String) :=
  options.flatMap fun spec =>
    (spec.names.filter fun name => start.toList.isPrefixOf name.toList).map (spec, ·)

/-- A negative number: digits of any script with an optional point. Such an argument is a word. -/
def isNegativeNumber (argument : String) : Bool :=
  match Text.dropFinalLineFeed argument.toList with
  | '-' :: body =>
    match body.dropWhile Text.isDecimalDigit with
    | [] => !body.isEmpty
    | '.' :: fraction => !fraction.isEmpty && fraction.all Text.isDecimalDigit
    | _ => false
  | _ => false

/-- What an argument is that starts with a dash and that no option explains. -/
def unexplained (argument : String) : Shape κ :=
  if isNegativeNumber argument || argument.toList.contains ' ' then .word else .unknown

def longShape (options : List (OptionSpec κ)) (argument : String) :
    Except UsageError (Shape κ) :=
  let (start, value) := splitAssigned argument
  match longCandidates options start with
  | [] => .ok (unexplained argument)
  | [(spec, name)] => .ok (.option spec name value)
  | _ => .error (.ambiguous argument)

def shortShape (options : List (OptionSpec κ)) (argument : String) : Shape κ :=
  let name := String.ofList (argument.toList.take 2)
  match findOption? options name with
  | some spec => .option spec name (some (String.ofList (argument.toList.drop 2)))
  | none => unexplained argument

/-- What an argument is, apart from the separator. A name that is written out wins, then a name
before an equals sign, then a start of a name. -/
def shapeOf (options : List (OptionSpec κ)) (argument : String) : Except UsageError (Shape κ) :=
  match argument.toList with
  | '-' :: rest =>
    match findOption? options argument with
    | some spec => .ok (.option spec argument none)
    | none =>
      if rest.isEmpty then .ok .word
      else
        match splitAssigned argument with
        | (name, some value) =>
          match findOption? options name with
          | some spec => .ok (.option spec name (some value))
          | none =>
            if rest.head? = some '-' then longShape options argument
            else .ok (shortShape options argument)
        | (_, none) =>
          if rest.head? = some '-' then longShape options argument
          else .ok (shortShape options argument)
  | _ => .ok .word

/-- What each argument is; after the separator all are words. -/
def shapes (options : List (OptionSpec κ)) :
    List String → Except UsageError (List (String × Shape κ))
  | [] => .ok []
  | "--" :: rest => .ok (("--", .separator) :: rest.map (·, .word))
  | argument :: rest => do
    let shape ← shapeOf options argument
    let more ← shapes options rest
    return (argument, shape) :: more

end Shapes

/-! ## Reading in order -/

def attachedValue (text : String) : Option String := if text = "--" then none else some text

/-- How the options of a parser are read. An option may end the reading with an `ε`. -/
structure Grammar (κ σ ε : Type) where
  options : List (OptionSpec κ)
  /-- The first word is a command, to which all further arguments belong. -/
  hasCommand : Bool
  apply : σ → κ → Option String → Except ε σ
  refuse : UsageError → ε

/-- How far reading has come: the values so far, an option that waits for its value, the command
with its arguments, and the arguments that nothing explains. -/
structure Progress (κ σ : Type) where
  values : σ
  awaiting : Option (OptionSpec κ × String) := none
  command : List String := []
  unknown : List String := []

namespace Grammar

variable {κ σ ε : Type}

/-- The options that a short name and the letters written onto it stand for, in order. One that
takes a value takes what is left, or waits for it. -/
def readLetters (g : Grammar κ σ ε) (spec : OptionSpec κ) (name : String) :
    List Char → Except UsageError (List (κ × Option String) × Option (OptionSpec κ × String))
  | [] =>
    if spec.takesValue then .ok ([], some (spec, name)) else .ok ([(spec.key, none)], none)
  | c :: rest =>
    if spec.takesValue then .ok ([(spec.key, attachedValue (String.ofList (c :: rest)))], none)
    else
      let next := String.ofList ['-', c]
      match findOption? g.options next with
      | none => .error (.valueUnexpected name (String.ofList (c :: rest)))
      | some other => do
        let (taken, awaiting) ← g.readLetters other next rest
        return ((spec.key, none) :: taken, awaiting)

/-- Reads an option with what is written onto it. Only a short name can have more letters. -/
def readOption (g : Grammar κ σ ε) (spec : OptionSpec κ) (name : String) :
    Option String → Except UsageError (List (κ × Option String) × Option (OptionSpec κ × String))
  | none => g.readLetters spec name []
  | some text =>
    if spec.takesValue then .ok ([(spec.key, attachedValue text)], none)
    else if text = "" || "--".toList.isPrefixOf name.toList then
      .error (.valueUnexpected name text)
    else g.readLetters spec name text.toList

def readArgument (g : Grammar κ σ ε) (p : Progress κ σ) (argument : String × Shape κ) :
    Except ε (Progress κ σ) :=
  if !p.command.isEmpty then .ok { p with command := p.command ++ [argument.1] }
  else
    match p.awaiting, argument.2 with
    | some (spec, _), .word => do
      let values ← g.apply p.values spec.key (some argument.1)
      return { p with values, awaiting := none }
    | some (_, name), _ => .error (g.refuse (.valueMissing name))
    | none, .word | none, .separator =>
      if g.hasCommand then .ok { p with command := [argument.1] }
      else .ok { p with unknown := p.unknown ++ [argument.1] }
    | none, .unknown => .ok { p with unknown := p.unknown ++ [argument.1] }
    | none, .option spec name attached => do
      let (taken, awaiting) ← (g.readOption spec name attached).mapError g.refuse
      let values ← taken.foldlM (fun values (key, value) => g.apply values key value) p.values
      return { p with values, awaiting }

def read (g : Grammar κ σ ε) (start : σ) (arguments : List String) :
    Except ε (Progress κ σ) := do
  let shaped ← (shapes g.options arguments).mapError g.refuse
  let p ← shaped.foldlM g.readArgument { values := start }
  match p.awaiting with
  | some (_, name) => throw (g.refuse (.valueMissing name))
  | none => return p

end Grammar

end TraceExplorer.Cli
