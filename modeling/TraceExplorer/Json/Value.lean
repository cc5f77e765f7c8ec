import TraceExplorer.Number.Scalar
import TraceExplorer.Text.Quoted

/-!
# JSON values

A JSON value keeps whole numbers and doubles apart and the fields of an object in order. Every
value has a plain text, in which a string at the top stands without quotes.
-/

namespace TraceExplorer.Json

open Number (Scalar)

/-- A JSON value. The names of an object's fields are distinct. -/
inductive Value where
  | null
  | bool (b : Bool)
  | number (x : Scalar)
  | text (s : Text)
  | list (items : List Value)
  | object (fields : List (Text × Value))
  deriving Repr, Inhabited

namespace Value

abbrev whole (n : Int) : Value := number (.whole n)

abbrev field (name : Text) (v : Value) : Text × Value := (name, v)

def field? (fields : List (Text × Value)) (name : Text) : Option Value := fields.lookup name

def kindName : Value → String
  | null => "NoneType"
  | bool _ => "bool"
  | number (.whole _) => "int"
  | number (.real _) => "float"
  | text _ => "str"
  | list _ => "list"
  | object _ => "dict"

/-- A value that counts as present: not null, false, zero, or empty. -/
def isTruthy : Value → Bool
  | null => false
  | bool b => b
  | number x => !x.isZero
  | text s => !s.isEmpty
  | list items => !items.isEmpty
  | object fields => !fields.isEmpty

/-! ## Text of a value -/

mutual

def quoted : Value → String
  | null => "None"
  | bool b => if b then "True" else "False"
  | number x => x.display
  | text s => Text.quote s
  | list items => "[" ++ ", ".intercalate (quotedItems items) ++ "]"
  | object fields => "\x7b" ++ ", ".intercalate (quotedFields fields) ++ "\x7d"

def quotedItems : List Value → List String
  | [] => []
  | v :: rest => v.quoted :: quotedItems rest

def quotedFields : List (Text × Value) → List String
  | [] => []
  | (name, v) :: rest => (Text.quote name ++ ": " ++ v.quoted) :: quotedFields rest

end

def display : Value → Text
  | text s => s
  | v => v.quoted

end Value

/-- Sets a field: a name that is present keeps its place and takes the new value. -/
def setField {κ α : Type} [DecidableEq κ] (fields : List (κ × α)) (name : κ) (v : α) :
    List (κ × α) :=
  match fields with
  | [] => [(name, v)]
  | (n, w) :: rest => if n = name then (n, v) :: rest else (n, w) :: setField rest name v

end TraceExplorer.Json
