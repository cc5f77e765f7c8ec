import TraceExplorer.Json.Value
import TraceExplorer.Text.Lines

/-!
# Schemas

A schema is a list of keywords, each of which restricts values of one kind and lets all others
pass. Checking a value yields the violations of the keywords in order, each with its path.
-/

namespace TraceExplorer.Schema

open Json (Value)
open Number (Scalar)

inductive ValueType where
  | object
  | array
  | string
  | integer
  | boolean
  | null
  deriving DecidableEq, Repr

namespace ValueType

def name : ValueType → String
  | object => "object"
  | array => "array"
  | string => "string"
  | integer => "integer"
  | boolean => "boolean"
  | null => "null"

/-- The value is of the kind. A double without a fraction is an integer. -/
def holds : ValueType → Value → Bool
  | object, .object _ => true
  | array, .list _ => true
  | string, .text _ => true
  | integer, .number (.whole _) => true
  | integer, .number (.real x) => (x.value?.map (·.den == 1)).getD false
  | boolean, .bool _ => true
  | null, .null => true
  | _, _ => false

end ValueType

/-- Hexadecimal digits only, of at least and at most the given number. -/
structure HexPattern where
  least : Nat
  most : Nat
  deriving DecidableEq, Repr

namespace HexPattern

def text (p : HexPattern) : String :=
  "^[0-9a-fA-F]\x7b" ++ toString p.least ++ "," ++ toString p.most ++ "\x7d$"

def isHex (c : Char) : Bool :=
  ('0' ≤ c && c ≤ '9') || ('a' ≤ c && c ≤ 'f') || ('A' ≤ c && c ≤ 'F')

/-- The text has the form of the pattern; the end of a text is also before a final line feed. -/
def admits (p : HexPattern) (s : Text) : Bool :=
  match s.chars? with
  | none => false
  | some chars =>
    let digits := Text.dropFinalLineFeed chars
    digits.all isHex && p.least ≤ digits.length && digits.length ≤ p.most

end HexPattern

inductive Keyword where
  | type (types : List ValueType)
  | required (names : List String)
  | pattern (p : HexPattern)
  | oneOf (names : List String)
  | minimum (n : Int)
  | maximum (n : Int)
  | items (schema : List Keyword)
  | properties (schemas : List (String × List Keyword))
  | otherProperties (schema : List Keyword)

/-- A step into a value: a field by its name or an item by its index. -/
inductive PathStep where
  | name (s : Text)
  | index (n : Nat)
  deriving DecidableEq, Repr

def pathText (path : List PathStep) : String :=
  "$" ++ "".intercalate (path.map fun
    | .name s => "." ++ s.shown
    | .index n => "[" ++ toString n ++ "]")

/-- A violation of a keyword, with the path to the value at fault. -/
structure Violation where
  path : List PathStep
  message : String
  deriving DecidableEq, Repr

/-- The violation seen from one step further out. -/
def Violation.under (step : PathStep) (v : Violation) : Violation :=
  { v with path := step :: v.path }

def quotedNames (names : List String) : String :=
  ", ".intercalate (names.map fun (name : String) => Text.quote name)

def violationIf (broken : Bool) (message : String) : List Violation :=
  if broken then [⟨[], message⟩] else []

/-- The fields of an object in order of their names. A schema leaves open in which order the fields
that it does not name are checked; taken so, the violations do not depend on the order in which an
object gives them. -/
def sortFields (fields : List (Text × Value)) : List (Text × Value) :=
  fields.mergeSort fun a b => a.1 ≤ b.1

def absentNames (fields : List (Text × Value)) (names : List String) : List String :=
  names.filter fun (name : String) => (Value.field? fields name).isNone

mutual

def check : Keyword → Value → List Violation
  | .type types, v =>
    violationIf (!types.any (·.holds v))
      (v.quoted ++ " is not of type " ++ quotedNames (types.map (·.name)))
  | .required names, .object fields =>
    (absentNames fields names).map fun (name : String) =>
      ⟨[], Text.quote name ++ " is a required property"⟩
  | .pattern p, .text s =>
    violationIf (!p.admits s) (Text.quote s ++ " does not match " ++ Text.quote p.text)
  | .oneOf names, v =>
    violationIf (match v with
        | .text s => !names.any fun (name : String) => name = s
        | _ => true)
      (v.quoted ++ " is not one of [" ++ quotedNames names ++ "]")
  | .minimum n, .number x =>
    violationIf (x.lt (.whole n))
      (x.display ++ " is less than the minimum of " ++ toString n)
  | .maximum n, .number x =>
    violationIf (Scalar.lt (.whole n) x)
      (x.display ++ " is greater than the maximum of " ++ toString n)
  | .items schema, .list items =>
    items.zipIdx.flatMap fun (v, i) => (checkAll schema v).map (·.under (.index i))
  | .properties schemas, .object fields => checkProperties schemas fields
  | .otherProperties schema, .object fields =>
    (sortFields fields).flatMap fun (name, v) => (checkAll schema v).map (·.under (.name name))
  | _, _ => []

def checkAll : List Keyword → Value → List Violation
  | [], _ => []
  | keyword :: rest, v => check keyword v ++ checkAll rest v

/-- The violations of the schemas of named fields; a field that is absent violates none. -/
def checkProperties : List (String × List Keyword) → List (Text × Value) → List Violation
  | [], _ => []
  | (name, schema) :: rest, fields =>
    (match Value.field? fields name with
      | some v => (checkAll schema v).map (·.under (.name name))
      | none => []) ++ checkProperties rest fields

end

end TraceExplorer.Schema
