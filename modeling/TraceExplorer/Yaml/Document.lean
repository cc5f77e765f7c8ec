import TraceExplorer.Yaml.Shape

/-!
# Reading YAML

Reads a text that holds at most one document. A document whose top is a mapping is given by the
entries of that mapping. Their values are worked out one by one when they are asked for, as one
that is never looked at may be very large.
-/

namespace TraceExplorer.Yaml

/-- The mapping at the top of a document: its entries, and the shapes of all nodes. -/
structure TopMapping where
  entries : List (Nat × Nat)
  shapes : Array (Option Shape)

namespace TopMapping

def empty : TopMapping := ⟨[], #[]⟩

def value (m : TopMapping) (number : Nat) : Value :=
  Shape.value m.shapes (m.shapes.size + 1) [] number

def field? (m : TopMapping) (name : Text) : Option Value :=
  (m.entries.find? fun (k, _) =>
    match m.value k with
    | .text s => s == name
    | _ => false).map fun (_, v) => m.value v

def fields (m : TopMapping) : List (Value × Value) :=
  m.entries.map fun (k, v) => (m.value k, m.value v)

end TopMapping

inductive Document where
  /-- No document, or one that says nothing. -/
  | nothing
  | mapping (top : TopMapping)
  | other

namespace Document

def faultOfFlaw : Flaw → Fault
  | .malformed => .malformed
  | .noCodePoint => .failed (.unusableValue "code point out of range")
  | .codeOverflow => .failed (.arithmetic .overflow)
  | .versionTooLong => .failed (.unusableValue "version number with too many digits")

/-- The fault for which tokens form no document. If they end too early, it is the flaw that ended
them. -/
def faultOfStop (flaw : Option Flaw) : Graph.Stop → Fault
  | .malformed => .malformed
  | .tooDeep => .failed .tooDeep
  | .outOfTokens => (flaw.map faultOfFlaw).getD .malformed

def ofGraph (g : Graph) : Except Fault Document := do
  let shapes ← Shape.ofGraph g
  match shapes[g.top]?.join with
  | some (.mapping entries) => return mapping ⟨entries, shapes⟩
  | some (.plain .null _) => return nothing
  | _ => return other

def ofText (text : String) : Except Fault Document := do
  let list := TokenList.ofText text
  match ← (Graph.ofTokens list.tokens).mapError (faultOfStop list.flaw) with
  | some g => ofGraph g
  | none => return nothing

end Document

end TraceExplorer.Yaml
