import TraceExplorer.Yaml.Value

/-!
# The order of the members of a set

The members of a set are listed as they lie in a table of slots. A number is put into the slot of
its residue, or into a free one near it, or else into one further on. Sets with members that are
no numbers are listed as they are written.
-/

namespace TraceExplorer.Yaml.SetOrder

open Number (Scalar)

/-- The prime by which residues are taken, 2 to the power of 61 less one. -/
def modulus : Nat := 2305843009213693951

/-- The residue of a number of either sign; minus one is not used and stands for minus two. -/
def signed (negative : Bool) (magnitude : Nat) : Int :=
  let r : Int := magnitude % modulus
  if negative then (if r = 1 then -2 else -r) else r

/-- The residue of a rational whose denominator is a power of two: as the modulus is one less than
the 61st power, to divide by a power of two is to multiply by another. -/
def residueOfRat (q : Rat) : Int :=
  signed (q < 0) (q.num.natAbs % modulus * Nat.pow 2 ((61 - q.den.log2 % 61) % 61))

/-- The residue of a number. Equal numbers have equal residues. -/
def residue? : Scalar → Option Int
  | .whole n => some (signed (n < 0) n.natAbs)
  | .real (.finite q) => some (residueOfRat q)
  | .real .negativeZero => some 0
  | .real (.infinite negative) => some (if negative then -314159 else 314159)
  | .real .nan => none

/-- The number of slots for some members: a power of two, at least eight, and more than twice as
many as five or more members. -/
def slotCount (members : Nat) : Nat :=
  if members < 5 then 8 else max 8 (Nat.pow 2 ((2 * members).log2 + 1))

/-- How many slots after one are looked at before going further. -/
def neighbours : Nat := 9

def freeNear? {α : Type} (slots : Array (Option α)) (start : Nat) : Option Nat :=
  let last := if start + neighbours < slots.size then start + neighbours else start
  (List.range' start (last + 1 - start)).find? fun i => (slots[i]?.join).isNone

/-- The slot for a member. The high digits of its residue decide where to go further. -/
def freeSlot {α : Type} (slots : Array (Option α)) : Nat → Nat → Nat → Nat
  | 0, start, _ => start
  | fuel + 1, start, digits =>
    match freeNear? slots start with
    | some i => i
    | none => freeSlot slots fuel ((start * 5 + 1 + digits / 32) % slots.size) (digits / 32)

def place {α : Type} (slots : Array (Option α)) (member : α × Int) : Array (Option α) :=
  let digits := (member.2 % 18446744073709551616).toNat
  slots.setIfInBounds (freeSlot slots (slots.size + 16) (digits % slots.size) digits)
    (some member.1)

/-- Members in the order in which a set lists them. -/
def arrange (members : List Value) : List Value :=
  match members.mapM fun v => do return (v, ← residue? (← v.keyNumber?)) with
  | none => members
  | some placed =>
    (placed.foldl place (Array.replicate (slotCount members.length) none)).toList.filterMap id

end TraceExplorer.Yaml.SetOrder
