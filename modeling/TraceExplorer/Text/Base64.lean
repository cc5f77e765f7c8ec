/-!
# Bytes in base 64

Four characters of base 64 write three bytes. Characters outside the alphabet are passed over. A
group may be cut short after two or three characters, when padding fills it up; padding in any
other place is passed over too, and nothing is read after padding that ends a group.
-/

namespace TraceExplorer.Base64

def sextet? (c : Char) : Option Nat :=
  if 'A' ≤ c && c ≤ 'Z' then some (c.toNat - 'A'.toNat)
  else if 'a' ≤ c && c ≤ 'z' then some (c.toNat - 'a'.toNat + 26)
  else if '0' ≤ c && c ≤ '9' then some (c.toNat - '0'.toNat + 52)
  else if c = '+' then some 62
  else if c = '/' then some 63
  else none

/-- The byte that the last two values of a group complete; the first value of a group completes
none. -/
def byteOf (position left value : Nat) : Option UInt8 :=
  match position with
  | 1 => some (UInt8.ofNat (left * 4 + value / 16))
  | 2 => some (UInt8.ofNat (left * 16 + value / 4))
  | 3 => some (UInt8.ofNat (left * 64 + value))
  | _ => none

/-- Reads characters, given how many of the group were read, the last value, and the padding since
then. A group may not end before its padding. -/
def decodeFrom (position left padding : Nat) : List Char → Option (List UInt8)
  | [] => if position = 0 then some [] else none
  | c :: rest =>
    if c = '=' then
      if position < 2 then decodeFrom position left padding rest
      else if 4 ≤ position + padding + 1 then some []
      else decodeFrom position left (padding + 1) rest
    else
      match sextet? c with
      | none => decodeFrom position left padding rest
      | some value => do
        let more ← decodeFrom ((position + 1) % 4) value 0 rest
        return (byteOf position left value).toList ++ more

def decode (s : List Char) : Option (List UInt8) := decodeFrom 0 0 0 s

end TraceExplorer.Base64
