import TraceExplorer.Failure
import TraceExplorer.Json.Value
import TraceExplorer.Number.Numeral

/-!
# Reading JSON

Reads a whole text as one JSON value. The names of the special doubles are numbers too, and of
fields with the same name the first gives the place and the last the value. An escape may name
half of a surrogate pair, which is kept. A fault names what was expected and where, counted in
code points.
-/

namespace TraceExplorer.Json

open Number (Scalar Double spanDigits splitSign isAsciiDigit natOfDigits digitLimit hexValue?)

inductive Expectation where
  | value
  | fieldName
  | colon
  | comma
  | stringEnd
  | noControl
  | escape
  | codeEscape
  | endOfText
  | noByteOrderMark
  deriving DecidableEq, Repr

def Expectation.message : Expectation → String
  | value => "Expecting value"
  | fieldName => "Expecting property name enclosed in double quotes"
  | colon => "Expecting ':' delimiter"
  | comma => "Expecting ',' delimiter"
  | stringEnd => "Unterminated string starting at"
  | noControl => "Invalid control character at"
  | escape => "Invalid \\escape"
  | codeEscape => "Invalid \\uXXXX escape"
  | endOfText => "Extra data"
  | noByteOrderMark => "Unexpected UTF-8 BOM (decode using utf-8-sig)"

/-- Why a text is not read: a fault with its offset, a whole number with too many digits, or lists
and objects inside each other beyond the limit. -/
inductive Fault where
  | malformed (expected : Expectation) (line column offset : Nat)
  | integerTooLong
  | tooDeep
  deriving DecidableEq, Repr

def Fault.message : Fault → String
  | malformed expected line column offset =>
    s!"{expected.message}: line {line} column {column} (char {offset})"
  | integerTooLong => "Exceeds the limit (4300 digits) for integer string conversion"
  | tooDeep => "nested too deeply"

def Fault.failure : Fault → Failure
  | .integerTooLong => .unusableValue (Fault.message .integerTooLong)
  | .tooDeep => .tooDeep
  | fault => .notJson fault.message

/-- A fault inside the reader: the place is given by the code points that are left. -/
inductive Stop where
  | fault (expected : Expectation) (left : Nat)
  | integerTooLong
  | tooDeep

/-- The text left after a part of `s` was read. -/
abbrev Rest (s : List CodePoint) := { r : List CodePoint // r.length < s.length }

def isSpace (c : Char) : Bool := c = ' ' || c = '\t' || c = '\n' || c = '\r'

def skipSpace (s : List CodePoint) : List CodePoint := s.dropWhile (·.isChar isSpace)

theorem length_skipSpace_le (s : List CodePoint) : (skipSpace s).length ≤ s.length :=
  (List.dropWhile_sublist _).length_le

/-! ## Strings -/

def hexFour? (s : List CodePoint) : Option Nat := do
  guard (4 ≤ s.length)
  (s.take 4).foldlM (fun n p => do return 16 * n + (← hexValue? (← p.char?))) 0

def shortEscape? : Char → Option Char
  | '"' => some '"'
  | '\\' => some '\\'
  | '/' => some '/'
  | 'b' => some '\x08'
  | 'f' => some '\x0c'
  | 'n' => some '\n'
  | 'r' => some '\r'
  | 't' => some '\t'
  | _ => none

/-- Reads the escape after a backslash and `u`: a code point and how many characters the escape
takes. Two escapes of a surrogate pair are one character. -/
def readCodeEscape (s : List CodePoint) : Except Stop (CodePoint × Nat) :=
  match hexFour? s with
  | none => .error (.fault .codeEscape (s.length + 1))
  | some high =>
    if s.length ≤ 4 then .error (.fault .codeEscape (s.length + 1))
    else if 0xD800 ≤ high && high < 0xDC00 && 10 < s.length && s[4]? == some (.char '\\') &&
        s[5]? == some (.char 'u') then
      match hexFour? (s.drop 6) with
      | none => .error (.fault .codeEscape (s.length - 5))
      | some low =>
        if 0xDC00 ≤ low && low < 0xE000 then
          .ok (.ofNat (0x10000 + (high - 0xD800) * 0x400 + (low - 0xDC00)), 10)
        else .ok (.ofNat high, 4)
    else .ok (.ofNat high, 4)

/-- Reads a string after its opening quote, which had `opened` code points left; those read so far
are held in reverse order. -/
def readString (opened : Nat) (taken s : List CodePoint) : Except Stop (Text × Rest s) :=
  match s with
  | [] => .error (.fault .stringEnd opened)
  | .char '"' :: rest => .ok (⟨taken.reverse⟩, ⟨rest, by simp⟩)
  | [.char '\\'] => .error (.fault .stringEnd opened)
  | .char '\\' :: .char 'u' :: rest =>
    match readCodeEscape rest with
    | .error stop => .error stop
    | .ok (c, width) =>
      match readString opened (c :: taken) (rest.drop width) with
      | .error stop => .error stop
      | .ok (t, r) => .ok (t, ⟨r.1, by have := r.2; simp at this ⊢; omega⟩)
  | .char '\\' :: c :: rest =>
    match c.char?.bind shortEscape? with
    | none => .error (.fault .escape (rest.length + 2))
    | some e =>
      match readString opened (.char e :: taken) rest with
      | .error stop => .error stop
      | .ok (t, r) => .ok (t, ⟨r.1, by have := r.2; simp; omega⟩)
  | c :: rest =>
    if c.code < 0x20 then .error (.fault .noControl (rest.length + 1))
    else
      match readString opened (c :: taken) rest with
      | .error stop => .error stop
      | .ok (t, r) => .ok (t, ⟨r.1, by have := r.2; simp; omega⟩)
termination_by s.length

/-! ## Numbers -/

/-- Splits off the whole part of a number: a zero alone, or digits that do not start with one. -/
def spanWhole (s : List Char) : List Char × List Char :=
  match s with
  | '0' :: rest => (['0'], rest)
  | _ => spanDigits s

/-- Splits off a point and digits, if a digit follows the point. -/
def spanPoint (s : List Char) : Option (List Char) × List Char :=
  match s with
  | '.' :: c :: rest =>
    if isAsciiDigit c then
      let (digits, after) := spanDigits (c :: rest)
      (some digits, after)
    else (none, s)
  | _ => (none, s)

/-- Splits off an exponent, if it has a digit. -/
def spanExponent (s : List Char) : Option Int × List Char :=
  match s with
  | mark :: rest =>
    if mark = 'e' || mark = 'E' then
      let (negative, body) := splitSign rest
      let (digits, after) := spanDigits body
      if digits.isEmpty then (none, s)
      else
        let n : Int := natOfDigits digits
        (some (if negative then -n else n), after)
    else (none, s)
  | [] => (none, s)

/-- Reads a number and the characters left. Nothing is read if there is none. -/
def readNumber (s : List Char) : Except Stop (Option (Value × List Char)) :=
  let (negative, body) := match s with
    | '-' :: rest => (true, rest)
    | _ => (false, s)
  let (whole, afterWhole) := spanWhole body
  if whole.isEmpty then .ok none
  else
    let (fraction, afterFraction) := spanPoint afterWhole
    let (exponent, rest) := spanExponent afterFraction
    match fraction, exponent with
    | none, none =>
      if digitLimit < whole.length then .error .integerTooLong
      else
        let n : Int := natOfDigits whole
        .ok (some (.number (.whole (if negative then -n else n)), rest))
    | _, _ =>
      let places := fraction.getD []
      .ok (some (.number (.real (.ofDecimal negative (natOfDigits (whole ++ places))
        (exponent.getD 0 - places.length))), rest))

def words : List (String × Value) :=
  [("null", .null), ("true", .bool true), ("false", .bool false), ("NaN", .number (.real .nan)),
    ("Infinity", .number (.real (.infinite false))),
    ("-Infinity", .number (.real (.infinite true)))]

def isAtomChar (c : Char) : Bool :=
  isAsciiDigit c || ('a' ≤ c && c ≤ 'z') || ('A' ≤ c && c ≤ 'Z') || c = '-' || c = '+' || c = '.'

def atomChars (s : List CodePoint) : List Char :=
  (s.takeWhile (·.isChar isAtomChar)).filterMap (·.char?)

def readAtom (s : List CodePoint) : Except Stop (Value × List CodePoint) :=
  let atom := atomChars s
  match words.find? fun (word, _) => word.toList.isPrefixOf atom with
  | some (word, v) => .ok (v, s.drop word.length)
  | none =>
    match readNumber atom with
    | .error stop => .error stop
    | .ok none => .error (.fault .value s.length)
    | .ok (some (v, left)) => .ok (v, s.drop (atom.length - left.length))

/-- The most lists and objects that may stand inside each other. The format sets no limit: this is
the room that the stack of one interpreter leaves to the reader when it is called at one depth. -/
def depthLimit : Nat := 990

/-! ## Values -/

mutual

/-- Reads a value at the start of the text; lists and objects may stand inside each other down to
the given depth. -/
def readValue (depth : Nat) (s : List CodePoint) : Except Stop (Value × Rest s) :=
  match s with
  | .char '"' :: rest =>
    match readString (rest.length + 1) [] rest with
    | .error stop => .error stop
    | .ok (t, r) => .ok (.text t, ⟨r.1, by have := r.2; simp; omega⟩)
  | .char '[' :: rest =>
    if depth = 0 then .error .tooDeep
    else
      match h : skipSpace rest with
      | .char ']' :: after =>
        .ok (.list [], ⟨after, by
          have := length_skipSpace_le rest
          simp [h] at this ⊢; omega⟩)
      | start =>
        match readItems (depth - 1) start with
        | .error stop => .error stop
        | .ok (items, r) => .ok (.list items, ⟨r.1, by
            have := length_skipSpace_le rest
            have := r.2
            simp [h] at *; omega⟩)
  | .char '{' :: rest =>
    if depth = 0 then .error .tooDeep
    else
      match h : skipSpace rest with
      | .char '}' :: after =>
        .ok (.object [], ⟨after, by
          have := length_skipSpace_le rest
          simp [h] at this ⊢; omega⟩)
      | start =>
        match readFields (depth - 1) [] start with
        | .error stop => .error stop
        | .ok (fields, r) => .ok (.object fields, ⟨r.1, by
            have := length_skipSpace_le rest
            have := r.2
            simp [h] at *; omega⟩)
  | other =>
    match readAtom other with
    | .error stop => .error stop
    | .ok (v, rest) =>
      if h : rest.length < other.length then .ok (v, ⟨rest, h⟩)
      else .error (.fault .value other.length)
termination_by (s.length, 0)
decreasing_by all_goals
  have := length_skipSpace_le rest
  simp_all [Prod.lex_def]
  try omega

def readItems (depth : Nat) (s : List CodePoint) : Except Stop (List Value × Rest s) :=
  match readValue depth s with
  | .error stop => .error stop
  | .ok (v, r) =>
    match h : skipSpace r.1 with
    | .char ']' :: after => .ok ([v], ⟨after, by
        have := length_skipSpace_le r.1
        have := r.2
        simp [h] at *; omega⟩)
    | .char ',' :: after =>
      match readItems depth (skipSpace after) with
      | .error stop => .error stop
      | .ok (items, q) => .ok (v :: items, ⟨q.1, by
          have := length_skipSpace_le r.1
          have := length_skipSpace_le after
          have := r.2
          have := q.2
          simp [h] at *; omega⟩)
    | other => .error (.fault .comma other.length)
termination_by (s.length, 1)
decreasing_by
  · simp [Prod.lex_def]
  · have := length_skipSpace_le r.1
    have := length_skipSpace_le after
    have := r.2
    simp [h, Prod.lex_def] at *; omega

def readFields (depth : Nat) (fields : List (Text × Value)) (s : List CodePoint) :
    Except Stop (List (Text × Value) × Rest s) :=
  match s with
  | .char '"' :: start =>
    match readString (start.length + 1) [] start with
    | .error stop => .error stop
    | .ok (name, r) =>
      match h : skipSpace r.1 with
      | .char ':' :: after =>
        match readValue depth (skipSpace after) with
        | .error stop => .error stop
        | .ok (v, q) =>
          match h' : skipSpace q.1 with
          | .char '}' :: rest => .ok (setField fields name v, ⟨rest, by
              have := length_skipSpace_le r.1
              have := length_skipSpace_le after
              have := length_skipSpace_le q.1
              have := r.2
              have := q.2
              simp [h, h'] at *; omega⟩)
          | .char ',' :: rest =>
            match readFields depth (setField fields name v) (skipSpace rest) with
            | .error stop => .error stop
            | .ok (all, p) => .ok (all, ⟨p.1, by
                have := length_skipSpace_le r.1
                have := length_skipSpace_le after
                have := length_skipSpace_le q.1
                have := length_skipSpace_le rest
                have := r.2
                have := q.2
                have := p.2
                simp [h, h'] at *; omega⟩)
          | other => .error (.fault .comma other.length)
      | other => .error (.fault .colon other.length)
  | other => .error (.fault .fieldName other.length)
termination_by (s.length, 1)
decreasing_by
  · have := length_skipSpace_le r.1
    have := length_skipSpace_le after
    have := r.2
    simp [h, Prod.lex_def] at *; omega
  · have := length_skipSpace_le r.1
    have := length_skipSpace_le after
    have := length_skipSpace_le q.1
    have := length_skipSpace_le rest
    have := r.2
    have := q.2
    simp [h, h', Prod.lex_def] at *; omega

end

/-! ## Whole texts -/

/-- The place of a fault that left the given number of code points. -/
def locate (s : List CodePoint) : Stop → Fault
  | .integerTooLong => .integerTooLong
  | .tooDeep => .tooDeep
  | .fault expected left =>
    let before := s.take (s.length - left)
    let onLine := (before.reverse.takeWhile (· != .char '\n')).length
    .malformed expected (before.count (.char '\n') + 1) (onLine + 1) before.length

def read (source : Text) : Except Fault Value :=
  let s := source.points
  if s.head? = some (.char '\uFEFF') then .error (locate s (.fault .noByteOrderMark s.length))
  else
    match readValue depthLimit (skipSpace s) with
    | .error stop => .error (locate s stop)
    | .ok (v, r) =>
      match skipSpace r.1 with
      | [] => .ok v
      | extra => .error (locate s (.fault .endOfText extra.length))

end TraceExplorer.Json
