import Handoff.Json.Fault
import Handoff.Number.Scaling
/-!
# JSON texts, read but not yet understood

A `Source` is what a text says in the order in which it says it: repeated members are still there,
and a fault stands where the text has it. Whoever takes the source apart in text order therefore
meets the first fault of the text first, whether it is one of grammar or of type.

There are two ways to take a source apart. *Reading* uses its numbers and strings; *skipping* only
follows the grammar, so it does not mind a number out of range or half a surrogate pair, and does
not count how deep a value nests. `Source.skip` is the second way, `Source.toJson` the first where
no particular type is expected. Where only a string may stand, `Source.key` looks no further than the
first character of anything else.

`readText` makes the source of a text. It is total by a bound on its steps that no text reaches.
-/
namespace Handoff

/-- What a value that cannot be followed starts as. -/
inductive Opening where
  /-- Nothing is left, or nothing that a value starts with. -/
  | nothing
  | string
  | null
  | other
deriving DecidableEq, Inhabited

/-- One value of a text, or the fault that stands in its place. -/
inductive Source where
  | null
  | boolean (b : Bool)
  | number (n : Numeral)
  | string (s : String)
  /-- A number out of range or a string with half a surrogate pair. -/
  | unreadable
  /-- The text cannot be followed beyond this value; which fault that is depends on the way it is
  taken apart. -/
  | broken (opening : Opening) (reading skipping : Fault)
  /-- The items, and the fault that stands where the list should end. -/
  | array (items : List Source) (ending : Option Fault)
  /-- Keys with values, and the fault that stands where the object should end. A key is a string or
  broken. -/
  | object (members : List (Source × Source)) (ending : Option Fault)
deriving Inhabited

namespace Source

def fault (f : Fault) : Source := .broken .nothing f f

/-- White space between the parts of a text. -/
def isSpace (c : Char) : Bool :=
  c == ' ' || c == '\n' || c == '\t' || c == '\r'

def skipSpace (cs : List Char) : List Char :=
  cs.dropWhile isSpace

/-! ## Strings -/

/-- The value of a digit in base 16. -/
def hexValue? (c : Char) : Option Nat :=
  if c.isDigit then some (c.toNat - '0'.toNat)
  else if 'a' ≤ c && c ≤ 'f' then some (c.toNat - 'a'.toNat + 10)
  else if 'A' ≤ c && c ≤ 'F' then some (c.toNat - 'A'.toNat + 10)
  else none

/-- The code that four digits in base 16 spell. -/
def hexCode? (a b c d : Char) : Option Nat := do
  let a ← hexValue? a
  let b ← hexValue? b
  let c ← hexValue? c
  let d ← hexValue? d
  return ((a * 16 + b) * 16 + c) * 16 + d

/-- Whether a code is the first half of a surrogate pair. -/
def isHighHalf (n : Nat) : Bool := 0xD800 ≤ n && n ≤ 0xDBFF

/-- Whether a code is the second half of a surrogate pair. -/
def isLowHalf (n : Nat) : Bool := 0xDC00 ≤ n && n ≤ 0xDFFF

def pairChar (high low : Nat) : Char :=
  Char.ofNat (0x10000 + (high - 0xD800) * 0x400 + (low - 0xDC00))

/-- The character that a backslash and a letter stand for. -/
def simpleEscape? (c : Char) : Option Char :=
  if c = '"' then some '"'
  else if c = '\\' then some '\\'
  else if c = '/' then some '/'
  else if c = 'b' then some '\x08'
  else if c = 'f' then some '\x0c'
  else if c = 'n' then some '\n'
  else if c = 'r' then some '\r'
  else if c = 't' then some '\t'
  else none

/-- The fault of an escape by code with fewer than four characters after it: the text ends unless
four bytes are there. -/
def shortCode (rest : List Char) : Fault :=
  if (String.ofList rest).utf8ByteSize < 4 then .endOfText else .malformed

/-- One step through a string after its opening quote. -/
inductive Piece where
  /-- The closing quote. -/
  | close (rest : List Char)
  | char (c : Char) (rest : List Char)
  /-- Half a surrogate pair that stands alone. -/
  | half (rest : List Char)
  | stop (f : Fault)

/-- The text after a step; nothing is left where the string cannot be followed. -/
def Piece.rest : Piece → List Char
  | .close rest => rest
  | .char _ rest => rest
  | .half rest => rest
  | .stop _ => []

/-- The step after the first half of a surrogate pair. -/
def secondHalf (high : Nat) (rest : List Char) : Piece :=
  match rest with
  | '\\' :: 'u' :: a :: b :: c :: d :: later =>
    match hexCode? a b c d with
    | none => .stop .malformed
    | some low => if isLowHalf low then .char (pairChar high low) later else .half rest
  | '\\' :: 'u' :: short => .stop (shortCode short)
  | [] => .stop .endOfText
  | ['\\'] => .stop .endOfText
  | _ => .half rest

/-- The step a text starts with. -/
def piece : List Char → Piece
  | [] => .stop .endOfText
  | '"' :: rest => .close rest
  | ['\\'] => .stop .endOfText
  | '\\' :: 'u' :: a :: b :: c :: d :: rest =>
    match hexCode? a b c d with
    | none => .stop .malformed
    | some n =>
      if isLowHalf n then .half rest
      else if isHighHalf n then secondHalf n rest
      else .char (Char.ofNat n) rest
  | '\\' :: 'u' :: short => .stop (shortCode short)
  | '\\' :: c :: rest =>
    match simpleEscape? c with
    | some e => .char e rest
    | none => .stop .malformed
  | c :: rest => if c.toNat < 32 then .stop .malformed else .char c rest

theorem secondHalf_rest_le (high : Nat) (rest : List Char) :
    (secondHalf high rest).rest.length ≤ rest.length := by
  unfold secondHalf
  split
  · split
    · simp [Piece.rest]
    · split
      · simp [Piece.rest]; omega
      · simp [Piece.rest]
  all_goals simp [Piece.rest]

theorem piece_rest_lt {cs : List Char} (h : cs ≠ []) : (piece cs).rest.length < cs.length := by
  unfold piece
  split
  · exact absurd rfl h
  · simp [Piece.rest]
  · simp [Piece.rest]
  · split
    · simp [Piece.rest]
    · next rest _ n _ =>
      split
      · simp [Piece.rest]; omega
      · split
        · have := secondHalf_rest_le n rest
          simp only [List.length_cons]; omega
        · simp [Piece.rest]; omega
  · simp [Piece.rest]
  · split <;> simp only [Piece.rest, List.length_cons, List.length_nil] <;> omega
  · split <;> simp [Piece.rest]

/-- The rest of a string after its opening quote. `done` holds the characters so far, backwards, and
`readable` falls when half a surrogate pair stands alone. -/
def stringRest (readable : Bool) (done : List Char) (cs : List Char) :
    Source × Option (List Char) :=
  match _step : piece cs with
  | .close rest =>
    (if readable then .string (String.ofList done.reverse) else .unreadable, some rest)
  | .char c rest => stringRest readable (c :: done) rest
  | .half rest => stringRest false done rest
  | .stop f => (.broken .string (if readable then f else .malformed) f, none)
termination_by cs.length
decreasing_by
  all_goals
    have shorter := @piece_rest_lt cs (by rintro rfl; simp [piece] at _step)
    rw [_step] at shorter
    exact shorter

/-! ## Numbers -/

def digits (cs : List Char) : List Nat × List Char :=
  ((cs.takeWhile Char.isDigit).map fun c => c.toNat - '0'.toNat, cs.dropWhile Char.isDigit)

def ofDigits (ds : List Nat) : Nat :=
  ds.foldl (fun n d => n * 10 + d) 0

/-- A number that misses its digits: to a reader the text ends where it ends. -/
def missingDigits (rest : List Char) : Source × Option (List Char) :=
  (.broken .other (if rest.isEmpty then .endOfText else .malformed) .malformed, none)

/-- The number with these digits before and after the point, times a power of ten. -/
def realOf (negative : Bool) (whole fraction : List Nat) (exponent : Int) : Source :=
  let (significand, taken) := Number.absorb 0 whole
  let (significand, used) := Number.absorb significand fraction
  match Number.scale significand ((whole.length : Int) - taken - used + exponent) with
  | some x => .number (.real (if negative then -x else x))
  | none => .unreadable

/-- A number without fraction and exponent; what does not fit 64 bits is not kept as an integer, and
neither is a zero with a sign. -/
def integerOf (negative : Bool) (whole : List Nat) : Source :=
  let n := ofDigits whole
  if negative then
    if 0 < n ∧ Int64.minValue.toInt ≤ -n then .number (.integer (-n)) else realOf true whole [] 0
  else if n < Number.wordBound then .number (.integer n) else realOf false whole [] 0

/-- The exponent after its letter. -/
def exponentRest (negative : Bool) (whole fraction : List Nat) (cs : List Char) :
    Source × Option (List Char) :=
  let (down, cs) := match cs with
    | '+' :: rest => (false, rest)
    | '-' :: rest => (true, rest)
    | _ => (false, cs)
  let (ds, rest) := digits cs
  if ds.isEmpty then missingDigits rest
  else
    let size : Int := ofDigits ds
    (realOf negative whole fraction (if down then -size else size), some rest)

/-- A number after its sign. -/
def numberRest (negative : Bool) (cs : List Char) : Source × Option (List Char) :=
  let (whole, rest) := digits cs
  if whole.isEmpty then missingDigits rest
  else if 1 < whole.length ∧ whole.head? = some 0 then (fault .malformed, none)
  else match rest with
    | '.' :: rest =>
      let (fraction, rest) := digits rest
      if fraction.isEmpty then missingDigits rest
      else match rest with
        | 'e' :: rest => exponentRest negative whole fraction rest
        | 'E' :: rest => exponentRest negative whole fraction rest
        | _ => (realOf negative whole fraction 0, some rest)
    | 'e' :: rest => exponentRest negative whole [] rest
    | 'E' :: rest => exponentRest negative whole [] rest
    | _ => (integerOf negative whole, some rest)

/-! ## Values -/

/-- A word of which the first letter is known. -/
def wordRest (value : Source) : List Char → List Char → Source × Option (List Char)
  | [], rest => (value, some rest)
  | _ :: _, [] =>
    let opening := match value with
      | .null => Opening.null
      | _ => Opening.other
    (.broken opening .endOfText .endOfText, none)
  | w :: ws, c :: rest => if w = c then wordRest value ws rest else (fault .malformed, none)

mutual

/-- The value a text starts with, and the rest unless the text cannot be followed. The first
argument bounds the steps. -/
def valueOf : Nat → List Char → Source × Option (List Char)
  | 0, _ => (fault .malformed, none)
  | steps + 1, cs =>
    match skipSpace cs with
    | [] => (fault .endOfText, none)
    | 'n' :: rest => wordRest .null "ull".toList rest
    | 't' :: rest => wordRest (.boolean true) "rue".toList rest
    | 'f' :: rest => wordRest (.boolean false) "alse".toList rest
    | '"' :: rest => stringRest true [] rest
    | '-' :: rest => numberRest true rest
    | '[' :: rest =>
      match skipSpace rest with
      | [] => (.array [] (some .endOfText), none)
      | ']' :: rest => (.array [] none, some rest)
      | rest =>
        let (items, ending, rest) := itemsOf steps rest
        (.array items ending, rest)
    | '\x7b' :: rest =>
      match skipSpace rest with
      | [] => (.object [] (some .endOfText), none)
      | '\x7d' :: rest => (.object [] none, some rest)
      | rest =>
        let (members, ending, rest) := membersOf steps rest
        (.object members ending, rest)
    | c :: rest => if c.isDigit then numberRest false (c :: rest) else (fault .malformed, none)

/-- The items of a list, from one that has to come. -/
def itemsOf : Nat → List Char → List Source × Option Fault × Option (List Char)
  | 0, _ => ([], some .malformed, none)
  | steps + 1, cs =>
    match valueOf steps cs with
    | (v, none) => ([v], none, none)
    | (v, some rest) =>
      match skipSpace rest with
      | [] => ([v], some .endOfText, none)
      | ']' :: rest => ([v], none, some rest)
      | ',' :: rest =>
        let (vs, ending, rest) := itemsOf steps rest
        (v :: vs, ending, rest)
      | _ => ([v], some .malformed, none)

/-- The members of an object, from one that has to come. -/
def membersOf : Nat → List Char → List (Source × Source) × Option Fault × Option (List Char)
  | 0, _ => ([], some .malformed, none)
  | steps + 1, cs =>
    match skipSpace cs with
    | '"' :: rest =>
      match stringRest true [] rest with
      | (key, none) => ([(key, fault .malformed)], none, none)
      | (key, some rest) =>
        match skipSpace rest with
        | [] => ([(key, fault .endOfText)], none, none)
        | ':' :: rest =>
          match valueOf steps rest with
          | (v, none) => ([(key, v)], none, none)
          | (v, some rest) =>
            match skipSpace rest with
            | [] => ([(key, v)], some .endOfText, none)
            | '\x7d' :: rest => ([(key, v)], none, some rest)
            | ',' :: rest =>
              let (members, ending, rest) := membersOf steps rest
              ((key, v) :: members, ending, rest)
            | _ => ([(key, v)], some .malformed, none)
        | _ => ([(key, fault .malformed)], none, none)
    | [] => ([(fault .endOfText, fault .endOfText)], none, none)
    | _ => ([(fault .malformed, fault .malformed)], none, none)

end

/-- The source of a text, and the fault that stands after it. -/
def readText (text : String) : Source × Option Fault :=
  let cs := text.toList
  match valueOf (2 * cs.length + 2) cs with
  | (v, some rest) => (v, if (skipSpace rest).isEmpty then none else some .malformed)
  | (v, none) => (v, none)

/-! ## Taking a source apart -/

/-- Follows the grammar of a value and uses nothing of it. -/
def skip : Source → Except Fault Unit
  | .broken _ _ skipping => .error skipping
  | .array items ending => do
    skipItems items
    ending.forM throw
  | .object members ending => do
    skipMembers members
    ending.forM throw
  | _ => .ok ()
where
  skipItems : List Source → Except Fault Unit
    | [] => .ok ()
    | v :: vs => do
      skip v
      skipItems vs
  skipMembers : List (Source × Source) → Except Fault Unit
    | [] => .ok ()
    | (key, v) :: rest => do
      skip key
      skip v
      skipMembers rest

/-- The string where only a string may stand. -/
def key : Source → Except Fault String
  | .string s => .ok s
  | .broken .nothing reading _ => .error reading
  | .broken .string reading _ => .error reading
  | _ => .error .malformed

/-- The whole value, at most `depth` levels deep. -/
def toJson (depth : Nat) : Source → Except Fault Json
  | .null => .ok .null
  | .boolean b => .ok (.boolean b)
  | .number n => .ok (.number n)
  | .string s => .ok (.string s)
  | .unreadable => .error .malformed
  | .broken _ reading _ => .error reading
  | .array items ending =>
    match depth with
    | 0 => .error .malformed
    | depth + 1 => do
      let items ← itemsToJson depth items
      ending.forM throw
      return .array items
  | .object members ending =>
    match depth with
    | 0 => .error .malformed
    | depth + 1 => do
      let members ← membersToJson depth members
      ending.forM throw
      return .object members
where
  itemsToJson (depth : Nat) : List Source → Except Fault (List Json)
    | [] => .ok []
    | v :: vs => do
      let v ← toJson depth v
      return v :: (← itemsToJson depth vs)
  membersToJson (depth : Nat) : List (Source × Source) → Except Fault (List (String × Json))
    | [] => .ok []
    | (k, v) :: rest => do
      let k ← key k
      let v ← toJson depth v
      return (k, v) :: (← membersToJson depth rest)

/-- The fault of a value that is not of the expected type. -/
def wrongType (expected : String) : Source → Fault
  | .null => .mismatch (.wrongType .null expected)
  | .boolean b => .mismatch (.wrongType (.boolean b) expected)
  | .number n => .mismatch (.wrongType (.number n) expected)
  | .string s => .mismatch (.wrongType (.string s) expected)
  | .unreadable => .malformed
  | .broken _ reading _ => reading
  | .array _ _ => .mismatch (.wrongType .array expected)
  | .object _ _ => .mismatch (.wrongType .object expected)

end Source

/-- How deep the values of a text may nest. -/
def maxDepth : Nat := 127

namespace Json

/-- The value that a text holds. -/
def ofText (text : String) : Except Fault Json :=
  let (source, trailing) := Source.readText text
  do
    let v ← source.toJson maxDepth
    trailing.forM throw
    return v

end Json
end Handoff
