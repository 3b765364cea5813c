import Handoff.Number.Text
/-!
# JSON values and their text

A value keeps the order of its members and does not forget repeated ones. Its text has no blanks;
only quotes, backslashes and control characters are escaped, and a number that JSON cannot write is
`null`.
-/
namespace Handoff

/-- A number of a JSON text: one without fraction and exponent that fits 64 bits is an integer. -/
inductive Numeral where
  | integer (n : Int)
  | real (x : Float)
deriving Inhabited

inductive Json where
  | null
  | boolean (b : Bool)
  | number (n : Numeral)
  | string (s : String)
  | array (items : List Json)
  | object (members : List (String × Json))
deriving Inhabited

def Numeral.toFloat : Numeral → Float
  | .integer n => Float.ofInt n
  | .real x => x

def Numeral.chars : Numeral → List Char
  | .integer n => (toString n).toList
  | .real x => if x.isFinite then (Number.Spelling.json.text x).toList else "null".toList

namespace Json

def hexDigit (n : Nat) : Char :=
  if n < 10 then Char.ofNat ('0'.toNat + n) else Char.ofNat ('a'.toNat + (n - 10))

/-- A character inside quotes. -/
def escapeChar (c : Char) : List Char :=
  if c = '"' then ['\\', '"']
  else if c = '\\' then ['\\', '\\']
  else if c = '\n' then ['\\', 'n']
  else if c = '\r' then ['\\', 'r']
  else if c = '\t' then ['\\', 't']
  else if c = '\x08' then ['\\', 'b']
  else if c = '\x0c' then ['\\', 'f']
  else if c.toNat < 32 then
    ['\\', 'u', '0', '0', hexDigit (c.toNat / 16), hexDigit (c.toNat % 16)]
  else [c]

def quote (s : String) : List Char :=
  '"' :: s.toList.flatMap escapeChar ++ ['"']

/-- The characters of a value's text. -/
def chars : Json → List Char
  | .null => ['n', 'u', 'l', 'l']
  | .boolean true => ['t', 'r', 'u', 'e']
  | .boolean false => ['f', 'a', 'l', 's', 'e']
  | .number n => n.chars
  | .string s => quote s
  | .array items => '[' :: itemChars items ++ [']']
  | .object members => '\x7b' :: memberChars members ++ ['\x7d']
where
  itemChars : List Json → List Char
    | [] => []
    | [v] => chars v
    | v :: vs => chars v ++ ',' :: itemChars vs
  memberChars : List (String × Json) → List Char
    | [] => []
    | [(key, v)] => quote key ++ ':' :: chars v
    | (key, v) :: rest => quote key ++ ':' :: chars v ++ ',' :: memberChars rest

def text (v : Json) : String :=
  String.ofList v.chars

def member? (name : String) : Json → Option Json
  | .object members => members.lookup name
  | _ => none

def real (x : Float) : Json := .number (.real x)

/-- A member that is left out when there is nothing to say. -/
def optional (name : String) (v : Option Json) : List (String × Json) :=
  match v with
  | some v => [(name, v)]
  | none => []

/-- A list member that is left out when the list is empty. -/
def unlessEmpty (name : String) (items : List Json) : List (String × Json) :=
  if items.isEmpty then [] else [(name, .array items)]

end Json
end Handoff
