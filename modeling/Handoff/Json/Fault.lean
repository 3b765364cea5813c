import Handoff.Json.Basic
import Handoff.Text.HiddenTable
import Handoff.Text.Lower
/-!
# What can be wrong with a JSON text

A text may be malformed, may end too early, or may be well formed and hold the wrong thing. Only the
last kind is explained: `Mismatch.message` says what was found and what was expected.
-/
namespace Handoff

/-- What a reader met. -/
inductive Found where
  | null
  | boolean (b : Bool)
  | number (n : Numeral)
  | string (s : String)
  | array
  | object
deriving Inhabited

/-- Why a well-formed text does not hold what is asked for. -/
inductive Mismatch where
  | missingMember (name : String)
  | repeatedMember (name : String)
  | wrongType (found : Found) (expected : String)
  | wrongValue (found : Found) (expected : String)
  | wrongLength (length : Nat) (expected : String)
  | unknownName (name : String)
  /-- The value has the right type and is refused all the same. -/
  | refused (message : String)
deriving Inhabited

inductive Fault where
  | malformed
  | endOfText
  | mismatch (cause : Mismatch)
deriving Inhabited

namespace Found

/-- The digits of a number in base 16, in small letters. -/
def hexText (n : Nat) : String :=
  String.ofList (Nat.toDigits 16 n)

/-- Whether a message shows a character by its number. -/
def isHidden (c : Char) : Bool :=
  if c.toNat < 128 then c.toNat < 32 || c.toNat = 127 else Text.inRanges Text.hiddenRanges c.toNat

/-- A character of a text that a message quotes. -/
def showChar (c : Char) : String :=
  if c = '"' then "\\\""
  else if c = '\\' then "\\\\"
  else if c = '\n' then "\\n"
  else if c = '\r' then "\\r"
  else if c = '\t' then "\\t"
  else if c = '\x00' then "\\0"
  else if isHidden c then "\\u\x7b" ++ hexText c.toNat ++ "\x7d"
  else String.singleton c

/-- The wording of what was found. -/
def describe : Found → String
  | .null => "null"
  | .boolean b => "boolean `" ++ toString b ++ "`"
  | .number (.integer n) => "integer `" ++ toString n ++ "`"
  | .number (.real x) => "floating point `" ++ Number.Spelling.json.text x ++ "`"
  | .string s => "string \"" ++ String.join (s.toList.map showChar) ++ "\""
  | .array => "sequence"
  | .object => "map"

end Found

/-- The wording of a mismatch. An unknown name is not followed by the names that are known. -/
def Mismatch.message : Mismatch → String
  | .missingMember name => "missing field `" ++ name ++ "`"
  | .repeatedMember name => "duplicate field `" ++ name ++ "`"
  | .wrongType found expected => "invalid type: " ++ found.describe ++ ", expected " ++ expected
  | .wrongValue found expected => "invalid value: " ++ found.describe ++ ", expected " ++ expected
  | .wrongLength length expected => s!"invalid length {length}, expected " ++ expected
  | .unknownName name => "unknown variant `" ++ name ++ "`"
  | .refused message => message

end Handoff
