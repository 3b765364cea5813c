import Handoff.Json.Basic
import Handoff.Text.Lines
/-!
# Helpers of templates

A helper makes a value of the values it is called on and refuses what does not suit it. What it is
given beyond that it ignores. `indent` pushes a text right; the others look into values and compare
them. Those that work on a block leave nothing where there is none.
-/
namespace Handoff.Template

/-- Whether two values are the same. The order of members does not matter. A number without a fraction
differs from one with a fraction of zero. -/
def sameValue : Json → Json → Bool
  | .null, .null => true
  | .boolean a, .boolean b => a == b
  | .number (.integer m), .number (.integer n) => m == n
  | .number (.real x), .number (.real y) => x == y
  | .string s, .string t => s == t
  | .array vs, .array ws => sameItems vs ws
  | .object ms, .object ns => ms.length == ns.length && sameMembers ms ns
  | _, _ => false
where
  sameItems : List Json → List Json → Bool
    | [], [] => true
    | v :: vs, w :: ws => sameValue v w && sameItems vs ws
    | _, _ => false
  sameMembers : List (String × Json) → List (String × Json) → Bool
    | [], _ => true
    | (name, v) :: ms, ns => (ns.lookup name).any (sameValue v) && sameMembers ms ns

/-- Whether a value counts as true: not nothing, not zero and not empty. -/
def holds : Json → Bool
  | .null => false
  | .boolean b => b
  | .number n => 2.2250738585072014e-308 ≤ n.toFloat.abs
  | .string s => !s.isEmpty
  | .array items => !items.isEmpty
  | .object members => !members.isEmpty

/-- The number of items, of members or of bytes. -/
def size : Json → Nat
  | .string s => s.utf8ByteSize
  | .array items => items.length
  | .object members => members.length
  | _ => 0

/-- The item at a place or the member of a name. -/
def entry (v key : Json) : Json :=
  match v, key with
  | .array items, .number (.integer (.ofNat i)) => items[i]?.getD .null
  | .object _, .string name => (v.member? name).getD .null
  | _, _ => .null

/-- The comparison of two integers, which have to fit 64 bits with a sign. -/
def compared? (test : Int → Int → Bool) : List Json → Option Json
  | .number (.integer m) :: .number (.integer n) :: _ =>
    if m ≤ Int64.maxValue.toInt && n ≤ Int64.maxValue.toInt then some (.boolean (test m n)) else none
  | _ => none

def helpers : List String :=
  ["indent", "if", "unless", "each", "with", "lookup", "raw", "log", "eq", "ne", "gt", "gte", "lt",
    "lte", "and", "or", "not", "len"]

/-- What a helper makes of values. -/
def helperValue? (helper : String) (values : List Json) : Option Json :=
  match helper, values with
  | "indent", .string content :: .number (.integer (.ofNat spaces)) :: _ =>
    some (.string (Text.indent spaces content))
  | "lookup", v :: key :: _ => some (entry v key)
  | "eq", v :: w :: _ => some (.boolean (sameValue v w))
  | "ne", v :: w :: _ => some (.boolean (!sameValue v w))
  | "and", v :: w :: _ => some (.boolean (holds v && holds w))
  | "or", v :: w :: _ => some (.boolean (holds v || holds w))
  | "not", v :: _ => some (.boolean (!holds v))
  | "len", v :: _ => some (.number (.integer (size v)))
  | "gt", _ => compared? (· > ·) values
  | "gte", _ => compared? (· ≥ ·) values
  | "lt", _ => compared? (· < ·) values
  | "lte", _ => compared? (· ≤ ·) values
  | "if", _ :: _ => some (.string "")
  | "unless", _ :: _ => some (.string "")
  | "each", _ :: _ => some (.string "")
  | "with", _ :: _ => some (.string "")
  | "raw", _ => some (.string "")
  | "log", _ => some (.string "")
  | _, _ => none

end Handoff.Template
