import Handoff.Json.Fault
/-!
# Using a JSON value

The readers of this module take apart a value that has been read as a whole. `Json.sortMembers`
brings objects into the form in which the last of several members with one name counts and members
come sorted by name; a record is then read member by member in that order.
-/
namespace Handoff

/-- A member that is read from a value that is there already. -/
structure KeptField (σ : Type) where
  name : String
  read : Json → Except Mismatch (σ → σ)

/-- Reads the members that are known, in their order, and passes over the others. -/
def readKept {σ : Type} (fields : List (KeptField σ)) (seen : List String) (sofar : σ) :
    List (String × Json) → Except Mismatch σ
  | [] => .ok sofar
  | (name, v) :: rest =>
    match fields.find? fun f => f.name == name with
    | none => readKept fields seen sofar rest
    | some f => do
      if seen.contains name then throw (.repeatedMember name)
      let change ← f.read v
      readKept fields (name :: seen) (change sofar) rest

namespace Json

/-- What a reader says it met. -/
def found : Json → Found
  | .null => .null
  | .boolean b => .boolean b
  | .number n => .number n
  | .string s => .string s
  | .array _ => .array
  | .object _ => .object

/-- The mismatch of a value that is not of the expected type. -/
def wrongType (v : Json) (expected : String) : Mismatch :=
  .wrongType v.found expected

def asReal : Json → Except Mismatch Float
  | .number n => .ok n.toFloat
  | v => .error (v.wrongType "f64")

def asString : Json → Except Mismatch String
  | .string s => .ok s
  | v => .error (v.wrongType "a string")

def asBoolean : Json → Except Mismatch Bool
  | .boolean b => .ok b
  | v => .error (v.wrongType "a boolean")

/-- A whole number that fits 32 bits. -/
def asWord : Json → Except Mismatch UInt32
  | .number (.integer n) =>
    if 0 ≤ n ∧ n < UInt32.size then .ok (UInt32.ofNat n.toNat)
    else .error (.wrongValue (.number (.integer n)) "u32")
  | v => .error (v.wrongType "u32")

def asOptional {α : Type} (r : Json → Except Mismatch α) : Json → Except Mismatch (Option α)
  | .null => .ok none
  | v => some <$> r v

/-- The values of members, in order. -/
def readEntries {α : Type} (r : Json → Except Mismatch α) :
    List (String × Json) → Except Mismatch (List (String × α))
  | [] => .ok []
  | (name, v) :: rest => do
    let v ← r v
    return (name, v) :: (← readEntries r rest)

def asMap {α : Type} (r : Json → Except Mismatch α) : Json → Except Mismatch (List (String × α))
  | .object members => readEntries r members
  | v => .error (v.wrongType "a map")

/-- A name, or an object with the name for its only key and `null` for its value. -/
def asName {α : Type} (ofName : String → Option α) (v : Json) : Except Mismatch α := do
  let (name, content) ← match v with
    | .string s => pure (s, Json.null)
    | .object [(key, content)] => pure (key, content)
    | .object _ => throw (.wrongValue .object "map with a single key")
    | v => throw (v.wrongType "string or map")
  let some known := ofName name | throw (.unknownName name)
  match content with
  | .null => return known
  | content => throw (content.wrongType "unit")

/-- Reads the values of a list as the members of a record, in their order. -/
def readPlaces {σ : Type} (length : Nat) :
    List (KeptField σ) → σ → List Json → Except Mismatch σ
  | _, sofar, [] => .ok sofar
  | [], _, _ :: _ => .error (.wrongLength length "fewer elements in array")
  | f :: fields, sofar, v :: rest => do
    let change ← f.read v
    readPlaces length fields (change sofar) rest

/-- A record, as an object or, member by member, as a list. No member has to be there. -/
def asRecord {σ : Type} (v : Json) (title : String) (fields : List (KeptField σ)) (start : σ) :
    Except Mismatch σ :=
  match v with
  | .object members => readKept fields [] start members
  | .array items => readPlaces items.length fields start items
  | v => .error (v.wrongType title)

/-- A member put among sorted ones; it replaces one of its name. -/
def insertSorted (name : String) (v : Json) : List (String × Json) → List (String × Json)
  | [] => [(name, v)]
  | (n, w) :: rest =>
    if name < n then (name, v) :: (n, w) :: rest
    else if n < name then (n, w) :: insertSorted name v rest
    else (name, v) :: rest

/-- The value with the members of every object sorted by name; of members with one name the last one
stays. -/
def sortMembers : Json → Json
  | .array items => .array (sortAll items)
  | .object members => .object (sortOnto [] members)
  | v => v
where
  sortAll : List Json → List Json
    | [] => []
    | v :: vs => sortMembers v :: sortAll vs
  sortOnto (sofar : List (String × Json)) : List (String × Json) → List (String × Json)
    | [] => sofar
    | (name, v) :: rest => sortOnto (insertSorted name (sortMembers v) sofar) rest

end Json
end Handoff
