import Handoff.Json.Source
import Handoff.Keyed
/-!
# Reading records

A record is written as an object or, members in their order, as a list. `RecordFormat.read` reads
both forms out of a source in text order, so the first fault of the text is the one that is told.

* A member that is not known is skipped, whatever it holds.
* A known member that comes again is refused as soon as its name is read.
* Members that must be there are asked for at the end, in their order.

The other readers of this module are for what members hold: numbers, texts, names, lists, maps.
Every reader takes the number of levels that its value may still open.
-/
namespace Handoff

abbrev Reader (α : Type) := (depth : Nat) → Source → Except Fault α

namespace Reader

/-- A number. -/
def real : Reader Float := fun _ s =>
  match s with
  | .number n => .ok n.toFloat
  | s => .error (s.wrongType "f64")

/-- A text. -/
def string : Reader String := fun _ s =>
  match s with
  | .string s => .ok s
  | s => .error (s.wrongType "a string")

/-- A truth value. -/
def boolean : Reader Bool := fun _ s =>
  match s with
  | .boolean b => .ok b
  | s => .error (s.wrongType "a boolean")

/-- A value that may be `null`. What starts as `null` does is taken for it. -/
def optional {α : Type} (r : Reader α) : Reader (Option α) := fun depth s =>
  match s with
  | .null => .ok none
  | .broken .null reading _ => .error reading
  | s => some <$> r depth s

/-- The values of a list, one after the other. -/
def items {α : Type} (r : Source → Except Fault α) : List Source → Except Fault (List α)
  | [] => .ok []
  | s :: rest => do
    let v ← r s
    return v :: (← items r rest)

/-- A list of values that `r` reads; without `r` there is no level left to open. -/
def listOf {α : Type} (r : Option (Source → Except Fault α)) : Source → Except Fault (List α)
  | .array sources ending =>
    match r with
    | none => .error .malformed
    | some r => do
      let values ← items r sources
      ending.forM throw
      return values
  | s => .error (s.wrongType "a sequence")

def list {α : Type} (r : Reader α) : Reader (List α)
  | 0 => listOf none
  | depth + 1 => listOf (some (r depth))

/-- The entries of a map, put into it one after the other. -/
def entries {α : Type} (r : Source → Except Fault α) (sofar : Keyed α) :
    List (Source × Source) → Except Fault (Keyed α)
  | [] => .ok sofar
  | (key, s) :: rest => do
    let key ← key.key
    let v ← r s
    entries r (sofar.insert key v) rest

/-- A map; of entries with one key the last one counts, at the place of the first. -/
def map {α : Type} (r : Reader α) : Reader (Keyed α) := fun depth s =>
  match s, depth with
  | .object _ _, 0 => .error .malformed
  | .object members ending, depth + 1 => do
    let values ← entries (r depth) .empty members
    ending.forM throw
    return values
  | s, _ => .error (s.wrongType "a map")

/-- The value that a name stands for. -/
def known {α : Type} (ofName : String → Option α) (name : String) : Except Fault α :=
  match ofName name with
  | some v => .ok v
  | none => .error (.mismatch (.unknownName name))

/-- A name, or an object with the name for its only key and `null` for its value. Nothing else is
taken for a name, whatever its type. -/
def name {α : Type} (ofName : String → Option α) : Reader α := fun depth s =>
  match s, depth with
  | .object _ _, 0 => .error .malformed
  | .object [] ending, _ => .error (ending.getD .malformed)
  | .object ((key, value) :: rest) ending, _ => do
    let v ← known ofName (← key.key)
    match value with
    | .null => pure ()
    | value => throw (value.wrongType "unit")
    match rest, ending with
    | [], none => return v
    | [], some f => throw f
    | _ :: _, _ => throw .malformed
  | s, _ => do known ofName (← s.key)

end Reader

/-- A member of a record, and how its value changes the record read so far. -/
structure Field (σ : Type) where
  name : String
  required : Bool
  read : Reader (σ → σ)

namespace Field

variable {σ α : Type}

def needed (name : String) (r : Reader α) (set : α → σ → σ) : Field σ :=
  ⟨name, true, fun depth s => set <$> r depth s⟩

/-- A member that keeps its default when it is not there. -/
def defaulted (name : String) (r : Reader α) (set : α → σ → σ) : Field σ :=
  ⟨name, false, fun depth s => set <$> r depth s⟩

end Field

/-- The members of a record and the record before any of them is read. -/
structure RecordFormat (σ : Type) where
  /-- What a message calls the record. -/
  title : String
  fields : List (Field σ)
  start : σ

namespace RecordFormat

variable {σ : Type}

/-- The first member that must be there and is not. -/
def missing? (fields : List (Field σ)) (seen : List String) : Option String :=
  (fields.find? fun f => f.required && !seen.contains f.name).map Field.name

/-- Reads members in text order. `other` says what a member that is not known does. -/
def readMembers (fields : List (Field σ)) (other : String → Source → Except Fault (σ → σ))
    (depth : Nat) (seen : List String) (sofar : σ) :
    List (Source × Source) → Except Fault (σ × List String)
  | [] => .ok (sofar, seen)
  | (key, s) :: rest => do
    let name ← key.key
    match fields.find? fun f => f.name == name with
    | none =>
      let change ← other name s
      readMembers fields other depth seen (change sofar) rest
    | some f =>
      if seen.contains name then throw (.mismatch (.repeatedMember name))
      let change ← f.read depth s
      readMembers fields other depth (name :: seen) (change sofar) rest

/-- Reads the members of an object. -/
def readObject (fields : List (Field σ)) (other : String → Source → Except Fault (σ → σ))
    (start : σ) (depth : Nat) (members : List (Source × Source)) (ending : Option Fault) :
    Except Fault σ := do
  let (result, seen) ← readMembers fields other depth [] start members
  ending.forM throw
  match missing? fields seen with
  | some name => throw (.mismatch (.missingMember name))
  | none => return result

/-- Reads the values of a list, each as the member of its place. -/
def readItems (expected : String) (depth : Nat) (ending : Option Fault) :
    Nat → List (Field σ) → List Source → σ → Except Fault σ
  | _, [], [], sofar =>
    match ending with
    | some f => .error f
    | none => .ok sofar
  | _, [], _ :: _, _ => .error .malformed
  | place, f :: fields, [], sofar =>
    match ending with
    | some f => .error f
    | none =>
      if f.required then .error (.mismatch (.wrongLength place expected))
      else readItems expected depth ending (place + 1) fields [] sofar
  | place, f :: fields, s :: sources, sofar => do
    let change ← f.read depth s
    readItems expected depth ending (place + 1) fields sources (change sofar)

/-- A record in either of its two forms. -/
def read (format : RecordFormat σ) : Reader σ := fun depth s =>
  match s, depth with
  | .object _ _, 0 => .error .malformed
  | .array _ _, 0 => .error .malformed
  | .object members ending, depth + 1 =>
    readObject format.fields (fun _ s => (fun _ => id) <$> s.skip) format.start depth members ending
  | .array sources ending, depth + 1 =>
    readItems s!"{format.title} with {format.fields.length} elements" depth ending 0
      format.fields sources format.start
  | s, _ => .error (s.wrongType format.title)

end RecordFormat
end Handoff
