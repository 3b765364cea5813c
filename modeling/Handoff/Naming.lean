import Handoff.Text.Words
/-!
# Names for generated code

A layer may have any name. Generated code needs identifiers: one for the component, a class for each
layer, and a binding for each class that a style module exports.

`ClassNamer.next` never gives a name twice. A name that is taken gets a number; the numbers tried are
one more than the names given, so one of them is free.
-/
namespace Handoff

namespace Naming

/-- Whether a character may stand in an identifier. -/
def isKept (c : Char) : Bool := c.isAlphanum

/-- A text with one space for every run of characters that no identifier can hold. -/
def spaced : List Char → List Char
  | [] => []
  | c :: rest =>
    if isKept c then c :: spaced rest
    else match rest with
      | [] => [' ']
      | d :: _ => if isKept d then ' ' :: spaced rest else spaced rest

/-- The words that identifiers are made of: what is left of a name between single spaces. -/
def wordsOnly (name : String) : String :=
  String.ofList (((spaced name.toList).dropWhile (· == ' ')).reverse.dropWhile (· == ' ')).reverse

/-- The identifier of a component. Without letters and digits, and before a digit, `Component`
makes it one. -/
def componentName (name : String) : String :=
  let pascal := Text.pascal (wordsOnly name)
  match pascal.toList with
  | [] => "Component"
  | c :: _ => if c.isDigit then "Component" ++ pascal else pascal

/-- The name by which code refers to a class of a style module. -/
def moduleBinding (className : String) : String :=
  Text.camel className

end Naming

structure ClassNamer where
  used : List String := []
  /-- For each base name with numbered followers, the number to try next. -/
  nextNumber : List (String × Nat) := []
deriving Inhabited

namespace ClassNamer

/-- The class name of a layer while nothing else has it. Where the name of the layer gives nothing,
or begins with a digit, the fallback steps in. -/
def base (name fallback : String) : String :=
  let own := Text.kebab (Naming.wordsOnly name)
  let first := if own.isEmpty then Text.kebab fallback else own
  match first.toList with
  | c :: _ => if c.isDigit then Text.kebab fallback ++ "-" ++ first else first
  | [] => first

def numbered (base : String) (n : Nat) : String :=
  base ++ "-" ++ toString n

/-- The first number from `start` on that makes a name nobody has. -/
def freeNumber (used : List String) (base : String) (start : Nat) : Nat :=
  ((List.range' start (used.length + 1)).find? fun n => !used.contains (numbered base n)).getD start

/-- A class name for a layer, and the namer that knows of it. -/
def next (namer : ClassNamer) (name fallback : String) : String × ClassNamer :=
  let base := base name fallback
  if namer.used.contains base then
    let n := freeNumber namer.used base ((namer.nextNumber.lookup base).getD 2)
    let given := numbered base n
    (given, ⟨given :: namer.used, (base, n + 1) :: namer.nextNumber⟩)
  else (base, { namer with used := base :: namer.used })

/-- The names for a list of requests, in order. -/
def run (namer : ClassNamer) : List (String × String) → List String × ClassNamer
  | [] => ([], namer)
  | (name, fallback) :: rest =>
    let (given, namer) := namer.next name fallback
    let (more, namer) := namer.run rest
    (given :: more, namer)

end ClassNamer
end Handoff
