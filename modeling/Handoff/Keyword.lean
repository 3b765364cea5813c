import Handoff.Text.Lower
import Handoff.Text.Search
/-!
# Keywords

A list of keywords tells names apart regardless of case. A keyword matches a name that contains it
anywhere; as a whole word it matches only between characters that are no ASCII letters or digits.
-/
namespace Handoff

/-- Keywords in small letters; the order decides which of several matches is the first. -/
structure Keywords where
  words : List String
deriving DecidableEq, Inhabited

namespace Keywords

def ofList (words : List String) : Keywords :=
  ⟨words.map Text.lower⟩

def firstMatch? (k : Keywords) (name : String) : Option String :=
  let name := (Text.lower name).toList
  k.words.find? fun word => Text.occursIn word.toList name

def matchesName (k : Keywords) (name : String) : Bool :=
  (k.firstMatch? name).isSome

/-- The parts of a text between the characters that satisfy `isCut`; parts may be empty. -/
def parts (isCut : Char → Bool) : List Char → List (List Char)
  | [] => [[]]
  | c :: rest =>
    let later := parts isCut rest
    if isCut c then [] :: later
    else match later with
      | [] => [[c]]
      | part :: more => (c :: part) :: more

def matchesWord (k : Keywords) (name : String) : Bool :=
  (parts (fun c => !c.isAlphanum) (Text.lower name).toList).any fun part =>
    k.words.any fun word => word.toList == part

def interactive : Keywords :=
  ofList ["button", "btn", "link", "click", "toggle", "checkbox", "switch", "submit", "tab",
    "dropdown"]

end Keywords
end Handoff
