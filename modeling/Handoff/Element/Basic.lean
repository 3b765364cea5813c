import Handoff.Dialect
import Handoff.Tree
/-!
# Elements

An element has a tag, attributes, perhaps a text, and children. What an attribute says is fixed
here; how it is spelled depends on the markup dialect.
-/
namespace Handoff

inductive ClassRef where
  | none
  /-- A list of class names. -/
  | names (text : String)
  /-- A name that a style module exports. -/
  | binding (name : String)
deriving DecidableEq, Inhabited

inductive Role where
  | button
  | link
deriving DecidableEq, Inhabited

def Role.name : Role → String
  | .button => "button"
  | .link => "link"

inductive Attribute where
  | classRef (ref : ClassRef)
  | role (role : Role)
  /-- The element can be reached with the keyboard. -/
  | focusable
  /-- The button submits nothing. -/
  | buttonType
  | alt (text : String)
  | source (path : String)
  | placeholder (text : String)
  | lazyLoading
  | asyncDecoding
  /-- A click on the element is a click on the component. -/
  | clickHandler
deriving DecidableEq, Inhabited

/-- An element without its children. -/
structure ElementHead where
  tag : String
  attributes : List Attribute
  text : Option String := none
deriving DecidableEq, Inhabited

abbrev Element := Tree ElementHead

namespace Tag

def isVoid (tag : String) : Bool :=
  ["img", "input"].contains tag

/-- Whether elements of a tag can be acted on without further attributes. -/
def isInteractive (tag : String) : Bool :=
  ["button", "a", "input", "select", "textarea"].contains tag

end Tag

end Handoff
