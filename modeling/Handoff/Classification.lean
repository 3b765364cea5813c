import Handoff.Keyword
import Handoff.Scene.Layer
/-!
# Classification

What a node is used for is told by its name first and by its shape only where no keyword matches.
The classification of a node is a tree of the same shape as the node's.

A node is interactive when its name, or that of a node below it, contains an interactive keyword.
-/
namespace Handoff

inductive Category where
  | button
  | card
  | text
  | input
  | layout
  | image
  | icon
  /-- Nothing more particular applies. -/
  | complex
deriving DecidableEq, Inhabited

namespace Category

/-- The label of a category. -/
def label : Category → String
  | .button => "button"
  | .card => "card"
  | .text => "text"
  | .input => "input"
  | .layout => "layout"
  | .image => "image"
  | .icon => "icon"
  | .complex => "complex"

def all : List Category :=
  [.button, .card, .text, .input, .layout, .image, .icon, .complex]

def ofLabel? (label : String) : Option Category :=
  all.find? fun c => c.label == label

/-- Whether one acts on components of this category directly. -/
def isInteractive : Category → Bool
  | .button | .input => true
  | _ => false

end Category

inductive Complexity where
  | simple
  | medium
  | complex
deriving DecidableEq, Inhabited

namespace Complexity

/-- The label of a class. -/
def label : Complexity → String
  | .simple => "simple"
  | .medium => "medium"
  | .complex => "complex"

/-- Simple up to one bound, medium up to the other, complex beyond. -/
def ofScore (score simpleMax mediumMax : Nat) : Complexity :=
  if score ≤ simpleMax then .simple else if score ≤ mediumMax then .medium else .complex

def atLeastMedium : Complexity → Bool
  | .simple => false
  | _ => true

end Complexity

structure Verdict where
  category : Category
  complexity : Complexity
  /-- The name of the node or of one below it is interactive. -/
  isInteractive : Bool
  /-- The name of the node is interactive. -/
  hasInteractiveName : Bool
  hasVariants : Bool
deriving DecidableEq, Inhabited

/-- What is known of a node and everything below it. -/
abbrev Classification := Tree Verdict

structure Classifier where
  /-- Keywords of categories; the first list with a match decides. -/
  categoryKeywords : List (Category × Keywords)
  interactiveKeywords : Keywords
  /-- A node with more children than this is a layout if its name says nothing. -/
  layoutChildThreshold : Nat
  /-- The highest score that is still simple. -/
  simpleMax : Nat
  /-- The highest score that is still medium. -/
  mediumMax : Nat
deriving Inhabited

namespace Classifier

/-- The keywords and bounds in use unless others are given. -/
def standard : Classifier where
  categoryKeywords := [
    (.button, .ofList ["button", "btn"]),
    (.card, .ofList ["card", "panel"]),
    (.input, .ofList ["input", "field", "form"]),
    (.image, .ofList ["image", "img", "photo", "avatar"]),
    (.icon, .ofList ["icon"])]
  interactiveKeywords := Keywords.interactive
  layoutChildThreshold := 3
  simpleMax := 3
  mediumMax := 8

def categoryOfName? (c : Classifier) (name : String) : Option Category :=
  (c.categoryKeywords.find? fun entry => entry.2.matchesName name).map Prod.fst

/-- The category that the shape of a node tells. -/
def categoryOfShape (c : Classifier) (layer : Layer) (childCount : Nat) : Category :=
  if layer.isText then .text
  else if c.layoutChildThreshold < childCount then .layout
  else .complex

/-- One for each child, two for effects, one for fills that lie over each other. -/
def score (layer : Layer) (childCount : Nat) : Nat :=
  childCount + (if layer.effects.isEmpty then 0 else 2) + (if 1 < layer.fills.length then 1 else 0)

/-- The verdict on a node, given whether some child is interactive. -/
def verdict (c : Classifier) (layer : Layer) (childCount : Nat) (childIsInteractive : Bool) :
    Verdict :=
  let named := c.interactiveKeywords.matchesName layer.name
  { category := (c.categoryOfName? layer.name).getD (c.categoryOfShape layer childCount)
    complexity := .ofScore (score layer childCount) c.simpleMax c.mediumMax
    isInteractive := named || childIsInteractive
    hasInteractiveName := named
    hasVariants := layer.kind.hasVariants }

/-- The classification of a node. -/
def classify (c : Classifier) : Node → Classification
  | .node layer children =>
    let below := classifyAll children
    .node (c.verdict layer children.length (below.any fun t => t.value.isInteractive)) below
where
  classifyAll : List Node → List Classification
    | [] => []
    | n :: ns => classify c n :: classifyAll ns

end Classifier
end Handoff
