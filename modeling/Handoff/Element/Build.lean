import Handoff.Element.Basic
import Handoff.Style.Styled
import Handoff.Text.Search
/-!
# From styled trees to elements

Every node becomes one element. The tag comes from the name of the node, then from its fills and its
kind; a tag without content is not given to a node with children, and inside an interactive element
no other one can stand.
-/
namespace Handoff

/-- Which tag the name of a node asks for: the first keyword that it contains decides. -/
structure TagTable where
  entries : List (String × String)
deriving DecidableEq, Inhabited

namespace TagTable

def ofList (entries : List (String × String)) : TagTable :=
  ⟨entries.map fun (keyword, tag) => (Text.lower keyword, tag)⟩

/-- The table in use unless another is given. -/
def standard : TagTable := ofList [
  ("button", "button"), ("link", "a"), ("nav", "nav"), ("header", "header"), ("footer", "footer"),
  ("input", "input"), ("field", "input"), ("image", "img"), ("img", "img"), ("photo", "img"),
  ("heading", "h2"), ("title", "h2")]

def tag? (t : TagTable) (name : String) : Option String :=
  let name := (Text.lower name).toList
  (t.entries.find? fun entry => Text.occursIn entry.1.toList name).map Prod.snd

end TagTable

inductive Place where
  | root
  | inner
deriving DecidableEq, Inhabited

/-- How the elements of a component refer to their rules. -/
abbrev ClassAssignment := Place → StyledLayer → ClassRef

namespace Element

/-- The tag of a node with or without children, regardless of what it stands in. -/
def ownTag (tags : TagTable) (layer : Layer) (isLeaf : Bool) : String :=
  match (tags.tag? layer.name).filter fun tag => isLeaf || !Tag.isVoid tag with
  | some tag => tag
  | none => if layer.hasImageFill && isLeaf then "img" else if layer.isText then "span" else "div"

def tagOf (tags : TagTable) (layer : Layer) (isLeaf insideInteractive : Bool) : String :=
  let tag := ownTag tags layer isLeaf
  if insideInteractive && Tag.isInteractive tag then "span" else tag

/-- The role and the focus of a node whose name is interactive. -/
def roleAttributes (s : StyledLayer) : List Attribute :=
  if s.verdict.hasInteractiveName then
    let isLink := Text.occursIn "link".toList (Text.lower s.layer.name).toList
    [.role (if isLink then .link else .button), .focusable]
  else []

/-- The image of a node: that of its first image fill with one, else one named for its class. -/
def imageName (s : StyledLayer) : String :=
  ((s.layer.fills.filter fun p => p.kind == .image).findSome? Paint.imageRef).getD s.className

/-- The attributes of an element without content. -/
def voidAttributes (tag : String) (s : StyledLayer) (optimizeImages : Bool) : List Attribute :=
  if tag == "img" then
    [.source ("assets/" ++ imageName s ++ ".png"), .alt (Text.trim s.layer.name)] ++
      if optimizeImages then [.lazyLoading, .asyncDecoding] else []
  else
    match s.layer.text? with
    | some text => [.placeholder text]
    | none => []

/-- A click on the root of an interactive component is handed on. -/
def clickAttributes (place : Place) (s : StyledLayer) : List Attribute :=
  if place == .root && s.verdict.isInteractive then [.clickHandler] else []

/-- The element of a node without its children. -/
def headOf (tag : String) (place : Place) (ref : ClassRef) (s : StyledLayer)
    (optimizeImages : Bool) : ElementHead :=
  let attributes := .classRef ref :: (if tag == "button" then [.buttonType] else []) ++
    roleAttributes s ++ (if Tag.isVoid tag then voidAttributes tag s optimizeImages else []) ++
    clickAttributes place s
  { tag, attributes, text := if Tag.isVoid tag then none else s.layer.text? }

/-- The element of a node at a place, inside an interactive element or not. -/
def ofNode (tags : TagTable) (optimizeImages : Bool) (classOf : ClassAssignment) (place : Place)
    (insideInteractive : Bool) : Styled → Element
  | .node s children =>
    let tag := tagOf tags s.layer children.isEmpty insideInteractive
    let inside := insideInteractive || Tag.isInteractive tag
    .node (headOf tag place (classOf place s) s optimizeImages) (ofNodes inside children)
where
  ofNodes (insideInteractive : Bool) : List Styled → List Element
    | [] => []
    | n :: ns => ofNode tags optimizeImages classOf .inner insideInteractive n ::
        ofNodes insideInteractive ns

def build (tags : TagTable) (optimizeImages : Bool) (classOf : ClassAssignment) (s : Styled) :
    Element :=
  ofNode tags optimizeImages classOf .root false s

end Element
end Handoff
