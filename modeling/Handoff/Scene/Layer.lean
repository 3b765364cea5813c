import Handoff.Scene.Paint
import Handoff.Tree
/-!
# Layers and nodes

A layer is what one node of a scene says about itself: its kind, its box, its paints and effects,
its text and how its children are laid out. A node is a layer and the nodes below it.
-/
namespace Handoff

structure Rect where
  x : Float := 0
  y : Float := 0
  width : Float := 0
  height : Float := 0
deriving Inhabited

inductive TextAlign where
  | left
  | center
  | right
  | justified
deriving DecidableEq, Inhabited

namespace TextAlign

/-- The name in scene texts. -/
def name : TextAlign → String
  | .left => "LEFT"
  | .center => "CENTER"
  | .right => "RIGHT"
  | .justified => "JUSTIFIED"

/-- The alignment of that name. -/
def ofName? : String → Option TextAlign
  | "LEFT" => some .left
  | "CENTER" => some .center
  | "RIGHT" => some .right
  | "JUSTIFIED" => some .justified
  | _ => none

/-- The alignment in a stylesheet. -/
def css : TextAlign → String
  | .left => "left"
  | .center => "center"
  | .right => "right"
  | .justified => "justify"

end TextAlign

structure Typography where
  family : Option String := none
  size : Option Float := none
  weight : Option Float := none
  lineHeight : Option Float := none
  letterSpacing : Option Float := none
  align : Option TextAlign := none
  fills : List Paint := []
deriving Inhabited

/-- Along which axis children are laid out, if at all. -/
inductive LayoutMode where
  | horizontal
  | vertical
  | none
deriving DecidableEq, Inhabited

namespace LayoutMode

/-- The name in scene texts. -/
def name : LayoutMode → String
  | .horizontal => "HORIZONTAL"
  | .vertical => "VERTICAL"
  | .none => "NONE"

/-- The mode of that name; any other name lays nothing out. -/
def ofName : String → LayoutMode
  | "HORIZONTAL" => .horizontal
  | "VERTICAL" => .vertical
  | _ => .none

end LayoutMode

structure Padding where
  top : Float := 0
  right : Float := 0
  bottom : Float := 0
  left : Float := 0
deriving Inhabited

namespace Padding

def uniform (x : Float) : Padding := ⟨x, x, x, x⟩

def isZero (p : Padding) : Bool :=
  p.top == 0 && p.right == 0 && p.bottom == 0 && p.left == 0

def isUniform (p : Padding) : Bool :=
  p.top == p.right && p.right == p.bottom && p.bottom == p.left

end Padding

structure Layout where
  mode : LayoutMode := .none
  spacing : Option Float := none
  padding : Padding := {}
deriving Inhabited

def Layout.isAuto (l : Layout) : Bool := l.mode != .none

inductive HorizontalAnchor where
  | left
  | right
  | center
  | both
  | scale
deriving DecidableEq, Inhabited

namespace HorizontalAnchor

/-- The name in scene texts. -/
def name : HorizontalAnchor → String
  | .left => "LEFT"
  | .right => "RIGHT"
  | .center => "CENTER"
  | .both => "LEFT_RIGHT"
  | .scale => "SCALE"

/-- The anchor of that name, of which some have two. -/
def ofName? : String → Option HorizontalAnchor
  | "LEFT" | "MIN" => some .left
  | "RIGHT" | "MAX" => some .right
  | "CENTER" => some .center
  | "LEFT_RIGHT" | "STRETCH" => some .both
  | "SCALE" => some .scale
  | _ => none

end HorizontalAnchor

inductive VerticalAnchor where
  | top
  | bottom
  | center
  | both
  | scale
deriving DecidableEq, Inhabited

namespace VerticalAnchor

/-- The name in scene texts. -/
def name : VerticalAnchor → String
  | .top => "TOP"
  | .bottom => "BOTTOM"
  | .center => "CENTER"
  | .both => "TOP_BOTTOM"
  | .scale => "SCALE"

/-- The anchor of that name, of which some have two. -/
def ofName? : String → Option VerticalAnchor
  | "TOP" | "MIN" => some .top
  | "BOTTOM" | "MAX" => some .bottom
  | "CENTER" => some .center
  | "TOP_BOTTOM" | "STRETCH" => some .both
  | "SCALE" => some .scale
  | _ => none

end VerticalAnchor

/-- How a layer follows its parent when that changes its size. -/
structure Constraints where
  horizontal : HorizontalAnchor := .left
  vertical : VerticalAnchor := .top
deriving DecidableEq, Inhabited

/-- Whether a layer is anchored anywhere but at the top left. -/
def Constraints.isAnchored (c : Constraints) : Bool :=
  c.horizontal != .left || c.vertical != .top

inductive NodeKind where
  | document
  | canvas
  | frame
  | group
  | pageSection
  | text
  | rectangle
  | ellipse
  | vector
  | line
  | star
  | polygon
  | booleanOperation
  | slice
  | component
  | componentSet
  | componentInstance
  | unknown
deriving DecidableEq, Inhabited

namespace NodeKind

/-- The name in scene texts. -/
def name : NodeKind → String
  | .document => "DOCUMENT"
  | .canvas => "CANVAS"
  | .frame => "FRAME"
  | .group => "GROUP"
  | .pageSection => "SECTION"
  | .text => "TEXT"
  | .rectangle => "RECTANGLE"
  | .ellipse => "ELLIPSE"
  | .vector => "VECTOR"
  | .line => "LINE"
  | .star => "STAR"
  | .polygon => "REGULAR_POLYGON"
  | .booleanOperation => "BOOLEAN_OPERATION"
  | .slice => "SLICE"
  | .component => "COMPONENT"
  | .componentSet => "COMPONENT_SET"
  | .componentInstance => "INSTANCE"
  | .unknown => "UNKNOWN"

/-- The kind of that name, of which one has two; any other name is an unknown kind. -/
def ofName : String → NodeKind
  | "DOCUMENT" => .document
  | "CANVAS" => .canvas
  | "FRAME" => .frame
  | "GROUP" => .group
  | "SECTION" => .pageSection
  | "TEXT" => .text
  | "RECTANGLE" => .rectangle
  | "ELLIPSE" => .ellipse
  | "VECTOR" => .vector
  | "LINE" => .line
  | "STAR" => .star
  | "REGULAR_POLYGON" | "POLYGON" => .polygon
  | "BOOLEAN_OPERATION" => .booleanOperation
  | "SLICE" => .slice
  | "COMPONENT" => .component
  | "COMPONENT_SET" => .componentSet
  | "INSTANCE" => .componentInstance
  | _ => .unknown

/-- Sets of components and their instances come in variants. -/
def hasVariants : NodeKind → Bool
  | .componentSet | .componentInstance => true
  | _ => false

/-- Whether nodes of this kind hold other nodes. -/
def isContainer : NodeKind → Bool
  | .document | .canvas | .frame | .group | .pageSection => true
  | .component | .componentSet | .componentInstance => true
  | _ => false

/-- Whether nodes of this kind are drawn as a shape. -/
def isShape : NodeKind → Bool
  | .rectangle | .ellipse | .vector | .line | .star | .polygon | .booleanOperation => true
  | _ => false

end NodeKind

structure Layer where
  id : String := ""
  name : String := ""
  kind : NodeKind := .unknown
  box : Option Rect := none
  fills : List Paint := []
  strokes : List Paint := []
  strokeWeight : Option Float := none
  effects : List Effect := []
  typography : Option Typography := none
  characters : Option String := none
  layout : Layout := {}
  cornerRadius : Option Float := none
  opacity : Option Float := none
  constraints : Option Constraints := none
  background : Option Color := none
deriving Inhabited

namespace Layer

def isText (l : Layer) : Bool := l.kind == .text

def text? (l : Layer) : Option String :=
  if l.isText then l.characters.filter fun s => !s.isEmpty else none

def hasImageFill (l : Layer) : Bool :=
  l.fills.any fun p => p.kind == .image

def width? (l : Layer) : Option Float :=
  l.box.map Rect.width

end Layer

/-- A node of a scene: a layer and the nodes below it. -/
abbrev Node := Tree Layer

namespace Node

def named (id name : String) (kind : NodeKind) : Node :=
  .leaf { id, name, kind }

def text (id name content : String) : Node :=
  .leaf { id, name, kind := .text, characters := some content }

def change (n : Node) (f : Layer → Layer) : Node :=
  .node (f n.value) n.children

def withChildren (n : Node) (more : List Node) : Node :=
  .node n.value (n.children ++ more)

end Node
end Handoff
