import Handoff.Scene.Document
import Handoff.Json.Basic
/-!
# Scenes as JSON

Every part of a scene has a JSON value with its members in a fixed order. Lists without items and
what is not set are left out; the layout of a node stands among the node's own members.
-/
namespace Handoff

open Json (real optional unlessEmpty)

def Color.toJson (c : Color) : Json :=
  .object [("r", real c.r), ("g", real c.g), ("b", real c.b), ("a", real c.a)]

def Vector2.toJson (v : Vector2) : Json :=
  .object [("x", real v.x), ("y", real v.y)]

def Rect.toJson (r : Rect) : Json :=
  .object [("x", real r.x), ("y", real r.y), ("width", real r.width), ("height", real r.height)]

def ColorStop.toJson (s : ColorStop) : Json :=
  .object [("color", s.color.toJson), ("position", real s.position)]

/-- A paint; what it does not use is left out. -/
def Paint.toJson (p : Paint) : Json :=
  .object <| ("type", .string p.kind.name) ::
    optional "color" (p.color.map Color.toJson) ++
    optional "opacity" (p.opacity.map real) ++
    optional "visible" (p.visible.map .boolean) ++
    unlessEmpty "gradientStops" (p.stops.map ColorStop.toJson) ++
    unlessEmpty "gradientHandlePositions" (p.handles.map Vector2.toJson) ++
    optional "imageRef" (p.imageRef.map .string)

/-- A shadow or a blur. -/
def Effect.toJson (e : Effect) : Json :=
  .object <| ("type", .string e.kind.name) ::
    optional "visible" (e.visible.map .boolean) ++
    ("radius", real e.radius) ::
    optional "spread" (e.spread.map real) ++
    optional "offset" (e.offset.map Vector2.toJson) ++
    optional "color" (e.color.map Color.toJson)

/-- How a text is set. -/
def Typography.toJson (t : Typography) : Json :=
  .object <|
    optional "fontFamily" (t.family.map .string) ++
    optional "fontSize" (t.size.map real) ++
    optional "fontWeight" (t.weight.map real) ++
    optional "lineHeightPx" (t.lineHeight.map real) ++
    optional "letterSpacing" (t.letterSpacing.map real) ++
    optional "textAlignHorizontal" (t.align.map fun a => .string a.name) ++
    unlessEmpty "fills" (t.fills.map Paint.toJson)

def Constraints.toJson (c : Constraints) : Json :=
  .object [("horizontal", .string c.horizontal.name), ("vertical", .string c.vertical.name)]

/-- The members by which a layout stands among those of its node. -/
def Layout.members (l : Layout) : List (String × Json) :=
  ("layoutMode", .string l.mode.name) ::
    optional "itemSpacing" (l.spacing.map real) ++
    [("paddingTop", real l.padding.top), ("paddingRight", real l.padding.right),
      ("paddingBottom", real l.padding.bottom), ("paddingLeft", real l.padding.left)]

/-- The members of a node; its children stand after its kind. -/
def Layer.members (l : Layer) (children : List Json) : List (String × Json) :=
  ("id", .string l.id) :: ("name", .string l.name) :: ("type", .string l.kind.name) ::
    unlessEmpty "children" children ++
    optional "absoluteBoundingBox" (l.box.map Rect.toJson) ++
    unlessEmpty "fills" (l.fills.map Paint.toJson) ++
    unlessEmpty "strokes" (l.strokes.map Paint.toJson) ++
    optional "strokeWeight" (l.strokeWeight.map real) ++
    unlessEmpty "effects" (l.effects.map Effect.toJson) ++
    optional "style" (l.typography.map Typography.toJson) ++
    optional "characters" (l.characters.map .string) ++
    l.layout.members ++
    optional "cornerRadius" (l.cornerRadius.map real) ++
    optional "opacity" (l.opacity.map real) ++
    optional "constraints" (l.constraints.map Constraints.toJson) ++
    optional "backgroundColor" (l.background.map Color.toJson)

/-- A node with everything below it. -/
def Node.toJson : Node → Json
  | .node layer children => .object (layer.members (nodesToJson children))
where
  nodesToJson : List Node → List Json
    | [] => []
    | n :: ns => toJson n :: nodesToJson ns

def ComponentMeta.toJson (c : ComponentMeta) : Json :=
  .object <| ("key", .string c.key) :: ("name", .string c.name) ::
    optional "description" (c.description.map .string)

/-- A document; an empty index is left out. -/
def Document.toJson (d : Document) : Json :=
  .object <|
    optional "name" (d.name.map .string) ++
    ("document", Node.toJson d.root) ::
    if d.components.isEmpty then []
    else [("components", .object (d.components.entries.map fun e => (e.1, e.2.toJson)))]

end Handoff
