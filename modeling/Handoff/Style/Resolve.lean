import Handoff.Style.Bag
import Handoff.Scene.Layer
/-!
# Styles of a layer

The properties come in a fixed order: size, layout, background, border, corners, effects, opacity
and, for a text, how it is set. Of the colors that compete for a background, the first solid fill
that is shown wins over the layer's own background color; a gradient stands beside that color and
only counts where no solid fill is shown. The fills of a text's typography give its foreground.
-/
namespace Handoff

namespace Gradient

/-- The color stops of a gradient, the opacity of its paint taken into each. -/
def stops (stops : List ColorStop) (opacity : Float) : String :=
  String.intercalate ", " <| stops.map fun stop =>
    (stop.color.withAlpha (stop.color.a * opacity)).css ++ " " ++
      Number.css (stop.position * 100) ++ "%"

def degreesPerRadian : Float := 57.29577951308232

/-- An angle below 720 degrees without its full turn. -/
def withoutTurn (x : Float) : Float :=
  if 360 ≤ x then x - 360 else x

/-- The angle of a linear gradient from its first handle to its second, in whole degrees; 0 points
up and 90 to the right. Without handles it points down. -/
def angle (p : Paint) : Float :=
  match p.handles with
  | start :: stop :: _ =>
    let dx := stop.x - start.x
    let dy := stop.y - start.y
    if dx == 0 && dy == 0 then 180
    else withoutTurn (Number.roundWhole (Float.atan2 dx (-dy) * degreesPerRadian) + 360)
  | _ => 180

/-- The gradient function of a paint, if it is a gradient with stops. -/
def css? (p : Paint) : Option String :=
  if !p.kind.isGradient || p.stops.isEmpty then none
  else
    let stops := stops p.stops (p.opacity.getD 1)
    match p.kind with
    | .gradientLinear => some ("linear-gradient(" ++ Number.css (angle p) ++ "deg, " ++ stops ++ ")")
    | .gradientAngular => some ("conic-gradient(" ++ stops ++ ")")
    | _ => some ("radial-gradient(circle, " ++ stops ++ ")")

end Gradient

abbrev Declarations := List (String × StyleValue)

namespace Layer

/-- The size of the box. -/
def sizeStyles (l : Layer) : Declarations :=
  match l.box with
  | some box => [(Property.width, .px box.width), (Property.height, .px box.height)]
  | none => []

/-- The flow of the children. A spacing that is not positive is none. -/
def flowStyles (l : Layer) : Declarations :=
  let direction? := match l.layout.mode with
    | .horizontal => some "row"
    | .vertical => some "column"
    | .none => none
  match direction? with
  | none => []
  | some direction =>
    let gap := match l.layout.spacing with
      | some x => if 0 < x then [(Property.gap, .px x)] else []
      | none => []
    (Property.display, .keyword "flex") :: (Property.flexDirection, .keyword direction) :: gap

/-- The space inside the box, as one length where all sides agree. -/
def paddingStyles (l : Layer) : Declarations :=
  let p := l.layout.padding
  if p.isZero then []
  else if p.isUniform then [(Property.padding, .px p.top)]
  else [(Property.padding, .edges [p.top, p.right, p.bottom, p.left])]

/-- The background color or gradient. -/
def backgroundStyles (l : Layer) : Declarations :=
  let own : Declarations := match l.background with
    | some c => [(Property.backgroundColor, .color c)]
    | none => []
  match Paint.firstSolid? l.fills with
  | some c => [(Property.backgroundColor, .color c)]
  | none =>
    match (l.fills.filter Paint.isVisible).findSome? Gradient.css? with
    | some gradient => own ++ [(Property.background, .keyword gradient)]
    | none => own

/-- The outline of the first solid stroke. -/
def borderStyles (l : Layer) : Declarations :=
  match Paint.firstSolid? l.strokes with
  | some c =>
    let weight := Number.css (l.strokeWeight.getD 1)
    [(Property.border, .keyword (weight ++ "px solid " ++ c.css))]
  | none => []

/-- The corners, if they are round. -/
def cornerStyles (l : Layer) : Declarations :=
  match l.cornerRadius with
  | some r => if 0 < r then [(Property.borderRadius, .px r)] else []
  | none => []

/-- The text of a shadow. -/
def shadowText (e : Effect) : String :=
  let offset := e.offset.getD ⟨0, 0⟩
  let color := e.color.getD ⟨0, 0, 0, 0.25⟩
  let lengths := [offset.x, offset.y, e.radius, e.spread.getD 0].map StyleValue.pxText
  String.intercalate " " (lengths ++ [color.css])

/-- All drop shadows and the first blur, of those shown. -/
def effectStyles (l : Layer) : Declarations :=
  let shown := l.effects.filter Effect.isVisible
  let shadows := (shown.filter fun e => e.kind == .dropShadow).map shadowText
  let shadow : Declarations :=
    if shadows.isEmpty then []
    else [(Property.boxShadow, .keyword (String.intercalate ", " shadows))]
  let blur : Declarations := match shown.find? fun e => e.kind == .layerBlur with
    | some e => [(Property.filter, .keyword ("blur(" ++ Number.css e.radius ++ "px)"))]
    | none => []
  shadow ++ blur

/-- The opacity, if something shines through. -/
def opacityStyles (l : Layer) : Declarations :=
  match l.opacity with
  | some o => if o < 1 then [(Property.opacity, .number (if o < 0 then 0 else o))] else []
  | none => []

/-- How a text is set. -/
def textStyles (l : Layer) : Declarations :=
  match l.typography with
  | none => []
  | some t =>
    let one {α : Type} (property : String) (value : Option α) (f : α → StyleValue) :
        Declarations :=
      match value with
      | some v => [(property, f v)]
      | none => []
    one Property.fontFamily (t.family.filter fun s => !s.isEmpty) .keyword ++
      one Property.fontSize t.size .px ++
      one Property.fontWeight t.weight .number ++
      one Property.lineHeight t.lineHeight .px ++
      one Property.letterSpacing (t.letterSpacing.filter fun x => x != 0) .px ++
      one Property.textAlign (t.align.map TextAlign.css) .keyword ++
      one Property.color (Paint.firstSolid? t.fills) .color

def declarations (l : Layer) : Declarations :=
  l.sizeStyles ++ l.flowStyles ++ l.paddingStyles ++ l.backgroundStyles ++ l.borderStyles ++
    l.cornerStyles ++ l.effectStyles ++ l.opacityStyles ++ (if l.isText then l.textStyles else [])

def resolve (l : Layer) : StyleBag :=
  Keyed.ofList l.declarations

end Layer
end Handoff
