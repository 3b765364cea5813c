import Handoff.Scene.Color
/-!
# Paints and effects

A paint fills a layer or its outline: one color, a gradient through stops, or an image. An effect is
a shadow or a blur. Both are shown unless they say otherwise.
-/
namespace Handoff

structure Vector2 where
  x : Float
  y : Float
deriving Inhabited

inductive PaintKind where
  | solid
  | gradientLinear
  | gradientRadial
  | gradientAngular
  | gradientDiamond
  | image
  | unknown
deriving DecidableEq, Inhabited

namespace PaintKind

/-- The name in scene texts. -/
def name : PaintKind → String
  | .solid => "SOLID"
  | .gradientLinear => "GRADIENT_LINEAR"
  | .gradientRadial => "GRADIENT_RADIAL"
  | .gradientAngular => "GRADIENT_ANGULAR"
  | .gradientDiamond => "GRADIENT_DIAMOND"
  | .image => "IMAGE"
  | .unknown => "UNKNOWN"

/-- The kind of that name; any other name is an unknown kind. -/
def ofName : String → PaintKind
  | "SOLID" => .solid
  | "GRADIENT_LINEAR" => .gradientLinear
  | "GRADIENT_RADIAL" => .gradientRadial
  | "GRADIENT_ANGULAR" => .gradientAngular
  | "GRADIENT_DIAMOND" => .gradientDiamond
  | "IMAGE" => .image
  | _ => .unknown

/-- Whether a paint of this kind runs through stops. -/
def isGradient : PaintKind → Bool
  | .gradientLinear | .gradientRadial | .gradientAngular | .gradientDiamond => true
  | _ => false

end PaintKind

structure ColorStop where
  color : Color
  position : Float
deriving Inhabited

/-- What fills a layer or its outline. -/
structure Paint where
  kind : PaintKind
  color : Option Color := none
  opacity : Option Float := none
  visible : Option Bool := none
  stops : List ColorStop := []
  handles : List Vector2 := []
  imageRef : Option String := none
deriving Inhabited

namespace Paint

def solid (color : Color) : Paint := { kind := .solid, color := some color }

/-- A paint along a line. -/
def linear (stops : List ColorStop) : Paint := { kind := .gradientLinear, stops }

def image (ref : String) : Paint := { kind := .image, imageRef := some ref }

/-- The paint, not shown. -/
def hide (p : Paint) : Paint := { p with visible := some false }

def isVisible (p : Paint) : Bool := p.visible != some false

/-- The color of a solid paint, its opacity taken into the color's. -/
def effectiveColor? (p : Paint) : Option Color :=
  if p.kind = .solid then p.color.map fun c => c.withAlpha (c.a * p.opacity.getD 1) else none

/-- The color of the first solid paint that is shown. -/
def firstSolid? (paints : List Paint) : Option Color :=
  (paints.filter isVisible).findSome? effectiveColor?

end Paint

inductive EffectKind where
  | dropShadow
  | innerShadow
  | layerBlur
  | backgroundBlur
  | unknown
deriving DecidableEq, Inhabited

namespace EffectKind

/-- The name in scene texts. -/
def name : EffectKind → String
  | .dropShadow => "DROP_SHADOW"
  | .innerShadow => "INNER_SHADOW"
  | .layerBlur => "LAYER_BLUR"
  | .backgroundBlur => "BACKGROUND_BLUR"
  | .unknown => "UNKNOWN"

/-- The kind of that name; any other name is an unknown kind. -/
def ofName : String → EffectKind
  | "DROP_SHADOW" => .dropShadow
  | "INNER_SHADOW" => .innerShadow
  | "LAYER_BLUR" => .layerBlur
  | "BACKGROUND_BLUR" => .backgroundBlur
  | _ => .unknown

end EffectKind

structure Effect where
  kind : EffectKind
  visible : Option Bool := none
  radius : Float := 0
  spread : Option Float := none
  offset : Option Vector2 := none
  color : Option Color := none
deriving Inhabited

namespace Effect

def dropShadow (x y radius : Float) (color : Color) : Effect :=
  { kind := .dropShadow, visible := some true, radius, offset := some ⟨x, y⟩, color := some color }

def layerBlur (radius : Float) : Effect :=
  { kind := .layerBlur, visible := some true, radius }

/-- The effect, not shown. -/
def hide (e : Effect) : Effect := { e with visible := some false }

def isVisible (e : Effect) : Bool := e.visible != some false

end Effect
end Handoff
